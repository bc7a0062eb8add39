/-
Snippets: the lines of a text around some of its diagnostics.

Diagnostics that stand close together share a snippet.  A snippet shows the lines of its
diagnostics, the line before the first and the line behind the last.  Below the line of a diagnostic
a row of carets marks the key, and a row below that holds the message.
-/
import UnitCheck.CheckedFile
import UnitCheck.Report.Window
import UnitCheck.Text.Width

namespace UnitCheck

/-! ### The lines of a window -/

/-- A chunk without its line end: a line feed, with the carriage return before it. -/
def withoutLineEnd (chunk : List Char) : List Char :=
  if chunk.getLast? = some '\n' then
    let body := chunk.dropLast
    if body.getLast? = some '\r' then body.dropLast else body
  else chunk

/-- A line of a text with its number and the offset at which it begins. -/
structure SourceLine where
  number : Nat
  offset : Nat
  /-- The line with its line end. -/
  chunk : List Char
deriving DecidableEq, Repr

namespace SourceLine

/-- The line without its line end. -/
def text (line : SourceLine) : List Char :=
  withoutLineEnd line.chunk

/-- Does the span begin on the line? -/
def holds (line : SourceLine) (span : Span) : Bool :=
  line.offset ≤ span.start && span.start < line.offset + byteLength line.chunk

/-- The number of cells that the line takes up to an offset, or in all if the offset is beyond it. -/
def widthTo (line : SourceLine) (offset : Nat) : Nat :=
  match splitAtByte? (offset - line.offset) line.text with
  | some (before, _) => textWidth before
  | none => textWidth line.text

end SourceLine

/-- Consecutive lines, the first with the given number and at the given offset. -/
def sourceLines (number offset : Nat) : List (List Char) → List SourceLine
  | [] => []
  | chunk :: rest =>
    ⟨number, offset, chunk⟩ :: sourceLines (number + 1) (offset + byteLength chunk) rest

/-- The lines of a window of the text. -/
def Window.lines (text : List Char) (window : Window) : List SourceLine :=
  sourceLines (window.linesBefore + 1) window.span.start
    (chunks ((window.span.slice? text).getD []))

/-! ### Excerpts -/

/-- A span that covers one diagnostic or more, with its window. -/
structure Excerpt where
  span : Span
  window : Window
deriving DecidableEq, Repr

namespace Excerpt

/-- The excerpt of a span, with one line before and one behind. -/
def ofSpan (text : List Char) (span : Span) : Excerpt :=
  ⟨span, .around 1 span text⟩

/-- Does the next excerpt belong to the one before it?  It does if the lines before its window are
no more than those before the other window and the line ends up to the end of that window
together. -/
def admits (excerpt next : Excerpt) : Bool :=
  next.window.linesBefore ≤ excerpt.window.linesBefore + excerpt.window.lineEnds

/-- The excerpt of two spans together, the first of which begins first. -/
def join (text : List Char) (excerpt next : Excerpt) : Excerpt :=
  ofSpan text ⟨excerpt.span.start, max excerpt.span.stop next.span.stop⟩

/-- Add a span to the last excerpt or begin a new one.  The excerpts stand last first. -/
def addSpan (text : List Char) (excerpts : List Excerpt) (span : Span) : List Excerpt :=
  let next := ofSpan text span
  match excerpts with
  | [] => [next]
  | last :: earlier =>
    if last.admits next then last.join text next :: earlier else next :: last :: earlier

/-- The excerpts of spans that are given in the order of the text. -/
def ofSpans (text : List Char) (spans : List Span) : List Excerpt :=
  (spans.foldl (addSpan text) []).reverse

end Excerpt

/-! ### The rows of a snippet -/

/-- A row of a snippet below its heading. -/
inductive SnippetRow where
  /-- A line of the text, with its tabs expanded. -/
  | source (number : Nat) (text : List Char)
  /-- Carets under a key, with a bar among them at column `bar`. -/
  | marker (start bar stop : Nat)
  /-- A message under the bar. -/
  | label (bar : Nat) (message : String)
deriving DecidableEq, Repr

/-- The rows under the line of a diagnostic. -/
def markerRows (line : SourceLine) (diagnostic : Diagnostic) : List SnippetRow :=
  let start := line.widthTo diagnostic.span.start
  let stop := max (line.widthTo diagnostic.span.stop) (start + 1)
  let bar := (start + stop) / 2
  [.marker start bar stop, .label bar diagnostic.message]

/-- The rows of a line: the line itself and what there is to say about it. -/
def rowsOfLine (diagnostics : List Diagnostic) (line : SourceLine) : List SnippetRow :=
  .source line.number (expandTabs line.text) ::
    (diagnostics.filter (line.holds ·.span)).flatMap (markerRows line)

/-- A snippet: the place of its first diagnostic, in bytes, and its rows. -/
structure Snippet where
  line : Nat
  column : Nat
  /-- The number of the last line shown. -/
  lastLine : Nat
  rows : List SnippetRow

/-- The span of the first of the diagnostics that an excerpt covers. -/
def Excerpt.primary (diagnostics : List Diagnostic) (excerpt : Excerpt) : Span :=
  let covers (span : Span) : Bool :=
    excerpt.span.start ≤ span.start && span.stop ≤ excerpt.span.stop
  ((diagnostics.map (·.span)).find? covers).getD excerpt.span

/-- The snippet of an excerpt of a text with the given diagnostics. -/
def Snippet.ofExcerpt (text : List Char) (diagnostics : List Diagnostic) (excerpt : Excerpt) :
    Snippet :=
  let place := Window.around 0 (excerpt.primary diagnostics) text
  let lines := excerpt.window.lines text
  { line := place.linesBefore + 1
    column := place.column + 1
    lastLine := (lines.getLast?.map (·.number)).getD 0
    rows := lines.flatMap (rowsOfLine diagnostics) }

/-- The snippets of the diagnostics of a file. -/
def CheckedFile.snippets (file : CheckedFile) : List Snippet :=
  let text := file.text.toList
  (Excerpt.ofSpans text (file.diagnostics.map (·.span))).map
    (Snippet.ofExcerpt text file.diagnostics)

end UnitCheck
