/-
The JSON report loses nothing.

The report is written by the JSON writer, and every JSON text can be read back, so nothing depends on
what characters stand in paths and keys.  A file is recovered from its object up to its text, and a
diagnostic entirely.
-/
import UnitCheck.Output.Basic
import UnitCheck.Proofs.Findings
import UnitCheck.Proofs.Json.Reading

namespace UnitCheck

/-- The object is that of a diagnostic on a text.  It has these fields and no others. -/
def Diagnostic.DescribedBy (text : List Char) (diagnostic : Diagnostic) (object : Json) : Prop :=
  ∃ key position, diagnostic.span.slice? text = some key ∧
    (LineIndex.ofText text).position? diagnostic.span.start = some position ∧
    object = .obj [("key", .str (String.ofList key)), ("start", .nat diagnostic.span.start),
      ("end", .nat diagnostic.span.stop), ("line", .nat position.line),
      ("column", .nat position.column), ("severity", .str "warning"),
      ("message", .str diagnostic.message)]

/-- The object is that of a file: its path, and the objects of its diagnostics in order. -/
def CheckedFile.DescribedBy (file : CheckedFile) (object : Json) : Prop :=
  ∃ objects, object = .obj [("path", .str file.path), ("diagnostics", .arr objects)] ∧
    List.Forall₂ (Diagnostic.DescribedBy file.text.toList) file.diagnostics objects

/-! ### Writing and reading -/

lemma toList_json (files : List CheckedFile) :
    (Output.json files).toList = (Output.filesJson files).pretty 0 ++ ['\n'] := by
  rw [Output.json, String.toList_ofList]

lemma ofText?_json (files : List CheckedFile) :
    Json.ofText? (Output.json files).toList = some (Output.filesJson files) := by
  have hnewline : Json.IsSpace ['\n'] := by simp [Json.IsSpace]
  rw [toList_json]
  exact Json.ofText?_of_denotes Json.isSpace_nil (Json.denotes_pretty 0 _) hnewline

/-! ### Objects -/

lemma Finding.Shows.describedBy {text : List Char} {diagnostic : Diagnostic} {finding : Finding}
    (h : finding.Shows text diagnostic) :
    diagnostic.DescribedBy text (Output.findingJson finding) := by
  refine ⟨finding.key.toList, finding.position, h.key_eq, h.position_eq, ?_⟩
  have hseverity : finding.severity.text = "warning" := by
    cases finding.severity
    rfl
  rw [Output.findingJson, h.span_eq, h.message_eq, hseverity, String.ofList_toList]

lemma CheckedFile.IsJudgedBy.describedBy {registry : Registry} {file : CheckedFile}
    (h : file.IsJudgedBy registry) : file.DescribedBy (Output.fileJson file) := by
  refine ⟨_, rfl, ?_⟩
  rw [List.forall₂_map_right_iff]
  exact h.forall₂_findings.imp fun _ _ hshows => hshows.describedBy

lemma Json.nat_inj {m n : Nat} : Json.nat m = Json.nat n ↔ m = n := by
  rw [Json.nat, Json.nat, Json.int.injEq, Int.natCast_inj]

/-- A diagnostic can be told from its object. -/
lemma Diagnostic.eq_of_describedBy {text text' : List Char} {a b : Diagnostic} {object : Json}
    (ha : a.DescribedBy text object) (hb : b.DescribedBy text' object) : a = b := by
  obtain ⟨key, position, -, -, rfl⟩ := ha
  obtain ⟨key', position', -, -, hobject⟩ := hb
  simp only [Json.obj.injEq, List.cons.injEq, Prod.mk.injEq, Json.str.injEq, Json.nat_inj,
    true_and, and_true] at hobject
  obtain ⟨-, hstart, hstop, -, -, hmessage⟩ := hobject
  obtain ⟨⟨start, stop⟩, severity, message⟩ := a
  obtain ⟨⟨start', stop'⟩, severity', message'⟩ := b
  -- there is only one severity
  cases severity
  cases severity'
  simp_all

/-- The path and the diagnostics of a file can be told from its object. -/
lemma CheckedFile.eq_of_describedBy {a b : CheckedFile} {object : Json} (ha : a.DescribedBy object)
    (hb : b.DescribedBy object) : a.path = b.path ∧ a.diagnostics = b.diagnostics := by
  obtain ⟨objects, rfl, ha⟩ := ha
  obtain ⟨objects', hobject, hb⟩ := hb
  simp only [Json.obj.injEq, List.cons.injEq, Prod.mk.injEq, Json.str.injEq, Json.arr.injEq,
    true_and, and_true] at hobject
  obtain ⟨hpath, rfl⟩ := hobject
  refine ⟨hpath, ?_⟩
  rw [← List.forall₂_eq_eq_eq]
  exact forall₂_of_common ha hb fun _ _ _ => Diagnostic.eq_of_describedBy

/-- **The JSON report loses nothing.**  The report on checked files is one JSON text and a line feed.
The value that it denotes, and as which it is read, is an array with one object for each file, in
order: the path, and the diagnostics in order, each with the key that it marks, its span, the position
of its start, its severity and its message.  So the paths and diagnostics of files can be told from
their report. -/
theorem json_lossless (files : List CheckedFile)
    (hfiles : ∀ file ∈ files, ∃ registry, file.IsJudgedBy registry) :
    ∃ body objects, (Output.json files).toList = body ++ ['\n'] ∧
      (∀ value, Json.Denotes body value ↔ value = .arr objects) ∧
      Json.ofText? (Output.json files).toList = some (.arr objects) ∧
      List.Forall₂ CheckedFile.DescribedBy files objects ∧
      ∀ files' : List CheckedFile, (∀ file ∈ files', ∃ registry, file.IsJudgedBy registry) →
        Output.json files' = Output.json files →
        List.Forall₂ (fun a b => a.path = b.path ∧ a.diagnostics = b.diagnostics) files files' := by
  have hdescribed : ∀ {files : List CheckedFile},
      (∀ file ∈ files, ∃ registry, file.IsJudgedBy registry) →
        List.Forall₂ CheckedFile.DescribedBy files (files.map Output.fileJson) := by
    intro files hfiles
    rw [List.forall₂_map_right_iff, List.forall₂_same]
    intro file hfile
    obtain ⟨registry, hfile⟩ := hfiles file hfile
    exact hfile.describedBy
  have hbody : Json.Denotes ((Output.filesJson files).pretty 0) (.arr (files.map Output.fileJson)) :=
    Json.denotes_pretty 0 _
  refine ⟨_, _, toList_json files, fun value => ⟨fun hvalue => hvalue.unique hbody, ?_⟩,
    ofText?_json files, hdescribed hfiles, fun files' hfiles' heq => ?_⟩
  · rintro rfl
    exact hbody
  · have hread := ofText?_json files'
    rw [heq, ofText?_json files] at hread
    have hobjects : files.map Output.fileJson = files'.map Output.fileJson :=
      Json.arr.inj (Option.some.inj hread)
    have hdescribed' := hdescribed hfiles'
    rw [← hobjects] at hdescribed'
    exact forall₂_of_common (hdescribed hfiles) hdescribed' fun _ _ _ =>
      CheckedFile.eq_of_describedBy

/-- A path and a key with quotes, backslashes and control characters, and a file without
diagnostics. -/
theorem json_lossless_escaped :
    let registry := Registry.empty.extendSection "A" []
    let files := [CheckedFile.ofText registry "a\"\\\n" "[A]\n\"\\\x01é=1\n",
      .ofText registry "b" ""]
    (∀ file ∈ files, ∃ registry, file.IsJudgedBy registry) ∧
      files.map (·.diagnostics) = [[.unrecognized ⟨4, 9⟩], []] ∧
      ∃ objects, Json.ofText? (Output.json files).toList = some (.arr objects) ∧
        List.Forall₂ CheckedFile.DescribedBy files objects := by
  intro registry files
  have hfiles : ∀ file ∈ files, ∃ registry, file.IsJudgedBy registry := by
    intro file hfile
    rcases List.mem_pair.1 hfile with rfl | rfl
    · exact ⟨registry, rfl⟩
    · exact ⟨registry, rfl⟩
  obtain ⟨-, objects, -, -, hread, hobjects, -⟩ := json_lossless files hfiles
  exact ⟨hfiles, by decide, objects, hread, hobjects⟩

end UnitCheck
