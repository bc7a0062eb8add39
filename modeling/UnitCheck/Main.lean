/-
The command line program.

The part of the file system that a command can come across is read into a tree first.  The
command then runs on that tree, and what it leaves is written out.
-/
import UnitCheck.Command.Run

namespace UnitCheck

namespace Snapshot

/-- Reading the file system into a tree. -/
abbrev SnapshotM := StateT FileTree IO

/-- The place of an absolute path without links. -/
def placeOf (path : String) : Place :=
  (Path.pieces path.toList).filter (!·.isEmpty)

/-- A link that leads nowhere: no name has a NUL character. -/
def danglingLink : Entry := .link ['\x00']

/-- Put a place and the directories above it into the tree. -/
def insertBelowDirectories (place : Place) (entry : Entry) : SnapshotM Unit :=
  modify fun tree =>
    let above := ((List.range place.length).map place.take).filter (!·.isEmpty)
    let tree := above.foldl (fun (tree : FileTree) above => tree.insert above .directory) tree
    if place.isEmpty then tree else tree.insert place entry

/-- Put the entry at a place, which may be a link, into the tree.  The place that it leads to
and the kind of entry there are given back.  A link that leads back to itself is kept as one
that does so at once. -/
def readEntry (withBytes : Bool) (place : Place) : SnapshotM (Option (Place × Entry)) := do
  let root ← IO.currentDir
  let path := root / String.ofList place.path
  let readAt (place : Place) : SnapshotM (Option (Place × Entry)) := do
    let path := root / String.ofList place.path
    match (← path.metadata).type with
    | .dir =>
      insertBelowDirectories place .directory
      return some (place, .directory)
    | _ =>
      let bytes ← if withBytes then IO.FS.readBinFile path else pure ByteArray.empty
      insertBelowDirectories place (.file bytes.toList)
      return some (place, .file [])
  match ← path.symlinkMetadata.toBaseIO with
  | .error _ => return none
  | .ok { type := .symlink, .. } =>
    match ← path.metadata.toBaseIO with
    | .ok _ =>
      let target ← IO.FS.realPath path
      insertBelowDirectories place (.link target.toString.toList)
      readAt (placeOf target.toString)
    | .error (.invalidArgument ..) =>
      insertBelowDirectories place (.link place.path)
      return none
    | .error _ =>
      insertBelowDirectories place danglingLink
      return none
  | .ok _ => readAt place

/-- Put what a path leads through into the tree, and give back the place that it leads to. -/
def readPath : Place → List (List Char) → SnapshotM (Option Place)
  | place, [] => return some place
  | place, piece :: rest => do
    if FileTree.isIdle piece then readPath place rest
    else if piece == ['.', '.'] then readPath place.dropLast rest
    else match ← readEntry true (place ++ [piece]) with
      | some (place, .directory) => readPath place rest
      | _ => return none

/-- Is the file of this name worth reading in a walk? -/
def isOfInterest (name : List Char) : Bool :=
  Path.isUnitFile name || Path.extension? name == some "conf".toList

/-- Put all entries below a directory into the tree, and those below the directories that links
in it lead to. -/
partial def readBelow (seen : IO.Ref (List Place)) (place : Place) : SnapshotM Unit := do
  unless (← seen.get).contains place do
    seen.modify (place :: ·)
    let root ← IO.currentDir
    for entry in ← (root / String.ofList place.path).readDir do
      let name := entry.fileName.toList
      if let some (target, .directory) ← readEntry (isOfInterest name) (place ++ [name]) then
        readBelow seen target

/-- Put what a command can come across at a path into the tree. -/
def readAround (seen : IO.Ref (List Place)) (workingDirectory : Place) (path : List Char) :
    SnapshotM Unit := do
  let origin := FileTree.start workingDirectory path
  if let some place ← readPath origin (Path.pieces path) then
    readBelow seen place

/-- The paths that a command reads from. -/
def pathsOf : Command → List (List Char)
  | .check options => Check.pathsOf options ++ options.config.toList
  | .schema options => options.config.toList

end Snapshot

/-- The bytes of a stream. -/
partial def readAllBytes (stream : IO.FS.Stream) (bytes : ByteArray) : IO ByteArray := do
  let more ← stream.read 65536
  if more.isEmpty then return bytes else readAllBytes stream (bytes ++ more)

/-- What the system says about an operation that failed. -/
def ReadError.ofSystem : IO.Error → ReadError
  | .alreadyExists _ number text | .interrupted _ number text
  | .noFileOrDirectory _ number text | .invalidArgument _ number text
  | .permissionDenied _ number text | .resourceExhausted _ number text
  | .inappropriateType _ number text | .noSuchThing _ number text =>
    .system text number.toNat
  | .otherError number text | .resourceBusy number text | .resourceVanished number text
  | .unsupportedOperation number text | .hardwareFault number text
  | .unsatisfiedConstraints number text | .illegalOperation number text
  | .protocolError number text | .timeExpired number text =>
    .system text number.toNat
  | error => .system error.toString 0

/-- Read the standard input to its end.  One that was closed before is empty. -/
def readStandardInput : IO StandardInput := do
  match ← (readAllBytes (← IO.getStdin) ByteArray.empty).toBaseIO with
  | .ok bytes => return .ok bytes.toList
  | .error error =>
    match ReadError.ofSystem error with
    | .system _ 9 => return .ok []
    | error => return .error error

/-- Does a command read the standard input? -/
def Command.readsStandardInput : Command → Bool
  | .check options => options.paths.any UnitInput.isStandardInput
  | .schema _ => false

/-- Run a command line on the file system. -/
def runProgram (arguments : List (List Char)) : IO Outcome := do
  let configVariable := (← IO.getEnv "UNITLINT_CONFIG").map (·.toList)
  match Invocation.ofArguments configVariable 0 arguments with
  | .error halt => return halt.outcome
  | .ok invocation =>
    let here := Snapshot.placeOf (← IO.FS.realPath (← IO.currentDir)).toString
    let paths := (Snapshot.pathsOf invocation.command).filter (!UnitInput.isStandardInput ·)
    let seen ← IO.mkRef []
    let ((), tree) ← (do
      Snapshot.insertBelowDirectories here .directory
      discard (Snapshot.readEntry true (here ++ [Config.defaultName.toList]))
      for path in paths do
        Snapshot.readAround seen here path).run {}
    let standardInput ←
      if invocation.command.readsStandardInput then readStandardInput else pure (.ok [])
    let session : Session := {
      tree
      workingDirectory := here
      standardInput
      configVariable
      colours := ← (← IO.getStdout).isTty }
    return session.run arguments

end UnitCheck

/-- Run the command line, write what it leaves and give its exit status. -/
def main (arguments : List String) : IO UInt32 := do
  let outcome ← UnitCheck.runProgram (arguments.map (·.toList))
  (← IO.getStdout).putStr outcome.output
  (← IO.getStderr).putStr outcome.errors
  return outcome.status.toUInt32
