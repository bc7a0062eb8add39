/-
The command that checks unit files.

Each input is read and checked on its own, and the results may come in any order.  Each carries
the number of its input, so that they are shown in the order of the inputs.
-/
import UnitCheck.Command.Invocation
import UnitCheck.Command.Session
import UnitCheck.Config.Discovery
import UnitCheck.Output.Basic
import UnitCheck.UnitInput

namespace UnitCheck

namespace Check

/-- The result of checking one input: the file with the number of its input, or a failure. -/
abbrev Delivery := Except Failure (Nat × CheckedFile)

/-- The results of checking inputs that were read. -/
def deliveries (registry : Registry) (sources : List (Except Failure Source)) : List Delivery :=
  sources.zipIdx.map fun (source, index) =>
    source.map fun source => (index, .ofText registry source.path source.text)

/-- Put results that came in any order into the order of the inputs.  The failure that came
first counts. -/
def gather (results : List Delivery) : Except Failure (List CheckedFile) := do
  let checked ← results.mapM id
  return (checked.mergeSort fun a b => a.1 ≤ b.1).map (·.2)

/-- What the log says about a source. -/
def sourceLog (registry : Registry) (source : Source) : List LogLine :=
  let document := Document.parse source.text.toList
  source.warnings ++
    (registry.unknownSections document).map (fun name =>
      ⟨.debug, "Skipping unrecognized section [" ++ name ++ "]"⟩) ++
    [⟨.debug, source.path ++ ": " ++ toString (registry.validate document).length ++
      " diagnostic(s)"⟩]

/-- What the log says about sources. -/
def sourcesLog (registry : Registry) (sources : List (Except Failure Source)) : List LogLine :=
  sources.flatMap fun
    | .ok source => sourceLog registry source
    | .error _ => []

/-- The paths to check: the working directory if none is given. -/
def pathsOf (options : CheckOptions) : List (List Char) :=
  if options.paths.isEmpty then [['.']] else options.paths

/-- The format of the output: the one asked for, else that of the configuration. -/
def formatOf (options : CheckOptions) (config : Config) : Format :=
  (options.format.or config.format).getD .stylish

/-- Do findings make the check fail? -/
def isStrict (options : CheckOptions) (config : Config) : Bool :=
  options.strict || config.strict.getD false

/-- The exit status of a check that has shown its findings. -/
def status (strict : Bool) (files : List CheckedFile) : Nat :=
  if strict && decide (0 < Output.total files) then 1 else 0

/-- Check unit files. -/
def run (session : Session) (options : CheckOptions) : Logged Page := do
  let config ← session.config options.config
  let inputs ← UnitInput.collect session.tree session.workingDirectory (pathsOf options)
  Logged.write [⟨.info, "Checking " ++ toString inputs.length ++ " unit file(s)"⟩]
  let registry := config.registry
  let sources :=
    UnitInput.readAll session.tree session.workingDirectory session.standardInput inputs
  Logged.write (sourcesLog registry sources)
  let files ← Logged.ofExcept (gather (deliveries registry sources))
  let text :=
    (formatOf options config).render session.colours session.workingDirectory.path files
  return ⟨text, status (isStrict options config) files⟩

end Check

end UnitCheck
