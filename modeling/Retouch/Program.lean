import Retouch.Config
import Retouch.Diff.Unified
import Retouch.Reformat

/-! The program: settings from the command line and the project, the reformatting of edited parts, and
what becomes of a changed file: a diff on the output, a new content, or only the exit status. -/
namespace Retouch.Program

def printDiff (path : Path) (old new : Document) : Run Unit := do
  let cwd := (← get).cwd
  let file := Path.resolve cwd path
  let relative ← Run.ofOption (.outside file cwd) (file.relativeTo? cwd)
  let diff := Unified.render relative.render old.lines new.lines
  let terminal := (← read).terminal
  let shown := match terminal.interactive, terminal.highlight with
    | true, some highlight => highlight diff
    | _, _ => diff
  Run.print (shown ++ "\n")

def modifyFile (path : Path) (content : Document) : Run Unit := do
  Run.note .info .program s!"Writing {content.text.length} bytes into {path.render}"
  Run.writeText path content.text

def openConsole (name : String) (level : Value) : Run Unit := do
  let opened (n : Int) : Run Unit := modify fun s => { s with console := some ⟨n, n == 20, name⟩ }
  match level with
  | .int n => opened n
  | .text s => match Verbosity.numberOf? s with
    | some n =>
      modify fun t => { t with console := some ⟨n, false, name⟩ }
      Run.fail .wrongKind
    | none => Run.fail (.unknownLevel s)
  | _ => Run.fail .wrongKind

def printConfig (r : Config.Reading) : Run Unit := do
  Run.print "\n# Effective configuration:\n\n"
  Run.print ((← Config.dump r.effective) ++ "\n")
  Run.print "\n# Configuration options which differ from defaults:\n\n"
  Run.print ((← Config.dump r.modified) ++ "\n")
  Run.print "\n\n"

def pathsOf (v : Value) : Run (List Path) := do
  let items ← commandsOf v
  let paths ← items.mapM (fun item => match item with
    | .text s => pure (Path.ofString s)
    | _ => Run.fail .wrongKind)
  return paths.eraseDups

def formatterOptions (setting : String → Value) : Settings :=
  let when (given : Bool) (key : String) : Settings := if given then [(key, setting key)] else []
  when (setting "config").truthy "config" ++ when (setting "line_length").truthy "line_length" ++
    when (!(setting "skip_string_normalization").alike .none) "skip_string_normalization"

def sink (diff check : Bool) : Sink Bool := fun _ path old new => do
  if diff then printDiff path old new
  if !check && !diff then modifyFile path new
  return true

structure Plan where
  paths : List Path
  range : RevisionRange
  sorted : Bool
  check : Bool
  diff : Bool
  linters : Value
  options : Settings

def prepare (name : String) (args : List String) : Run Plan := do
  let r ← Config.read args
  let setting (key : String) : Value := (r.settings.lookup key).getD .none
  openConsole name (setting "log_level")
  if ((setting "log_level").number?.getD 30) ≤ Verbosity.lowest then printConfig r
  let sorted := (setting "isort").truthy
  if sorted && (← read).sortImports.isNone then
    Run.note .error .program s!"{Options.installSorter} to use the `--isort` option."
    Run.fail (.exit 1)
  let paths ← pathsOf (setting Options.sourceKey)
  let range ← match setting "revision" with
    | .text s => RevisionRange.parse s
    | _ => Run.fail .wrongKind
  return ⟨paths, range, sorted, (setting "check").truthy, (setting "diff").truthy, setting "lint",
    formatterOptions setting⟩

def Plan.carryOut (p : Plan) : Run Int := do
  let progress ← reformatEdited p.paths p.range p.sorted p.linters p.options (sink p.diff p.check) false
  return if p.check && progress.gathered then 1 else 0

def run (name : String) (args : List String) : Run Int := do
  (← prepare name args).carryOut

end Retouch.Program
