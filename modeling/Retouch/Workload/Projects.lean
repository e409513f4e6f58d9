import Retouch.Program
import Retouch.Workload.Site

/-! Workloads on projects: revisions, a repository, a linter, configuration, and the whole program. -/
namespace Retouch.Workload

def specs : List String :=
  ["HEAD", "HEAD~1", "main", "a..b", "a...b", "..b", "...b", "a..", "a...", "..", "...", "v1.0", ""]

def spec (i : Int) : String := specs.getD (i % specs.length).toNat ""

def preCommitKeys : List String := ["PRE_COMMIT_FROM_REF", "PRE_COMMIT_TO_REF"]

def withPreCommit (values : List (String × String)) (act : Run α) : Run α :=
  withReader (fun t => { t with
    environment := values ++ t.environment.filter (fun e => !preCommitKeys.contains e.1) }) act

def revisions (dir : Path) (size : Int) : Run Work := do
  let file ← writeIn dir "p.py" "x"
  let absent := dir.join (Path.ofString "absent.py")
  return do
    let ranges ← (upTo size).mapM (fun i => RevisionRange.parse (spec i))
    let wanted ← (upTo size).filterM (fun i => shouldReformat (if i % 2 == 0 then file else absent))
    let first ← Run.ofOption .noItem ranges.head?
    let last ← Run.ofOption .noItem ranges.getLast?
    let hook ← withPreCommit [("PRE_COMMIT_FROM_REF", "aaa"), ("PRE_COMMIT_TO_REF", workingTreeName)]
      (RevisionRange.parse preCommitName)
    return .list [ofCount ranges.length, .text first.source, .text last.target.name, ofCount wanted.length,
      .text hook.source, .text hook.target.name, .bool hook.commonAncestor, .bool first.commonAncestor]

def committedLine (i : Int) : String := s!"a_{i} = {i}"

def editedLine (i : Int) : String := if i % 2 == 0 then s!"a_{i}=( {i},{i + 1} )" else committedLine i

def module : Path := ⟨.relative, ["mod_0.py"]⟩

def commitAndEdit (dir : Path) (lines : Int) (files : List (String × String)) : Run Unit := do
  let _ ← writeIn dir module.render (joinLines ((upTo lines).map committedLine))
  files.forM (fun f => do let _ ← writeIn dir f.1 f.2)
  [["init", "-q"], ["add", "-A"], ["commit", "-q", "-m", "initial"]].forM (fun args =>
    Run.record (.command dir ("git" :: args)))
  let _ ← writeIn dir module.render (joinLines ((upTo lines).map editedLine))

def ends (act : Run α) : Run Nat := do
  match ← attempt act with
  | .ok _ => return 0
  | .error (.exit _) => return 1
  | .error (.git _) => return 1
  | .error f => Run.fail f

def editedCount : Int := 20

def repository (dir : Path) (size : Int) : Run Work := do
  commitAndEdit dir editedCount []
  let chunks := (upTo size).map (fun i => (⟨i + 1, [committedLine i], [editedLine i]⟩ : Chunk))
  let old := (upTo editedCount).map committedLine
  let edited := Document.ofLines ((upTo editedCount).map editedLine)
  return do
    let head := RevisionRange.ofText "HEAD"
    let chosen ← choose [] chunks
    let lines ← editedInTarget dir head module 0
    let around ← editedSince dir head module edited 1
    let file := dir.join module
    let modified ← modifiedFiles [file] head dir
    let since ← modifiedFiles [file] (RevisionRange.ofText "HEAD...") dir
    let between ← modifiedFiles [file] (RevisionRange.ofText "HEAD..HEAD") dir
    let content ← contentAt module "HEAD" dir
    let absent ← contentAt (Path.ofString "nope.py") "HEAD" dir
    let unnamed ← ends (withPreCommit [] (RevisionRange.parse preCommitName))
    let unknown ← ends (gitLines dir ["rev-parse", "NOPE"])
    let unset ← ends (gitLines dir ["config", "--get", "no.such.key"])
    return .list [ofCount chosen.length, ofCount (old.length + edited.lines.length), ofCount lines.length,
      ofCount modified.length, ofCount since.length, ofCount between.length, ofCount around.length,
      ofCount content.lines.length, ofCount absent.lines.length, ofCount (unnamed + unknown + unset)]

def interpreter : String := "python"

def printer (lines : List String) : String := joinLines (lines.map (fun l => s!"print({Quoted.render l})"))

def message (dir : Path) (i : Int) : String :=
  let file := dir.join (Path.ofString s!"mod_{i}.py")
  if i % 7 == 0 then s!"{file.render}:{i + 1}: E{i} bad\n" else s!"Found {i} errors\n"

def linter (dir : Path) (size : Int) : Run Work := do
  commitAndEdit dir 12 []
  let file := (dir.join module).render
  let program ← writeIn dir "fake.py" (printer [s!"{file}:1: E001 bad", s!"{file}:3: E002 bad", "junk"])
  let messages := (upTo size).map (message dir)
  return do
    let found := (← messages.mapM (fun m => Linting.parseLine m dir)).filterMap id
    let longest := found.foldl (fun n p => max n p.1.render.length) 0
    let (_, printed) ← quietly
      (Linting.run (.text s!"{interpreter} {program.render}") dir [module] (RevisionRange.ofText "HEAD"))
    return .list [ofCount longest, .bool (printed != "")]

def sourceCount (size : Int) : Int := max 50 (size.fdiv 100)

def configuration (dir : Path) (size : Int) : Run Work := do
  let _ ← writeIn dir "pyproject.toml" "[tool.darker]\nsrc=['a.py']\nrevision='HEAD'\n"
  let settingsFile ← writeIn dir "isort.cfg" "[isort]\nline_length=100\n"
  let moves := (upTo (2 * size)).map (fun _ => (-10 : Int))
  let sources := (upTo (sourceCount size)).map (fun i => Value.text s!"package/mod_{i}.py")
  let content := Document.ofText "import z\nimport a\n"
  let source := dir.join (Path.ofString "a.py")
  return do
    let tools ← MonadReader.read
    let levels ← Verbosity.shiftAll (.list []) (.int 30) moves
    let long ← Config.dump [("src", .list sources), ("revision", .text "v1")]
    let grammar : Options.Grammar := ⟨false, tools.sortImports.isSome, []⟩
    let settings ← Options.read grammar ["-v", "--no-skip-string-normalization", "file.py"]
    let effective ← Config.effective settings
    let written ← Config.dump effective
    let help := grammar.help tools.terminal.columns
    let near ← Imports.sort content source .none .none
    let far ← Imports.sort content source (.text settingsFile.render) (.int 100)
    let setting (key : String) : Value := (settings.lookup key).getD .none
    let firstOf (d : Document) : Run Value := do return .text (← Run.ofOption .noItem d.lines.head?)
    return .list [levels.getLast?.getD (.int 30), ofCount long.length, setting "revision", setting "log_level",
      setting "skip_string_normalization", ofCount effective.length, ofCount (effective.erase "src").length,
      ofCount written.length, ofCount settings.length, ofCount help.length, ← firstOf near, ← firstOf far]

def program (args : List String) : Run Int := Program.run "darker.__main__" args

def pipeline (dir : Path) (size : Int) : Run Work := do
  commitAndEdit dir 6 [("pyproject.toml", "[tool.black]\nline-length=88\n")]
  let file := dir.join module
  let edited := Document.ofLines ((upTo 6).map editedLine)
  let empty ← writeIn dir "empty.py" ""
  let linter ← writeIn dir "fake_linter" (printer [s!"{file.render}:1: E001 bad"])
  let chunks := (upTo size).map (fun i => (⟨2 * i + 1, ["x", "y"], ["z"]⟩ : Chunk))
  return do
    let chosen ← choose [] chunks
    let (statuses, _) ← quietly (do
      let checked ← program ["--diff", "--check", "-S", "-vv", "-L", s!"{interpreter} {linter.render}", file.render]
      let written ← program ["-i", "-v", "-c", (dir.join (Path.ofString "pyproject.toml")).render, file.render,
        empty.render]
      Program.modifyFile file edited
      let _ ← ends (program [])
      return [checked, written])
    return .list [ofCount chosen.length, .list (statuses.map .int)]

end Retouch.Workload
