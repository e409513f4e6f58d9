import Retouch.Data.Toml
import Retouch.Data.TomlText
import Retouch.Options.Reading
import Retouch.Project

/-! Configuration of a run: the project file gives settings that stand for the initial values, and the
command line is read once to find that file and once more with its settings. -/
namespace Retouch.Config

def settingsOf : Value → Except Failure Settings
  | .table entries => Verbosity.swapIn entries
  | .text s => .error (if (s.splitOn "log_level").length > 1 then .wrongKind else .lacking)
  | .list items => .error (if items.any (fun v => v.text? == some "log_level") then .wrongKind else .lacking)
  | _ => .error .wrongKind

def ofProject (project : Settings) : Except Failure Settings :=
  match (project.lookup "tool").getD (.table []) with
  | .table tools =>
    let own := (tools.lookup "darker").getD (.table [])
    if own.truthy then settingsOf own else .ok []
  | _ => .error .lacking

def load (sources : List String) : Run Settings := do
  match ← projectFile? (if sources.isEmpty then ["."] else sources) with
  | none => return []
  | some file =>
    let project ← Run.ofOption .badProject (Toml.parse? ⟨true⟩ (← Run.readText file))
    ofProject project

def effective (settings : Settings) : Except Failure Settings := Verbosity.swapIn settings

def modified (settings : Settings) : Except Failure Settings :=
  Verbosity.swapIn (settings.filter (fun e => !e.2.alike (Options.plainDefault e.1)))

def dump (settings : Settings) : Except Failure String := do
  return "[tool.darker]\n" ++ (← Toml.write settings)

def texts : Value → List String
  | .list items => items.filterMap Value.text?
  | _ => []

structure Reading where
  settings : Settings
  effective : Settings
  modified : Settings

def reserved : String := "self"

def read (args : List String) : Run Reading := do
  let sorter := (← MonadReader.read).sortImports.isSome
  let first ← Options.read ⟨false, sorter, []⟩ args
  let preset ← load (texts ((first.lookup Options.sourceKey).getD .none))
  if preset.has reserved then Run.fail .wrongKind
  let required := !((preset.lookup Options.sourceKey).getD .none).truthy
  let settings ← Options.read ⟨required, sorter, preset⟩ args
  return ⟨settings, ← effective settings, ← modified settings⟩

end Retouch.Config
