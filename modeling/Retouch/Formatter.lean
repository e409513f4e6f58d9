import Retouch.Data.Toml
import Retouch.Project

/-! The formatter, the sorter of imports, and their settings. Those of the formatter come from its table
in a configuration file, overlaid by the options of the run. The file that was read last is kept
together with the options that were overlaid on it, and a file named in the options is used once. The
sorter reads its settings from the file that was asked for, else from the root of the project. -/
namespace Retouch.Formatter

def known (key : String) : Bool := key == "line_length" || key == "skip_string_normalization"

def replaceAll (s old new : String) : String := new.intercalate (s.splitOn old)

def plainKey (key : String) : String := replaceAll (replaceAll key "--" "") "-" "_"

def settingsOf? (config : Toml.Table) : Option Settings :=
  match config.lookup "tool" with
  | none => some []
  | some (.table tools) =>
    match tools.lookup "black" with
    | none => some []
    | some (.table entries) =>
      some (entries.foldl (fun s (k, v) => Settings.put s (plainKey k) v) [])
    | some _ => none
  | some _ => none

def readSettings (file : String) : Run Settings := do
  let s ← get
  match s.tree.read s.cwd (Path.ofString file) with
  | .error fault => Run.fail (.file fault file)
  | .ok (bytes, _) =>
    let text ← Run.decode bytes
    let config ← Run.ofOption .badFormatterConfig (Toml.parse? ⟨false⟩ text)
    let settings ← Run.ofOption .lacking (settingsOf? config)
    return settings.filter (fun e => known e.1)

def settingsFile? (source : Path) (requested : Value) : Run (Option String) := do
  if requested.truthy then
    match requested with
    | .text file => return some file
    | _ => Run.fail .wrongKind
  else return (← projectFile? [source.render]).map Path.render

def hashable : Value → Bool
  | .list _ => false
  | .table _ => false
  | _ => true

def config (source : Path) (requested : Value) : Run Settings := do
  if !hashable requested then Run.fail .wrongKind
  match (← get).formatterConfig with
  | some ((p, v), settings) =>
    if p == source && v.alike requested then return settings else fresh
  | none => fresh
where
  fresh : Run Settings := do
    let settings ← match ← settingsFile? source requested with
      | none => pure []
      | some file => readSettings file
    modify fun s => { s with formatterConfig := some ((source, requested), settings) }
    return settings

def modeOf (settings : Settings) : FormatMode :=
  ⟨(settings.lookup "line_length").getD (.int 88),
    match settings.lookup "skip_string_normalization" with
    | some skip => !skip.truthy
    | none => true⟩

/-- Formats a text. Returns the options without the configuration file they named, and leaves them
overlaid on the kept settings. -/
def format (source : Path) (content : Document) (options : Settings) : Run (Document × Settings) := do
  let left := Settings.erase options "config"
  let requested := (options.lookup "config").getD .none
  let combined := Settings.overlay (← config source requested) left
  modify fun s => { s with formatterConfig := some ((source, requested), combined) }
  let mode := modeOf combined
  Run.record (.format mode content.text)
  match (← read).format mode content.text with
  | .ok text => return (Document.ofText text, left)
  | .error reason => Run.fail (.refused reason)

end Retouch.Formatter

namespace Retouch.Imports

def settingsFor (source : Path) (requested lineLength : Value) : Run Settings := do
  let place ← if requested.truthy then pure ("settings_file", requested)
    else pure ("settings_path", .text (← projectRoot [source.render]).render)
  return place :: (if lineLength.truthy then [("line_length", lineLength)] else [])

def sort (content : Document) (source : Path) (requested lineLength : Value) : Run Document := do
  let settings ← settingsFor source requested lineLength
  let shown := settings.map (fun (k, v) => s!"{k}={v.shown}")
  Run.debug .importSorting ("isort.code(code=..., " ++ ", ".intercalate shown ++ ")")
  match (← read).sortImports with
  | none => Run.fail .lacking
  | some sorter =>
    Run.record (.sortImports settings content.text)
    match sorter settings content.text with
    | .ok text => return Document.ofText text
    | .error reason => Run.fail (.refused reason)

end Retouch.Imports
