import Retouch.Proofs.Presets

/-! The three layers of the settings: the command line stands over the table of the project, and that over what is built in.
Paths, texts, numbers and choices come from the uppermost layer that gives them; flags, linters and the log level go on from
what the layers below give. -/
namespace Retouch.Layers
open Execution Options CommandLine Settling Planning Presets

def levelNames : List (String × Int) :=
  [("NOTSET",0),("DEBUG",10),("INFO",20),("WARNING",30),("ERROR",40),("CRITICAL",50)]

structure Settled (own : Settings) (acts : List Act) (paths : List String) (settings : Settings) : Prop where
  source : settings.lookup "src" = some (if paths = [] then below own "src" else .list (paths.map .text))
  revision : settings.lookup "revision" =
    some (((argumentsOf "--revision" acts).getLast?.map .text).getD (below own "revision"))
  config : settings.lookup "config" = some (((argumentsOf "--config" acts).getLast?.map .text).getD (below own "config"))
  length : settings.lookup "line_length" =
    some ((((argumentsOf "--line-length" acts).getLast?.bind parseInteger?).map .int).getD (below own "line_length"))
  skip : settings.lookup "skip_string_normalization" =
    some (((skips acts).getLast?.map .bool).getD (below own "skip_string_normalization"))
  flags : ∀ key ∈ ["diff","check","isort"], ∃ b, settings.lookup key = some (.bool b) ∧
    (b = true ↔ argumentsOf ("--" ++ key) acts ≠ [] ∨ own.lookup key = some (.bool true))
  linters : settings.lookup "lint" = some (.list (lintersIn own ++ (argumentsOf "--lint" acts).map .text))
  level : settings.lookup "log_level" = some (.int (moved (levelIn own) (moves acts)))
  only : ∀ key, builtIn.lookup key = none → settings.lookup key = none

structure Layered (own : Settings) (acts : List Act) (paths : List String) (r : Config.Reading) : Prop where
  settled : Settled own acts paths r.settings
  keyed : Keyed r.settings ∧ Keyed r.effective ∧ Keyed r.modified
  effective : ∀ key, key ≠ "log_level" → r.effective.lookup key = r.settings.lookup key
  shown : ∃ name, (name,moved (levelIn own) (moves acts)) ∈ levelNames ∧ r.effective.lookup "log_level" = some (.text name)
  modified : ∀ key, (r.settings.lookup key = builtIn.lookup key → r.modified.lookup key = none) ∧
    (r.settings.lookup key ≠ builtIn.lookup key → r.modified.lookup key = r.effective.lookup key)

theorem movedShown {n : Int} (start : n ∈ levelNames.map Prod.snd) (acts : List Act) :
    moved n (moves acts) ∈ levelNames.map Prod.snd := by
  have step : ∀ m ∈ [(-10 : Int),10], ∀ n ∈ levelNames.map Prod.snd,
      Verbosity.clamp (n + m) ∈ levelNames.map Prod.snd := by
    decide
  have each : ∀ m ∈ moves acts, m ∈ [(-10 : Int),10] := by
    intro m member
    obtain ⟨a,_,choice⟩ := List.mem_filterMap.mp member
    unfold moveOf chosen at choice
    grind
  exact List.foldlRecOn _ _ start (fun n shown m member => step m (each m member) n shown)

theorem levelShown {own : Settings} (proper : Proper own) : levelIn own ∈ levelNames.map Prod.snd := by
  unfold levelIn
  cases found : own.lookup "log_level" with
  | none => decide
  | some v =>
    have fits : Fits .level v := properFits proper rfl found
    cases fits with
    | @level name n number =>
      obtain ⟨before,after,split,_⟩ := List.lookup_eq_some_iff.mp number
      simp only [number,Option.getD_some]
      exact (by decide : ∀ e ∈ Verbosity.names,e.2 ∈ levelNames.map Prod.snd) (name,n) (by simp [split])

theorem swapShown {settings : Settings} {name : String} {n : Int} (held : settings.lookup "log_level" = some (.int n))
    (shown : (name,n) ∈ levelNames) : Verbosity.swapIn settings = .ok (settings.put "log_level" (.text name)) := by
  have swapped : Verbosity.swapped (.int n) = .ok (.text name) := by
    simp only [levelNames,List.mem_cons,Prod.mk.injEq,List.not_mem_nil,or_false] at shown
    rcases shown with ⟨rfl,rfl⟩ | ⟨rfl,rfl⟩ | ⟨rfl,rfl⟩ | ⟨rfl,rfl⟩ | ⟨rfl,rfl⟩ | ⟨rfl,rfl⟩ <;> rfl
  unfold Verbosity.swapIn
  rw [held]
  simp only [swapped]
  rfl

inductive Comparable : Value → Value → Prop where
  | none (v : Value) : Comparable v .none
  | text (s t : String) : Comparable (.text s) (.text t)
  | bool (b c : Bool) : Comparable (.bool b) (.bool c)
  | int (m n : Int) : Comparable (.int m) (.int n)
  | list (items : List Value) : Comparable (.list items) (.list [])

theorem alikeIff {v d : Value} (comparable : Comparable v d) : v.alike d = true ↔ v = d := by
  cases comparable with
  | none v =>
    constructor
    · exact Lookup.alikeNone
    · intro same
      subst same
      rfl
  | text s t => simp [Value.alike]
  | bool b c => cases b <;> cases c <;> simp [Value.alike,Value.number?]
  | int m n => simp [Value.alike,Value.number?]
  | list items => cases items <;> simp [Value.alike,Value.alikeAll]

theorem defaultBuiltIn : ∀ e ∈ builtIn, plainDefault e.1 = e.2 := by
  simp only [builtIn,List.forall_mem_cons]
  exact ⟨rfl,rfl,rfl,rfl,rfl,rfl,rfl,rfl,rfl,rfl,List.forall_mem_nil _⟩

theorem changedLookup {settings : Settings} (keyed : Keyed settings)
    (comparable : ∀ key v, settings.lookup key = some v → ∃ d, (key,d) ∈ builtIn ∧ Comparable v d) (key : String) :
    let changed := settings.filter (fun e => !e.2.alike (plainDefault e.1))
    (settings.lookup key = builtIn.lookup key → changed.lookup key = none) ∧
      (settings.lookup key ≠ builtIn.lookup key → changed.lookup key = settings.lookup key) := by
  dsimp only
  rw [Lookup.lookupFiltered keyed]
  cases found : settings.lookup key with
  | none => exact ⟨fun _ => rfl,fun _ => rfl⟩
  | some v =>
    obtain ⟨d,member,same⟩ := comparable key v found
    have default : builtIn.lookup key = some d := Lookup.foundOnly (by decide) member
    have alike := alikeIff same
    rw [default]
    simp only [Option.filter,defaultBuiltIn _ member,Option.some.injEq]
    constructor
    · intro equal
      rw [alike.mpr equal]
      rfl
    · intro differs
      rw [Bool.eq_false_iff.mpr (fun h => differs (congrArg some (alike.mp h)))]
      rfl

theorem modifiedShown {settings : Settings} {name : String} {n : Int} (keyed : Keyed settings)
    (held : settings.lookup "log_level" = some (.int n)) (shown : (name,n) ∈ levelNames)
    (comparable : ∀ key v, settings.lookup key = some v → ∃ d, (key,d) ∈ builtIn ∧ Comparable v d) :
    ∃ modified, Config.modified settings = .ok modified ∧ Keyed modified ∧
      ∀ key, (settings.lookup key = builtIn.lookup key → modified.lookup key = none) ∧
        (settings.lookup key ≠ builtIn.lookup key →
          modified.lookup key = (settings.put "log_level" (.text name)).lookup key) := by
  have left := changedLookup keyed comparable
  dsimp only at left
  have keyed' : Keyed (settings.filter (fun e => !e.2.alike (plainDefault e.1))) :=
    (List.filter_sublist.map _).nodup keyed
  unfold Config.modified
  generalize settings.filter (fun e => !e.2.alike (plainDefault e.1)) = changed at left keyed'
  -- a log level as built in is taken away, so no name is put for it
  by_cases plain : settings.lookup "log_level" = builtIn.lookup "log_level"
  · have gone := (left "log_level").1 plain
    refine ⟨changed,by rw [Verbosity.swapIn,gone],keyed',fun key => ⟨(left key).1,fun differs => ?_⟩⟩
    have other : key ≠ "log_level" := by
      intro same
      subst same
      exact differs plain
    rw [(left key).2 differs,Lookup.settingPut,if_neg other]
  · have kept := (left "log_level").2 plain
    refine ⟨Settings.put changed "log_level" (.text name),swapShown (kept.trans held) shown,Lookup.keysPut _ _ keyed',?_⟩
    intro key
    simp only [Lookup.settingPut]
    by_cases same : key = "log_level"
    · subst same
      exact ⟨fun equal => absurd equal plain,fun _ => rfl⟩
    · simp only [if_neg same]
      exact left key

theorem actKnown {sorter : Bool} {a : Act} (known : a.1 ∈ table sorter) (runnable : Runnable a) :
    builtIn.has a.1.key = true := by
  cases kindOf known with
  | help key effect => exact absurd effect runnable.helpless
  | version key effect => exact absurd effect runnable.versionless
  | text key effect => rcases key with key | key <;> rw [key] <;> decide
  | flag key effect => rcases key with key | key | key <;> rw [key] <;> decide
  | linter key effect => rw [key]; decide
  | level key effect move => rw [key]; decide
  | skip key effect choice => rw [key]; decide
  | length key effect => rw [key]; decide

theorem besideSource {settings : Settings} {key : String} (other : key ≠ "src") {v : Value} :
    (settings.put sourceKey v).lookup key = settings.lookup key := by
  rw [Lookup.settingPut]
  exact if_neg other

section
variable {g : Grammar} {own : Settings} (proper : Proper own) (preset : Preset own g.preset) {acts : List Act}
  (known : ∀ a ∈ acts, a.1 ∈ g.options) {left : Settings} (run : perform g.start acts = .ok left)
include preset known run

theorem otherLayered {key : String} (outside : builtIn.lookup key = none) : left.lookup key = none := by
  have unknown : builtIn.has key = false := by
    refine List.any_eq_false.mpr (fun e member => ?_)
    have apart := List.lookup_eq_none_iff.mp outside e member
    rw [bne_iff_ne] at apart
    simpa using apart.symm
  have apart : ∀ a ∈ acts, a.1.key ≠ key := by
    intro a member same
    have inside := actKnown (known a member) (performRunnable run a member)
    rw [same,unknown] at inside
    cases inside
  rw [otherSettled apart run,startLookup preset.known,outside]
  rfl

include proper

theorem flagLayered {key : String} (flag : key = "diff" ∨ key = "check" ∨ key = "isort") :
    ∃ b, left.lookup key = some (.bool b) ∧
      (b = true ↔ argumentsOf ("--" ++ key) acts ≠ [] ∨ own.lookup key = some (.bool true)) := by
  have asked : shapes.lookup key = some .flag := by rcases flag with rfl | rfl | rfl <;> rfl
  have inside : builtIn.lookup key = some (.bool false) := by rcases flag with rfl | rfl | rfl <;> rfl
  have pair : (key,"--" ++ key) ∈ longNames := by rcases flag with rfl | rfl | rfl <;> decide
  have other : key ≠ "log_level" := by rcases flag with rfl | rfl | rfl <;> decide
  obtain ⟨b,held,given⟩ := flagBelow proper asked inside
  have start := startBelow preset other inside
  rw [held] at start
  refine ⟨_,flagSettled known run pair flag start,?_⟩
  simp [given,or_comm]

theorem performSettled {paths : List String} (sourced : paths ≠ [] ∨ (below own "src").truthy = true) :
    Settled own acts paths (left.put sourceKey (pathsOr g.preset paths)) where
  source := by
    rw [sourceBelow proper preset sourced,Lookup.settingPut]
    exact if_pos rfl
  revision := by
    rw [besideSource (by decide)]
    exact textSettled known run (by decide) (.inl rfl) (startBelow preset (by decide) rfl)
  config := by
    rw [besideSource (by decide)]
    exact textSettled known run (by decide) (.inr rfl) (startBelow preset (by decide) rfl)
  length := by
    rw [besideSource (by decide)]
    exact lengthSettled known run (startBelow preset (by decide) rfl)
  skip := by
    rw [besideSource (by decide)]
    exact skipSettled known run (startBelow preset (by decide) rfl)
  flags := by
    intro key member
    have flag : key = "diff" ∨ key = "check" ∨ key = "isort" := by simpa using member
    have other : key ≠ "src" := by rcases flag with rfl | rfl | rfl <;> decide
    rw [besideSource other]
    exact flagLayered proper preset known run flag
  linters := by
    have held : g.start.lookup "lint" = some (below own "lint") := startBelow preset (by decide) rfl
    rw [lintersBelow proper] at held
    rw [besideSource (by decide)]
    exact lintersSettled known run held
  level := by
    rw [besideSource (by decide)]
    exact levelSettled known run (startLevel preset)
  only := by
    intro key outside
    have other : key ≠ "src" := by
      intro same
      rw [same] at outside
      cases outside
    rw [besideSource other]
    exact otherLayered preset known run outside

end

section
variable {own : Settings} {acts : List Act} {paths : List String} {settings : Settings}
  (settled : Settled own acts paths settings)
include settled

theorem revisionText (proper : Proper own) : ∃ text, settings.lookup "revision" = some (.text text) := by
  rw [settled.revision]
  cases (argumentsOf "--revision" acts).getLast? with
  | some text => exact ⟨text,rfl⟩
  | none =>
    unfold below
    cases found : own.lookup "revision" with
    | none => exact ⟨"HEAD",rfl⟩
    | some v =>
      have fits : Fits .text v := properFits proper rfl found
      cases fits with
      | text text => exact ⟨text,rfl⟩

theorem settledComparable (proper : Proper own) {key : String} {v : Value} (found : settings.lookup key = some v) :
    ∃ d, (key,d) ∈ builtIn ∧ Comparable v d := by
  have flag (key : String) (member : key ∈ ["diff","check","isort"]) (v : Value) (found : settings.lookup key = some v) :
      Comparable v (.bool false) := by
    obtain ⟨b,held,_⟩ := settled.flags key member
    cases found.symm.trans held
    exact .bool b false
  have revision (v : Value) (found : settings.lookup "revision" = some v) : Comparable v (.text "HEAD") := by
    obtain ⟨text,held⟩ := revisionText settled proper
    cases found.symm.trans held
    exact .text text "HEAD"
  have linters (v : Value) (found : settings.lookup "lint" = some v) : Comparable v (.list []) := by
    cases found.symm.trans settled.linters
    exact .list _
  have level (v : Value) (found : settings.lookup "log_level" = some v) : Comparable v (.int 30) := by
    cases found.symm.trans settled.level
    exact .int _ 30
  have each : ∀ e ∈ builtIn, ∀ v, settings.lookup e.1 = some v → Comparable v e.2 := by
    simp only [builtIn,List.forall_mem_cons]
    exact ⟨fun v _ => .none v,revision,flag "diff" (by simp),flag "check" (by simp),flag "isort" (by simp),linters,
      fun v _ => .none v,level,fun v _ => .none v,fun v _ => .none v,List.forall_mem_nil _⟩
  cases default : builtIn.lookup key with
  | none =>
    rw [settled.only key default] at found
    cases found
  | some d =>
    obtain ⟨before,after,split,_⟩ := List.lookup_eq_some_iff.mp default
    have member : (key,d) ∈ builtIn := by simp [split]
    exact ⟨d,member,each _ member v found⟩

theorem readingLayered (proper : Proper own) (keyed : Keyed settings) :
    ∃ all changed, Config.effective settings = .ok all ∧ Config.modified settings = .ok changed ∧
      Layered own acts paths ⟨settings,all,changed⟩ := by
  obtain ⟨⟨name,n⟩,shown,same⟩ := List.mem_map.mp (movedShown (levelShown proper) acts)
  obtain rfl : n = _ := same
  obtain ⟨modified,swapped,keyed',changed⟩ := modifiedShown keyed settled.level shown
    (fun key v found => settledComparable settled proper found)
  refine ⟨settings.put "log_level" (.text name),modified,swapShown settled.level shown,swapped,settled,
    ⟨keyed,Lookup.keysPut _ _ keyed,keyed'⟩,?_,⟨name,shown,?_⟩,changed⟩
  · intro key other
    rw [Lookup.settingPut,if_neg other]
  · rw [Lookup.settingPut,if_pos rfl]

end

abbrev namesFor (tools : Tools) : List (String × OptionSpec) := Grammar.names ⟨false,tools.sortImports.isSome,[]⟩

theorem lineOptions {tools : Tools} {phase : Phase} {args : List String} {acts : List Act} {paths : List String}
    (line : Line (namesFor tools) phase args acts paths) : ∀ a ∈ acts, a.1 ∈ table tools.sortImports.isSome := by
  intro a member
  obtain ⟨name,inside⟩ := lineNamed line a member
  obtain ⟨o,listed,named⟩ := List.mem_flatMap.mp inside
  obtain ⟨_,_,same⟩ := List.mem_map.mp named
  cases same
  exact listed

section
variable {args : List String} {tools : Tools} {s : Session}

theorem lineAccepted {acts : List Act} {paths : List String} {own : Settings} {t : Session}
    (line : Line (namesFor tools) .before args acts paths) (runnable : ∀ a ∈ acts, Runnable a)
    (configured : Configured paths tools s own t) (proper : Proper own)
    (sourced : paths ≠ [] ∨ (below own "src").truthy = true) :
    ∃ r, exec (Config.read args) tools s = (.ok r,t) ∧ Layered own acts paths r := by
  have known := lineOptions line
  let plain : Grammar := ⟨false,tools.sortImports.isSome,[]⟩
  obtain ⟨first,run⟩ := performRuns known (startReady (g := plain) properNone presetNone) runnable
  have asked := (evaluatedLine (numericPreset properNone presetNone)).mpr ⟨acts,paths,first,line,run,nofun,rfl⟩
  obtain ⟨preset,loaded,layer⟩ := loadConfigured configured proper
  let g : Grammar := ⟨!((preset.lookup sourceKey).getD .none).truthy,tools.sortImports.isSome,preset⟩
  obtain ⟨second,run'⟩ := performRuns known (startReady (g := g) proper layer) runnable
  have required : g.sourceRequired = true → paths ≠ [] := by
    intro required
    refine sourced.resolve_right (fun truthy => ?_)
    rw [← requiredBelow layer] at truthy
    simp [g,truthy] at required
  have evaluated := (evaluatedLine (g := g) (numericPreset proper layer)).mpr ⟨acts,paths,second,line,run',required,rfl⟩
  obtain ⟨all,changed,effective,modified,layered⟩ := readingLayered (performSettled proper layer known run' sourced) proper
    (keyedEvaluated evaluated)
  refine ⟨_,configReadsWith asked ?_ (unreserved layer) evaluated effective modified,layered⟩
  rw [Lookup.settingPut,if_pos rfl,Option.getD_some,sourceTexts]
  exact loaded

theorem readAccepted {r : Config.Reading} {u : Session} (run : exec (Config.read args) tools s = (.ok r,u)) :
    ∃ acts paths, Line (namesFor tools) .before args acts paths ∧ (∀ a ∈ acts, Runnable a) ∧
      ∀ own t, Configured paths tools s own t → Proper own → paths ≠ [] ∨ (below own "src").truthy = true := by
  rw [Config.read,execBindOk (execRead tools s)] at run
  rcases execBindCases run with ⟨_,_,impossible⟩ | ⟨first,_,asked,rest⟩
  · cases impossible
  obtain ⟨evaluated,rfl⟩ := optionsRead asked
  obtain ⟨acts,paths,left,line,performed,_,rfl⟩ := (evaluatedLine (numericPreset properNone presetNone)).mp evaluated
  refine ⟨acts,paths,line,performRunnable performed,fun own t configured proper => ?_⟩
  obtain ⟨preset,loaded,layer⟩ := loadConfigured configured proper
  rw [Lookup.settingPut,if_pos rfl,Option.getD_some,sourceTexts,execBindOk loaded] at rest
  dsimp only at rest
  rw [unreserved layer,if_neg (by simp)] at rest
  rcases execBindCases rest with ⟨_,_,impossible⟩ | ⟨settings,_,again,_⟩
  · cases impossible
  obtain ⟨acts',paths',left',line',_,required,_⟩ := (evaluatedLine (numericPreset proper layer)).mp (optionsRead again).1
  obtain ⟨_,rfl⟩ := lineUnique line line'
  rw [requiredBelow layer] at required
  cases truthy : (below own "src").truthy with
  | true => exact .inr rfl
  | false => exact .inl (required (by simp [truthy]))

end

theorem settingsLayered (args : List String) (tools : Tools) (s : Session) :
    (∀ r t, exec (Config.read args) tools s = (.ok r,t) → ∃ acts paths, Line (namesFor tools) .before args acts paths) ∧
    ∀ acts paths own t, Line (namesFor tools) .before args acts paths → Configured paths tools s own t → Proper own →
      ((∃ r, exec (Config.read args) tools s = (.ok r,t)) ↔
        (∀ a ∈ acts, Runnable a) ∧ (paths ≠ [] ∨ (below own "src").truthy = true)) ∧
      ∀ r u, exec (Config.read args) tools s = (.ok r,u) → u = t ∧ Layered own acts paths r := by
  constructor
  · intro r t run
    obtain ⟨acts,paths,line,_⟩ := readAccepted run
    exact ⟨acts,paths,line⟩
  intro acts paths own t line configured proper
  have conditions {r : Config.Reading} {u : Session} (run : exec (Config.read args) tools s = (.ok r,u)) :
      (∀ a ∈ acts, Runnable a) ∧ (paths ≠ [] ∨ (below own "src").truthy = true) := by
    -- the line that was read is the given one
    obtain ⟨acts',paths',line',runnable,sourced⟩ := readAccepted run
    obtain ⟨rfl,rfl⟩ := lineUnique line line'
    exact ⟨runnable,sourced own t configured proper⟩
  have accepted (runnable : ∀ a ∈ acts, Runnable a) (sourced : paths ≠ [] ∨ (below own "src").truthy = true) :=
    lineAccepted line runnable configured proper sourced
  refine ⟨⟨fun run => conditions run.choose_spec,fun given => ?_⟩,fun r u run => ?_⟩
  · obtain ⟨r,run,_⟩ := accepted given.1 given.2
    exact ⟨r,run⟩
  · obtain ⟨runnable,sourced⟩ := conditions run
    obtain ⟨r',run',layered⟩ := accepted runnable sourced
    cases run.symm.trans run'
    exact ⟨rfl,layered⟩

def tableTools : Tools where
  git _ := ⟨"".toUTF8,0⟩
  format _ text := .ok text
  sortImports := none
  objection _ _ _ := none
  lint _ _ := "".toUTF8
  environment := []
  terminal := ⟨80,false,none⟩

def tableText : String := "[tool.darker]\nrevision = \"main\"\nlint = [\"pylint\"]\nlog_level = \"INFO\"\n"

def tableSession : Session where
  tree := ⟨[(["r"],.directory),(["r","a.py"],.file "".toUTF8 0),(["r","pyproject.toml"],.file tableText.toUTF8 0)]⟩
  cwd := ⟨.root,["r"]⟩
  log := #[]
  out := ""
  err := ""
  events := #[]
  console := none
  verified := 0
  linted := 0
  formatterConfig := none
  comparison := none
  projectRoots := []

def tableOwn : Settings := [("revision",.text "main"),("lint",.list [.text "pylint"]),("log_level",.text "INFO")]

def optionNamed (name : String) : OptionSpec := ((namesFor tableTools).lookup name).getD helpOption

def tableActs : List Act :=
  [(optionNamed "-v",""),(optionNamed "-L","mypy"),(optionNamed "--revision","HEAD~1"),(optionNamed "-q","")]

theorem tableConfigured : ∃ t, Configured ["a.py"] tableTools tableSession tableOwn t := by
  have found := @execOk _ (projectFile? ["a.py"]) tableTools tableSession (some ⟨.root,["r","pyproject.toml"]⟩)
    (by decide +kernel)
  have read := @execOk _ (Run.readText ⟨.root,["r","pyproject.toml"]⟩) tableTools
    (exec (projectFile? ["a.py"]) tableTools tableSession).2 tableText (by decide +kernel)
  have parsed : Toml.parse? ⟨true⟩ tableText = some [("tool",.table [("darker",.table tableOwn)])] := by cbv
  exact ⟨_,.found found read parsed (.own rfl rfl)⟩

theorem tableLine :
    Line (namesFor tableTools) .before ["-vLmypy","--rev=HEAD~1","-q","a.py"] tableActs ["a.py"] := by
  have letters : Group (namesFor tableTools) "-vLmypy" [(optionNamed "-v",""),(optionNamed "-L","mypy")] none := by
    have spells : Spelling.Spells (namesFor tableTools) "-vLmypy" (optionNamed "-v") "-v" (some "Lmypy") :=
      .letter rfl rfl (by decide)
    exact .joined spells rfl (by decide +kernel) (by decide) (.letter rfl rfl (.argument rfl))
  have cut : Group (namesFor tableTools) "--rev=HEAD~1" [(optionNamed "--revision","HEAD~1")] none := by
    have only : Spelling.Only (namesFor tableTools) "--rev" "--revision" (optionNamed "--revision") :=
      ⟨Spelling.findNamed.mp rfl,by decide +kernel,by decide +kernel⟩
    exact .attached (.cutValued ⟨rfl,by decide⟩ rfl (by decide +kernel) only) rfl
  have last : Line (namesFor tableTools) .before ["a.py"] [] ["a.py"] := .path nofun (.plain (by decide +kernel)) .done
  exact .option letters (.option cut (.option (.plain (.name rfl) (.flag rfl)) last))

theorem tableProper : Proper tableOwn := by
  refine ⟨(by decide : (tableOwn.map Prod.fst).Nodup),?_⟩
  simp only [tableOwn,List.forall_mem_cons]
  exact ⟨⟨.text,rfl,.text _⟩,⟨.texts,rfl,.texts ["pylint"]⟩,⟨.level,rfl,.level rfl⟩,nofun⟩

theorem tableUnderLine : ∃ r t, exec (Config.read ["-vLmypy","--rev=HEAD~1","-q","a.py"]) tableTools tableSession = (.ok r,t) ∧
    r.settings.lookup "revision" = some (.text "HEAD~1") ∧
    r.settings.lookup "lint" = some (.list [.text "pylint",.text "mypy"]) ∧
    r.modified.lookup "log_level" = some (.text "INFO") := by
  obtain ⟨t,configured⟩ := tableConfigured
  obtain ⟨read,layers⟩ := (settingsLayered ["-vLmypy","--rev=HEAD~1","-q","a.py"] tableTools tableSession).2 _ _ _ _ tableLine
    configured tableProper
  have runnable : ∀ a ∈ tableActs, Runnable a := by
    simp only [tableActs,List.forall_mem_cons]
    exact ⟨⟨nofun,nofun,nofun,nofun⟩,⟨nofun,nofun,fun _ => by decide,nofun⟩,⟨nofun,nofun,fun _ => by decide,nofun⟩,
      ⟨nofun,nofun,nofun,nofun⟩,nofun⟩
  obtain ⟨r,run⟩ := read.mpr ⟨runnable,.inl (by simp)⟩
  have layered := (layers r t run).2
  have level : r.settings.lookup "log_level" = some (.int 20) := layered.settled.level
  obtain ⟨name,shown,effective⟩ := layered.shown
  have info : name = "INFO" := by
    have named : (name,(20 : Int)) ∈ levelNames := shown
    simpa [levelNames] using named
  refine ⟨r,t,run,layered.settled.revision,layered.settled.linters,?_⟩
  rw [(layered.modified "log_level").2 (by rw [level]; nofun),effective,info]

end Retouch.Layers
