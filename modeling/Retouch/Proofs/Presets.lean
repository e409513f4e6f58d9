import Retouch.Proofs.Settling

/-! What is preset before the command line is read: the table of the project, as far as it goes, and else what is built in.
Every key starts from there, and log levels that a table gives by name start as numbers. -/
namespace Retouch.Presets
open Execution Options CommandLine Settling Planning

def builtIn : Settings :=
  [("src",.none),("revision",.text "HEAD"),("diff",.bool false),("check",.bool false),("isort",.bool false),
    ("lint",.list []),("config",.none),("log_level",.int 30),("skip_string_normalization",.none),("line_length",.none)]

inductive Shape where
  | text
  | texts
  | flag
  | number
  | level

inductive Fits : Shape → Value → Prop where
  | text (s : String) : Fits .text (.text s)
  | texts (items : List String) : Fits .texts (.list (items.map .text))
  | flag (b : Bool) : Fits .flag (.bool b)
  | number (n : Int) : Fits .number (.int n)
  | level {name : String} {n : Int} (known : Verbosity.numberOf? name = some n) : Fits .level (.text name)

def shapes : List (String × Shape) :=
  [("src",.texts),("revision",.text),("diff",.flag),("check",.flag),("isort",.flag),("lint",.texts),("config",.text),
    ("log_level",.level),("skip_string_normalization",.flag),("line_length",.number)]

structure Proper (own : Settings) : Prop where
  keyed : Keyed own
  fits : ∀ e ∈ own, ∃ shape, shapes.lookup e.1 = some shape ∧ Fits shape e.2

inductive Holds (project : Settings) : Settings → Prop where
  | toolless (none : project.lookup "tool" = none) : Holds project []
  | bare {tools} (tool : project.lookup "tool" = some (.table tools)) (none : tools.lookup "darker" = none) :
      Holds project []
  | own {tools own} (tool : project.lookup "tool" = some (.table tools))
      (held : tools.lookup "darker" = some (.table own)) : Holds project own

inductive Configured (paths : List String) (tools : Tools) (s : Session) : Settings → Session → Prop where
  | absent {t} (missing : exec (projectFile? (if paths.isEmpty then ["."] else paths)) tools s = (.ok none,t)) :
      Configured paths tools s [] t
  | found {file text project own t u}
      (found : exec (projectFile? (if paths.isEmpty then ["."] else paths)) tools s = (.ok (some file),t))
      (read : exec (Run.readText file) tools t = (.ok text,u)) (parsed : Toml.parse? ⟨true⟩ text = some project)
      (holds : Holds project own) : Configured paths tools s own u

def below (own : Settings) (key : String) : Value := ((own.lookup key).or (builtIn.lookup key)).getD .none

def levelIn (own : Settings) : Int :=
  match own.lookup "log_level" with
  | some (.text name) => (Verbosity.numberOf? name).getD 30
  | _ => 30

def lintersIn (own : Settings) : List Value :=
  match own.lookup "lint" with
  | some (.list items) => items
  | _ => []

def completed (s entries : Settings) : Settings := entries.foldl (fun s e => if s.has e.1 then s else s ++ [e]) s

theorem completedLookup (s entries : Settings) (q : String) :
    (completed s entries).lookup q = (s ++ entries).lookup q := by
  unfold completed
  induction entries generalizing s with
  | nil => simp
  | cons e entries ih =>
    obtain ⟨key,v⟩ := e
    rw [List.foldl_cons,ih]
    by_cases has : s.has key = true
    · rw [if_pos has,List.lookup_append,List.lookup_append,List.lookup_cons]
      by_cases same : q = key
      · subst same
        obtain ⟨e,member,same⟩ := List.any_eq_true.mp has
        have found : (s.lookup q).isSome = true := List.lookup_isSome_iff.mpr ⟨e,member,by rw [BEq.comm]; exact same⟩
        obtain ⟨w,held⟩ := Option.isSome_iff_exists.mp found
        rw [held]
        rfl
      · rw [beq_eq_false_iff_ne.mpr same]
    · rw [if_neg has,List.append_assoc]
      rfl

theorem foldCompleted (initial : OptionSpec → Option Value) {step : Settings → OptionSpec → Settings}
    (kept : ∀ s o, initial o = none → step s o = s)
    (added : ∀ s o v, initial o = some v → step s o = if s.has o.key then s else s ++ [(o.key,v)])
    (opts : List OptionSpec) (s : Settings) :
    opts.foldl step s = completed s (opts.filterMap (fun o => (initial o).map (fun v => (o.key,v)))) := by
  induction opts generalizing s with
  | nil => rfl
  | cons o opts ih =>
    rw [List.foldl_cons,ih]
    cases held : initial o with
    | none => rw [List.filterMap_cons_none (by rw [held]; rfl),kept s o held]
    | some v =>
      rw [List.filterMap_cons_some (by rw [held]; rfl),added s o v held]
      rfl

theorem startCompleted (g : Grammar) (helpless : g.initial? helpOption = none) : g.start =
    completed (completed [(sourceKey,(g.preset.lookup sourceKey).getD .none)]
      ((g.options.drop 1).filterMap (fun o => (g.initial? o).map (fun v => (o.key,v))))) g.preset := by
  unfold Grammar.start
  dsimp only
  rw [helpless,foldCompleted g.initial? ?kept ?added]
  case kept =>
    intro s o absent
    rw [absent]
  case added =>
    intro s o v held
    rw [held]
  rfl

def Known (entries : Settings) : Prop := ∀ e ∈ entries, builtIn.has e.1 = true

theorem knownOnly {entries : Settings} (known : Known entries) {key : String} (other : builtIn.has key = false) :
    entries.lookup key = none := by
  refine List.lookup_eq_none_iff.mpr (fun e member => bne_iff_ne.mpr ?_)
  rintro rfl
  exact absurd (known e member) (by simp [other])

theorem builtInKnown : Known builtIn := fun e member => List.any_eq_true.mpr ⟨e,member,by simp⟩

theorem startLookup {g : Grammar} (known : Known g.preset) (key : String) :
    g.start.lookup key = (builtIn.lookup key).map (fun v => (g.preset.lookup key).getD v) := by
  -- two options have no initial value, and their keys cannot be preset
  have helpless : g.initial? helpOption = none := by
    rw [Grammar.initial?,knownOnly known (by decide)]
    rfl
  have versionless : (g.preset.lookup "version").orElse (fun _ => none) = none := by
    rw [knownOnly known (by decide)]
    rfl
  have or (x : Option Value) (v : Value) : x.orElse (fun _ => some v) = some (x.getD v) := by cases x <;> rfl
  rw [startCompleted g helpless,completedLookup,List.lookup_append,completedLookup]
  simp only [Grammar.options,table,List.drop_succ_cons,List.drop_zero,List.filterMap_cons,List.filterMap_nil,
    Grammar.initial?,or,versionless,Option.map_some,Option.map_none]
  cases inside : builtIn.has key with
  | true =>
    obtain ⟨e,member,same⟩ := List.any_eq_true.mp inside
    obtain rfl := beq_iff_eq.mp same
    simp only [builtIn,List.mem_cons,List.not_mem_nil,or_false] at member
    rcases member with rfl | rfl | rfl | rfl | rfl | rfl | rfl | rfl | rfl | rfl <;> rfl
  | false =>
    rw [knownOnly known inside,knownOnly builtInKnown inside,knownOnly ?_ inside]
    · rfl
    · simp only [Known,List.cons_append,List.nil_append,List.forall_mem_cons]
      decide

structure Preset (own preset : Settings) : Prop where
  known : Known preset
  same : ∀ key, key ≠ "log_level" → preset.lookup key = own.lookup key
  level : (preset.lookup "log_level").getD (.int 30) = .int (levelIn own)

theorem properNone : Proper [] := ⟨List.nodup_nil,fun _ member => (by cases member)⟩

theorem presetNone : Preset [] [] := ⟨fun _ member => (by cases member),fun _ _ => rfl,rfl⟩

theorem properFits {own : Settings} (proper : Proper own) {key : String} {shape : Shape} {v : Value}
    (asked : shapes.lookup key = some shape) (found : own.lookup key = some v) : Fits shape v := by
  obtain ⟨before,after,rfl,_⟩ := List.lookup_eq_some_iff.mp found
  obtain ⟨shape',asked',fits⟩ := proper.fits (key,v) (by simp)
  cases asked.symm.trans asked'
  exact fits

theorem properKnown {own : Settings} (proper : Proper own) : Known own := by
  intro e member
  obtain ⟨shape,asked,_⟩ := proper.fits e member
  have inside : e.1 ∈ shapes.map Prod.fst := by
    obtain ⟨before,after,split,_⟩ := List.lookup_eq_some_iff.mp asked
    simp [split]
  exact (by decide : ∀ key ∈ shapes.map Prod.fst, builtIn.has key = true) e.1 inside

theorem presetSwapped {own : Settings} (proper : Proper own) :
    ∃ preset, Verbosity.swapIn own = .ok preset ∧ Preset own preset := by
  have known := properKnown proper
  unfold Verbosity.swapIn
  cases found : own.lookup "log_level" with
  | none =>
    refine ⟨own,rfl,known,fun _ _ => rfl,?_⟩
    rw [found,levelIn,found]
    rfl
  | some v =>
    have fits : Fits .level v := properFits proper rfl found
    cases fits with
    | @level name n number =>
      refine ⟨own.put "log_level" (.int n),?_,?_,?_,?_⟩
      · simp only [Verbosity.swapped,number]
        rfl
      · intro e member
        rcases Lookup.memPut member with ⟨same,_⟩ | ⟨_,inside⟩
        · rw [same]
          decide
        · exact known e inside
      · intro key other
        rw [Lookup.settingPut,if_neg other]
      · rw [Lookup.settingPut,if_pos rfl,levelIn,found]
        simp [number]

theorem presetHeld {project own : Settings} (holds : Holds project own) (proper : Proper own) :
    ∃ preset, Config.ofProject project = .ok preset ∧ Preset own preset := by
  cases holds with
  | toolless none => exact ⟨[],by rw [Config.ofProject,none]; rfl,presetNone⟩
  | bare tool none =>
    refine ⟨[],?_,presetNone⟩
    rw [Config.ofProject,tool]
    simp only [Option.getD_some,none]
    rfl
  | own tool held =>
    obtain ⟨preset,swapped,layer⟩ := presetSwapped proper
    cases own with
    | nil =>
      refine ⟨[],?_,presetNone⟩
      rw [Config.ofProject,tool]
      simp only [Option.getD_some,held]
      rfl
    | cons e own =>
      refine ⟨preset,?_,layer⟩
      rw [Config.ofProject,tool]
      simp only [Option.getD_some,held]
      exact swapped

theorem loadConfigured {paths : List String} {tools : Tools} {s t : Session} {own : Settings}
    (configured : Configured paths tools s own t) (proper : Proper own) :
    ∃ preset, exec (Config.load paths) tools s = (.ok preset,t) ∧ Preset own preset := by
  cases configured with
  | absent missing =>
    refine ⟨[],?_,presetNone⟩
    rw [Config.load,execBindOk missing]
    rfl
  | found found read parsed holds =>
    obtain ⟨preset,held,layer⟩ := presetHeld holds proper
    refine ⟨preset,?_,layer⟩
    rw [Config.load,execBindOk found]
    dsimp only
    rw [execBindOk read,parsed]
    exact (congrArg (fun e => exec (liftM e : Run Settings) tools t) held).trans rfl

theorem flagBelow {own : Settings} (proper : Proper own) {key : String} (asked : shapes.lookup key = some .flag)
    (inside : builtIn.lookup key = some (.bool false)) :
    ∃ b, below own key = .bool b ∧ (b = true ↔ own.lookup key = some (.bool true)) := by
  rw [below,inside]
  cases found : own.lookup key with
  | none => exact ⟨false,rfl,by simp⟩
  | some v =>
    have fits := properFits proper asked found
    cases fits with
    | flag b => exact ⟨b,rfl,by simp⟩

theorem lintersBelow {own : Settings} (proper : Proper own) : below own "lint" = .list (lintersIn own) := by
  unfold below lintersIn
  cases found : own.lookup "lint" with
  | none => rfl
  | some v =>
    have fits : Fits .texts v := properFits proper rfl found
    cases fits
    rfl

section
variable {g : Grammar} {own : Settings} (proper : Proper own) (preset : Preset own g.preset)
include preset

theorem startBelow {key : String} {v : Value} (other : key ≠ "log_level") (inside : builtIn.lookup key = some v) :
    g.start.lookup key = some (below own key) := by
  rw [startLookup preset.known,inside,below,inside,preset.same key other]
  cases own.lookup key <;> rfl

theorem startLevel : g.start.lookup "log_level" = some (.int (levelIn own)) := by
  rw [startLookup preset.known,← preset.level]
  rfl

include proper

theorem numericPreset : Numeric g := by
  intro o member effect text held
  have key : o.key = "line_length" := by
    cases kindOf member with
    | length key effect => exact key
    | _ => grind
  rw [key,preset.same _ (by decide)] at held
  have fits : Fits .number (.text text) := properFits proper rfl held
  cases fits

theorem startReady : Ready g.start := by
  refine ⟨⟨lintersIn own,?_⟩,_,startLevel preset⟩
  rw [startBelow preset (by decide) rfl,lintersBelow proper]

end

theorem sourceBelow {own preset : Settings} (proper : Proper own) (layer : Preset own preset) {paths : List String}
    (sourced : paths ≠ [] ∨ (below own "src").truthy = true) :
    pathsOr preset paths = if paths = [] then below own "src" else .list (paths.map .text) := by
  cases paths with
  | cons path paths => rfl
  | nil =>
    have truthy := sourced.resolve_left (fun filled => filled rfl)
    unfold pathsOr below at *
    rw [layer.same _ (by decide)]
    cases found : own.lookup "src" with
    | none =>
      rw [found] at truthy
      cases truthy
    | some v =>
      have fits : Fits .texts v := properFits proper rfl found
      cases fits with
      | texts items => rw [show own.lookup sourceKey = _ from found]; rfl

theorem sourceTexts (paths : List String) : Config.texts (pathsOr [] paths) = paths := by
  cases paths with
  | nil => rfl
  | cons path paths => simp [pathsOr,Config.texts,List.filterMap_map,Function.comp_def,Value.text?]

theorem unreserved {own preset : Settings} (layer : Preset own preset) : preset.has Config.reserved = false := by
  refine List.any_eq_false.mpr (fun e member same => ?_)
  have inside := layer.known e member
  rw [beq_iff_eq.mp same] at inside
  exact absurd inside (by decide)

theorem requiredBelow {own preset : Settings} (layer : Preset own preset) :
    (preset.lookup sourceKey).getD .none = below own "src" := by
  rw [sourceKey,layer.same _ (by decide),below]
  cases own.lookup "src" <;> rfl

end Retouch.Presets
