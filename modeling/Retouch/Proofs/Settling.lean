import Retouch.Proofs.CommandLine

/-! What the options of a command line leave in the settings. Texts, numbers and choices are those given last, flags
stay set, linters are added at the end, and the log level moves within its bounds. An option acts on its own key only, so
each key is settled by the options for it, whatever stands between them. -/
namespace Retouch.Settling
open Execution Options CommandLine

def argumentsOf (name : String) (acts : List Act) : List String :=
  (acts.filter (fun a => a.1.names.contains name)).map Prod.snd

def chosen (first second : String × α) (o : OptionSpec) : Option α :=
  if o.names.contains first.1 then some first.2 else if o.names.contains second.1 then some second.2 else none

def moveOf : OptionSpec → Option Int := chosen ("--verbose",-10) ("--quiet",10)

def skipOf : OptionSpec → Option Bool := chosen ("--skip-string-normalization",true) ("--no-skip-string-normalization",false)

def moves (acts : List Act) : List Int := acts.filterMap (fun a => moveOf a.1)

def skips (acts : List Act) : List Bool := acts.filterMap (fun a => skipOf a.1)

def moved (level : Int) (steps : List Int) : Int := steps.foldl (fun n step => Verbosity.clamp (n + step)) level

structure Runnable (a : Act) : Prop where
  helpless : a.1.effect ≠ .help
  versionless : a.1.effect ≠ .version
  placed : a.1.effect.takesArgument = true → a.2 ≠ separatorText
  numeric : a.1.effect = .storeInteger → ∃ n, parseInteger? a.2 = some n

inductive Kind (o : OptionSpec) : Prop where
  | help (key : o.key = "help") (effect : o.effect = .help)
  | version (key : o.key = "version") (effect : o.effect = .version)
  | text (key : o.key = "revision" ∨ o.key = "config") (effect : o.effect = .store)
  | flag (key : o.key = "diff" ∨ o.key = "check" ∨ o.key = "isort") (effect : o.effect = .assign (.bool true))
  | linter (key : o.key = "lint") (effect : o.effect = .append)
  | level {n} (key : o.key = "log_level") (effect : o.effect = .shift n) (move : moveOf o = some n)
  | skip {b} (key : o.key = "skip_string_normalization") (effect : o.effect = .assign (.bool b)) (choice : skipOf o = some b)
  | length (key : o.key = "line_length") (effect : o.effect = .storeInteger)

theorem kindOf {sorter : Bool} {o : OptionSpec} (member : o ∈ table sorter) : Kind o := by
  simp only [table,List.mem_cons,List.not_mem_nil,or_false] at member
  rcases member with rfl | rfl | rfl | rfl | rfl | rfl | rfl | rfl | rfl | rfl | rfl | rfl | rfl
  · exact .help rfl rfl
  · exact .text (.inl rfl) rfl
  · exact .flag (.inl rfl) rfl
  · exact .flag (.inr (.inl rfl)) rfl
  · exact .flag (.inr (.inr rfl)) rfl
  · exact .linter rfl rfl
  · exact .text (.inr rfl) rfl
  · exact .level rfl rfl rfl
  · exact .level rfl rfl rfl
  · exact .version rfl rfl
  · exact .skip rfl rfl rfl
  · exact .skip rfl rfl rfl
  · exact .length rfl rfl

def longNames : List (String × String) :=
  [("revision","--revision"),("config","--config"),("diff","--diff"),("check","--check"),("isort","--isort"),
    ("lint","--lint"),("line_length","--line-length")]

theorem keyNamed {sorter : Bool} : ∀ o ∈ table sorter, ∀ e ∈ longNames, (o.key == e.1) = o.names.contains e.2 := by
  cases sorter <;> decide +kernel

theorem keyMoves {sorter : Bool} : ∀ o ∈ table sorter, (o.key == "log_level") = (moveOf o).isSome := by
  cases sorter <;> decide +kernel

theorem keySkips {sorter : Bool} : ∀ o ∈ table sorter, (o.key == "skip_string_normalization") = (skipOf o).isSome := by
  cases sorter <;> decide +kernel

section
variable {settings : Settings} {o : OptionSpec} {argument : String}

theorem actAssigned {v : Value} (effect : o.effect = .assign v) : act settings o argument = .ok (settings.put o.key v) := by
  simp [act,effect,Effect.takesArgument]

theorem actMoved {n level : Int} (effect : o.effect = .shift n) (held : settings.lookup o.key = some (.int level)) :
    act settings o argument = .ok (settings.put o.key (.int (Verbosity.clamp (level + n)))) := by
  simp [act,effect,Effect.takesArgument,held,Verbosity.shift]

section
variable (placed : argument ≠ separatorText)
include placed

theorem actStored (effect : o.effect = .store) : act settings o argument = .ok (settings.put o.key (.text argument)) := by
  simp [act,effect,placed]

theorem actNumbered {n : Int} (effect : o.effect = .storeInteger) (parsed : parseInteger? argument = some n) :
    act settings o argument = .ok (settings.put o.key (.int n)) := by
  simp [act,effect,placed,integer,parsed,Except.map]

theorem actAdded {items : List Value} (effect : o.effect = .append) (held : settings.lookup o.key = some (.list items)) :
    act settings o argument = .ok (settings.put o.key (.list (items ++ [.text argument]))) := by
  simp [act,effect,placed,held]

end

end

theorem actRunnable {settings left : Settings} {a : Act} (run : act settings a.1 a.2 = .ok left) : Runnable a := by
  constructor
  · intro effect
    simp [act,effect,Effect.takesArgument] at run
  · intro effect
    simp [act,effect,Effect.takesArgument] at run
  · intro takes misplaced
    simp [act,takes,misplaced] at run
  · intro effect
    cases parsed : parseInteger? a.2 with
    | some n => exact ⟨n,rfl⟩
    | none =>
      unfold act at run
      dsimp only at run
      split at run
      · cases run
      · simp [effect,integer,parsed,Except.map] at run

structure Ready (settings : Settings) : Prop where
  linters : ∃ items, settings.lookup "lint" = some (.list items)
  level : ∃ n, settings.lookup "log_level" = some (.int n)

theorem readyOther {settings : Settings} (ready : Ready settings) {key : String} (linters : key ≠ "lint")
    (level : key ≠ "log_level") (v : Value) : Ready (settings.put key v) := by
  constructor
  · rw [Lookup.settingPut,if_neg linters.symm]
    exact ready.linters
  · rw [Lookup.settingPut,if_neg level.symm]
    exact ready.level

theorem readyLinters {settings : Settings} (ready : Ready settings) (items : List Value) :
    Ready (settings.put "lint" (.list items)) := by
  constructor
  · exact ⟨items,by simp [Lookup.settingPut]⟩
  · rw [Lookup.settingPut,if_neg (by decide)]
    exact ready.level

theorem readyLevel {settings : Settings} (ready : Ready settings) (n : Int) :
    Ready (settings.put "log_level" (.int n)) := by
  constructor
  · rw [Lookup.settingPut,if_neg (by decide)]
    exact ready.linters
  · exact ⟨n,by simp [Lookup.settingPut]⟩

section
variable {sorter : Bool}

theorem actReady {settings : Settings} (ready : Ready settings) {a : Act} (known : a.1 ∈ table sorter)
    (runnable : Runnable a) : ∃ left, act settings a.1 a.2 = .ok left ∧ Ready left := by
  cases kindOf known with
  | help key effect => exact absurd effect runnable.helpless
  | version key effect => exact absurd effect runnable.versionless
  | text key effect =>
    have placed := runnable.placed (by rw [effect]; rfl)
    exact ⟨_,actStored placed effect,readyOther ready (by grind) (by grind) _⟩
  | flag key effect => exact ⟨_,actAssigned effect,readyOther ready (by grind) (by grind) _⟩
  | linter key effect =>
    have placed := runnable.placed (by rw [effect]; rfl)
    obtain ⟨items,held⟩ := ready.linters
    rw [← key] at held
    refine ⟨_,actAdded placed effect held,?_⟩
    rw [key]
    exact readyLinters ready _
  | level key effect move =>
    obtain ⟨n,held⟩ := ready.level
    rw [← key] at held
    refine ⟨_,actMoved effect held,?_⟩
    rw [key]
    exact readyLevel ready _
  | skip key effect choice => exact ⟨_,actAssigned effect,readyOther ready (by grind) (by grind) _⟩
  | length key effect =>
    have placed := runnable.placed (by rw [effect]; rfl)
    obtain ⟨n,parsed⟩ := runnable.numeric effect
    refine ⟨_,actNumbered placed effect parsed,readyOther ready (by grind) (by grind) _⟩

theorem performRunnable {acts : List Act} {settings left : Settings} (run : perform settings acts = .ok left) :
    ∀ a ∈ acts, Runnable a := by
  induction acts generalizing settings with
  | nil => simp
  | cons a acts ih =>
    rw [perform,List.foldlM_cons] at run
    obtain ⟨next,acted,rest⟩ := okBind run
    exact List.forall_mem_cons.mpr ⟨actRunnable acted,ih rest⟩

theorem performRuns {acts : List Act} (known : ∀ a ∈ acts, a.1 ∈ table sorter) {settings : Settings}
    (ready : Ready settings) (runnable : ∀ a ∈ acts, Runnable a) : ∃ left, perform settings acts = .ok left := by
  induction acts generalizing settings with
  | nil => exact ⟨settings,rfl⟩
  | cons a acts ih =>
    obtain ⟨first,others⟩ := List.forall_mem_cons.mp known
    obtain ⟨next,acted,ready'⟩ := actReady ready first (runnable a (by simp))
    obtain ⟨left,rest⟩ := ih others ready' (fun a member => runnable a (by simp [member]))
    refine ⟨left,?_⟩
    rw [perform,List.foldlM_cons,bindOk acted]
    exact rest

end

/- One key after several options: those for other keys leave it as it is. What is found there is told by `rep`, and
`step` is what an option for the key does. -/
theorem performKey {σ : Type} {key : String} (rep : σ → Option Value) (step : σ → Act → σ) {acts : List Act}
    (own : ∀ a ∈ acts, a.1.key = key → ∀ {settings left x}, settings.lookup key = rep x →
      act settings a.1 a.2 = .ok left → left.lookup key = rep (step x a))
    {settings left : Settings} {x : σ} (held : settings.lookup key = rep x) (run : perform settings acts = .ok left) :
    left.lookup key = rep ((acts.filter (fun a => a.1.key == key)).foldl step x) := by
  induction acts generalizing settings x with
  | nil =>
    cases run
    exact held
  | cons a acts ih =>
    rw [perform,List.foldlM_cons] at run
    obtain ⟨next,acted,rest⟩ := okBind run
    have later (a : Act) (member : a ∈ acts) := own a (by simp [member])
    by_cases here : a.1.key = key
    · rw [List.filter_cons_of_pos (by simpa using here),List.foldl_cons]
      exact ih later (own a (by simp) here held acted) rest
    · obtain ⟨v,rfl⟩ := Planning.actPuts acted
      rw [List.filter_cons_of_neg (by simpa using here)]
      refine ih later ?_ rest
      rw [Lookup.settingPut,if_neg (Ne.symm here)]
      exact held

theorem otherSettled {key : String} {acts : List Act} {settings left : Settings} (other : ∀ a ∈ acts, a.1.key ≠ key)
    (run : perform settings acts = .ok left) : left.lookup key = settings.lookup key := by
  have none : acts.filter (fun a => a.1.key == key) = [] :=
    List.filter_eq_nil_iff.mpr (fun a member => by simpa using other a member)
  have same := performKey id (fun x _ => x) (fun a member here => absurd here (other a member)) rfl run
  rwa [none] at same

theorem lastCounts (f : α → β) (xs : List α) (b : β) : xs.foldl (fun _ x => f x) b = (xs.getLast?.map f).getD b := by
  induction xs generalizing b with
  | nil => rfl
  | cons x xs ih =>
    rw [List.foldl_cons,ih,List.getLast?_cons]
    cases xs.getLast? <;> rfl

theorem choicesFolded {β σ : Type} {f : Act → Option β} {key : String} {acts : List Act}
    (owns : ∀ a ∈ acts, (a.1.key == key) = (f a).isSome) (step : σ → β → σ) (x : σ) :
    (acts.filter (fun a => a.1.key == key)).foldl (fun x a => ((f a).map (step x)).getD x) x =
      (acts.filterMap f).foldl step x := by
  induction acts generalizing x with
  | nil => rfl
  | cons a acts ih =>
    obtain ⟨here,later⟩ := List.forall_mem_cons.mp owns
    cases choice : f a with
    | none =>
      rw [List.filter_cons_of_neg (by simp [here,choice]),List.filterMap_cons_none choice]
      exact ih later x
    | some b =>
      rw [List.filter_cons_of_pos (by simp [here,choice]),List.filterMap_cons_some choice,List.foldl_cons,List.foldl_cons,
        ← ih later,choice]
      rfl

section
variable {sorter : Bool} {acts : List Act} (known : ∀ a ∈ acts, a.1 ∈ table sorter) {settings left : Settings}
  (run : perform settings acts = .ok left)
include known

theorem filterNamed {key name : String} (pair : (key,name) ∈ longNames) :
    acts.filter (fun a => a.1.key == key) = acts.filter (fun a => a.1.names.contains name) :=
  List.filter_congr (fun a member => keyNamed _ (known a member) _ pair)

include run

theorem textSettled {key name : String} (pair : (key,name) ∈ longNames) (text : key = "revision" ∨ key = "config") {v : Value}
    (held : settings.lookup key = some v) :
    left.lookup key = some (((argumentsOf name acts).getLast?.map .text).getD v) := by
  have own (a : Act) (member : a ∈ acts) (here : a.1.key = key) {before after : Settings} {x : Value}
      (_ : before.lookup key = some x) (acted : act before a.1 a.2 = .ok after) :
      after.lookup key = some (.text a.2) := by
    have effect : a.1.effect = .store := by
      cases kindOf (known a member) with
      | text key effect => exact effect
      | _ => grind
    rw [actStored ((actRunnable acted).placed (by rw [effect]; rfl)) effect] at acted
    cases acted
    simp [Lookup.settingPut,here]
  rw [performKey some (fun _ a => .text a.2) own held run,filterNamed known pair,lastCounts,argumentsOf,List.getLast?_map,
    Option.map_map]
  rfl

theorem lengthSettled {v : Value} (held : settings.lookup "line_length" = some v) : left.lookup "line_length" =
    some ((((argumentsOf "--line-length" acts).getLast?.bind parseInteger?).map .int).getD v) := by
  have effect {a : Act} (member : a ∈ acts) (here : a.1.key = "line_length") : a.1.effect = .storeInteger := by
    cases kindOf (known a member) with
    | length key effect => exact effect
    | _ => grind
  have own (a : Act) (member : a ∈ acts) (here : a.1.key = "line_length") {before after : Settings} {x : Value}
      (_ : before.lookup "line_length" = some x) (acted : act before a.1 a.2 = .ok after) :
      after.lookup "line_length" = some (.int ((parseInteger? a.2).getD 0)) := by
    have runnable := actRunnable acted
    obtain ⟨n,parsed⟩ := runnable.numeric (effect member here)
    rw [actNumbered (runnable.placed (by rw [effect member here]; rfl)) (effect member here) parsed] at acted
    cases acted
    simp [Lookup.settingPut,here,parsed]
  rw [performKey some (fun _ a => .int ((parseInteger? a.2).getD 0)) own held run,lastCounts,argumentsOf,
    ← filterNamed known (by decide : ("line_length","--line-length") ∈ longNames),List.getLast?_map]
  cases last : (acts.filter (fun a => a.1.key == "line_length")).getLast? with
  | none => rfl
  | some a =>
    obtain ⟨member,here⟩ := List.mem_filter.mp (List.mem_of_getLast? last)
    obtain ⟨n,parsed⟩ := (performRunnable run a member).numeric (effect member (beq_iff_eq.mp here))
    simp [parsed]

theorem flagSettled {key name : String} (pair : (key,name) ∈ longNames) (flag : key = "diff" ∨ key = "check" ∨ key = "isort")
    {b : Bool} (held : settings.lookup key = some (.bool b)) :
    left.lookup key = some (.bool (b || !(argumentsOf name acts).isEmpty)) := by
  have own (a : Act) (member : a ∈ acts) (here : a.1.key = key) {before after : Settings} {x : Bool}
      (_ : before.lookup key = some (.bool x)) (acted : act before a.1 a.2 = .ok after) :
      after.lookup key = some (.bool true) := by
    have effect : a.1.effect = .assign (.bool true) := by
      cases kindOf (known a member) with
      | flag key effect => exact effect
      | _ => grind
    rw [actAssigned effect] at acted
    cases acted
    simp [Lookup.settingPut,here]
  rw [performKey (fun x => some (.bool x)) (fun _ _ => true) own held run,filterNamed known pair,
    lastCounts (fun _ => true),argumentsOf]
  cases acts.filter (fun a => a.1.names.contains name) with
  | nil => simp
  | cons a rest => simp [List.getLast?_cons]

theorem lintersSettled {items : List Value} (held : settings.lookup "lint" = some (.list items)) :
    left.lookup "lint" = some (.list (items ++ (argumentsOf "--lint" acts).map .text)) := by
  have own (a : Act) (member : a ∈ acts) (here : a.1.key = "lint") {before after : Settings} {x : List Value}
      (held : before.lookup "lint" = some (.list x)) (acted : act before a.1 a.2 = .ok after) :
      after.lookup "lint" = some (.list (x ++ [.text a.2])) := by
    have effect : a.1.effect = .append := by
      cases kindOf (known a member) with
      | linter key effect => exact effect
      | _ => grind
    rw [actAdded ((actRunnable acted).placed (by rw [effect]; rfl)) effect (here ▸ held)] at acted
    cases acted
    simp [Lookup.settingPut,here]
  rw [performKey (fun x => some (.list x)) (fun x a => x ++ [.text a.2]) own held run,
    filterNamed known (by decide : ("lint","--lint") ∈ longNames),List.foldl_append_eq_append,← List.flatMap_def,argumentsOf,
    List.map_map,List.map_eq_flatMap]
  rfl

theorem levelSettled {n : Int} (held : settings.lookup "log_level" = some (.int n)) :
    left.lookup "log_level" = some (.int (moved n (moves acts))) := by
  have own (a : Act) (member : a ∈ acts) (here : a.1.key = "log_level") {before after : Settings} {x : Int}
      (held : before.lookup "log_level" = some (.int x)) (acted : act before a.1 a.2 = .ok after) :
      after.lookup "log_level" = some (.int (((moveOf a.1).map (fun step => Verbosity.clamp (x + step))).getD x)) := by
    cases kindOf (known a member) with
    | level key effect move =>
      rw [actMoved effect (here ▸ held)] at acted
      cases acted
      simp [Lookup.settingPut,here,move]
    | _ => grind
  rw [performKey (fun x => some (.int x)) _ own held run,
    choicesFolded (fun a member => keyMoves _ (known a member)) (fun x step => Verbosity.clamp (x + step))]
  rfl

theorem skipSettled {v : Value} (held : settings.lookup "skip_string_normalization" = some v) :
    left.lookup "skip_string_normalization" = some (((skips acts).getLast?.map .bool).getD v) := by
  have own (a : Act) (member : a ∈ acts) (here : a.1.key = "skip_string_normalization") {before after : Settings}
      {x : Value} (_ : before.lookup "skip_string_normalization" = some x) (acted : act before a.1 a.2 = .ok after) :
      after.lookup "skip_string_normalization" = some (((skipOf a.1).map .bool).getD x) := by
    cases kindOf (known a member) with
    | skip key effect choice =>
      rw [actAssigned effect] at acted
      cases acted
      simp [Lookup.settingPut,here,choice]
    | _ => grind
  rw [performKey some _ own held run,choicesFolded (fun a member => keySkips _ (known a member)) (fun _ => Value.bool),
    lastCounts]
  rfl

end

end Retouch.Settling
