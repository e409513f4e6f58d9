import Retouch.Proofs.Stillness

/-! From settings to a plan. Reading leaves one value for each key, however often an option is given. What a run does
with changed files is decided by three of the settings, and what goes to the formatter by three others. -/
namespace Retouch.Planning
open Execution Inquiry Stillness

def settingIn (r : Config.Reading) (key : String) : Value := (r.settings.lookup key).getD .none

def Given (r : Config.Reading) (key : String) : Prop := (settingIn r key).truthy = true

instance (r : Config.Reading) (key : String) : Decidable (Given r key) := inferInstanceAs (Decidable (_ = _))

def Keyed (s : Settings) : Prop := (s.map Prod.fst).Nodup

theorem keyedAdded {s : Settings} (keyed : Keyed s) (e : String × Value) : Keyed (if s.has e.1 then s else s ++ [e]) := by
  split
  · exact keyed
  rename_i absent
  unfold Keyed
  rw [List.map_append,List.nodup_append]
  refine ⟨keyed,by simp,?_⟩
  rintro key inside key' own rfl
  obtain ⟨held,member,rfl⟩ := List.mem_map.mp inside
  have same : held.1 = e.1 := by simpa using own
  exact absent (List.any_eq_true.mpr ⟨held,member,by simp [same]⟩)

theorem keyedStart (g : Options.Grammar) : Keyed g.start := by
  unfold Options.Grammar.start
  dsimp only
  refine List.foldlRecOn _ _ (List.foldlRecOn _ _ ?_ (fun s keyed o _ => ?_)) (fun s keyed e _ => keyedAdded keyed e)
  · cases g.initial? Options.helpOption with
    | none => simp [Keyed]
    | some v => simp [Keyed,Settings.has,Options.helpOption,Options.sourceKey]
  · cases g.initial? o with
    | none => exact keyed
    | some v => exact keyedAdded keyed (o.key,v)

theorem mappedPuts {settings left : Settings} {key : String} {e : Except ε Value}
    (run : e.map (settings.put key) = .ok left) : ∃ v, left = settings.put key v := by
  cases e with
  | error stop => cases run
  | ok v =>
    cases run
    exact ⟨v,rfl⟩

theorem actPuts {settings o argument left} (run : Options.act settings o argument = .ok left) :
    ∃ v, left = settings.put o.key v := by
  unfold Options.act at run
  dsimp only at run
  split at run
  · cases run
  split at run
  · cases run
  · cases run
  · cases run
    exact ⟨_,rfl⟩
  · cases run
    exact ⟨_,rfl⟩
  · exact mappedPuts run
  · split at run
    · cases run
      exact ⟨_,rfl⟩
    · cases run
      exact ⟨_,rfl⟩
    · cases run
  · split at run
    · cases run
      exact ⟨_,rfl⟩
    · cases run

theorem foldlMKeeps {P : β → Prop} {f : β → α → Except ε β} (step : ∀ {b x c}, P b → f b x = .ok c → P c) {xs : List α}
    {b c : β} (before : P b) (run : xs.foldlM f b = .ok c) : P c := by
  induction xs generalizing b with
  | nil =>
    cases run
    exact before
  | cons x xs ih =>
    rw [List.foldlM_cons] at run
    obtain ⟨next,first,rest⟩ := okBind run
    exact ih (step before first) rest

theorem keyedActs {s s' : Options.State} {acts : List (Options.OptionSpec × String)} (keyed : Keyed s.settings)
    (run : s.acts acts = .ok s') : Keyed s'.settings := by
  refine foldlMKeeps (P := fun s => Keyed (Options.State.settings s)) (fun {b x c} keyed run => ?_) keyed run
  obtain ⟨left,acted,last⟩ := okBind run
  cases last
  obtain ⟨v,rfl⟩ := actPuts acted
  exact Lookup.keysPut _ _ keyed

theorem keyedTokens {g s waiting tokens s'} (keyed : Keyed (Options.State.settings s))
    (run : Options.readTokens g s waiting tokens = .ok s') : Keyed s'.settings := by
  fun_induction Options.readTokens g s waiting tokens with
  | case1 s acts o text rest ih =>
    obtain ⟨next,acted,later⟩ := okBind run
    exact ih next (keyedActs keyed acted) later
  | case2 => cases run
  | case3 =>
    cases run
    exact keyed
  | case4 s text rest ih =>
    refine ih ?_ run
    unfold Options.State.word
    split <;> exact keyed
  | case5 s rest ih =>
    refine ih ?_ run
    unfold Options.State.separator
    split <;> exact keyed
  | case6 s text rest ih => exact ih keyed run
  | case7 s o name attached rest closed taken waits =>
    obtain ⟨c,_,later⟩ := okBind run
    split at later
    · obtain ⟨next,acted,last⟩ := okBind later
      exact taken next (keyedActs (s := closed) keyed acted) last
    · exact waits _ _ keyed later

theorem keyedEvaluated {g args settings} (run : Options.evaluate g args = .ok settings) : Keyed settings := by
  have converted {s : Options.State} {settings left : Settings} {o : Options.OptionSpec} (keyed : Keyed settings)
      (run : Options.convertPreset g s settings o = .ok left) : Keyed left := by
    unfold Options.convertPreset at run
    split at run
    · split at run
      · cases run
        exact keyed
      · obtain ⟨v,rfl⟩ := mappedPuts run
        exact Lookup.keysPut _ _ keyed
    · cases run
      exact keyed
  unfold Options.evaluate at run
  obtain ⟨tokens,_,rest⟩ := okBind run
  obtain ⟨s,reading,rest⟩ := okBind rest
  obtain ⟨all,presets,rest⟩ := okBind rest
  have keyed := foldlMKeeps converted (Lookup.keysPut _ _ (keyedTokens (keyedStart g) reading)) presets
  dsimp only at rest
  split at rest
  · cases rest
  split at rest
  · cases rest
  cases rest
  exact keyed

theorem optionsRead {g args tools s settings t} (run : exec (Options.read g args) tools s = (.ok settings,t)) :
    Options.evaluate g args = .ok settings ∧ t = s := by
  rw [Options.read,execBindOk (execRead tools s)] at run
  split at run
  · cases run
    exact ⟨by assumption,rfl⟩
  all_goals cases run

theorem optionsReads {g : Options.Grammar} {args : List String} {settings : Settings}
    (evaluated : Options.evaluate g args = .ok settings) (tools : Tools) (s : Session) :
    exec (Options.read g args) tools s = (.ok settings,s) := by
  rw [Options.read,execBindOk (execRead tools s),evaluated]
  rfl

theorem loadUndisturbed (sources : List String) : Within Undisturbed (fun _ => True) (Config.load sources) := by
  have tolerant : Tolerates Undisturbed (fun _ => True) := { undisturbed with foreign := fun _ _ => trivial }
  refine withinBind undisturbedLasting (withinProjectFile tolerant _) (fun file => ?_)
  cases file with
  | none => exact withinPure undisturbedLasting _
  | some file =>
    refine withinBind undisturbedLasting (withinReadText tolerant _) (fun text => ?_)
    refine withinBind undisturbedLasting (withinOfOption undisturbedLasting trivial _) (fun project => ?_)
    exact fun _ s => ⟨undisturbedLasting.refl s,fun _ _ => trivial⟩

theorem configRead {args tools s r t} (run : exec (Config.read args) tools s = (.ok r,t)) :
    Keyed r.settings ∧ Config.effective r.settings = .ok r.effective ∧ Config.modified r.settings = .ok r.modified ∧
      Undisturbed s t := by
  rw [Config.read,execBindOk (execRead tools s)] at run
  rcases execBindCases run with ⟨e,_,impossible⟩ | ⟨first,u,asked,rest⟩
  · cases impossible
  obtain ⟨_,rfl⟩ := optionsRead asked
  rcases execBindCases rest with ⟨e,_,impossible⟩ | ⟨preset,v,loaded,later⟩
  · cases impossible
  have kept := withinEnds (loadUndisturbed _) loaded
  dsimp only at later
  split at later
  · cases later
  rcases execBindCases later with ⟨e,_,impossible⟩ | ⟨settings,w,reading,last⟩
  · cases impossible
  obtain ⟨evaluated,rfl⟩ := optionsRead reading
  have keyed := keyedEvaluated evaluated
  cases effective : Config.effective settings with
  | error f =>
    rw [effective] at last
    cases last
  | ok all =>
    cases modified : Config.modified settings with
    | error f =>
      rw [effective,modified] at last
      cases last
    | ok changed =>
      rw [effective,modified] at last
      cases last
      exact ⟨keyed,effective,modified,kept⟩

theorem swappedNumber {s : Settings} (level : ∀ v, ("log_level",v) ∈ s → ∃ n, v = .int n) :
    ∃ t, Verbosity.swapIn s = .ok t := by
  unfold Verbosity.swapIn
  cases found : s.lookup "log_level" with
  | none => exact ⟨s,rfl⟩
  | some v =>
    obtain ⟨before,after,rfl,_⟩ := List.lookup_eq_some_iff.mp found
    obtain ⟨n,rfl⟩ := level v (by simp)
    exact ⟨_,rfl⟩

/- The command line is read once for the project's settings, and once more with them. -/
theorem configReadsWith {tools : Tools} {s t : Session} {args : List String} {first preset settings all changed : Settings}
    (asked : Options.evaluate ⟨false,tools.sortImports.isSome,[]⟩ args = .ok first)
    (loaded : exec (Config.load (Config.texts ((first.lookup Options.sourceKey).getD .none))) tools s = (.ok preset,t))
    (unreserved : preset.has Config.reserved = false)
    (evaluated : Options.evaluate ⟨!((preset.lookup Options.sourceKey).getD .none).truthy,tools.sortImports.isSome,preset⟩ args =
      .ok settings)
    (effective : Config.effective settings = .ok all) (modified : Config.modified settings = .ok changed) :
    exec (Config.read args) tools s = (.ok ⟨settings,all,changed⟩,t) := by
  rw [Config.read,execBindOk (execRead tools s),execBindOk (optionsReads asked tools s),execBindOk loaded]
  dsimp only
  rw [unreserved,if_neg (by simp),execBindOk (optionsReads evaluated tools t),effective,modified]
  rfl

theorem configReads (tools : Tools) (s : Session) {args settings sources t}
    (evaluated : ∀ required, Options.evaluate ⟨required,tools.sortImports.isSome,[]⟩ args = .ok settings)
    (named : Config.texts ((settings.lookup Options.sourceKey).getD .none) = sources)
    (loaded : exec (Config.load sources) tools s = (.ok [],t)) (level : ∀ v, ("log_level",v) ∈ settings → ∃ n, v = .int n) :
    ∃ r, exec (Config.read args) tools s = (.ok r,t) ∧ r.settings = settings := by
  obtain ⟨effective,all⟩ : ∃ effective, Config.effective settings = .ok effective := swappedNumber level
  obtain ⟨modified,changed⟩ : ∃ modified, Config.modified settings = .ok modified :=
    swappedNumber (fun v member => level v (List.mem_filter.mp member).1)
  subst named
  exact ⟨⟨settings,effective,modified⟩,configReadsWith (evaluated false) loaded rfl (evaluated true) all changed,rfl⟩

def planFrom (name : String) (r : Config.Reading) : Run Program.Plan := do
  Program.openConsole name (settingIn r "log_level")
  if ((settingIn r "log_level").number?.getD 30) ≤ Verbosity.lowest then Program.printConfig r
  let sorted := (settingIn r "isort").truthy
  if sorted && (← read).sortImports.isNone then
    Run.note .error .program s!"{Options.installSorter} to use the `--isort` option."
    Run.fail (.exit 1)
  let paths ← Program.pathsOf (settingIn r Options.sourceKey)
  let range ← match settingIn r "revision" with
    | .text s => RevisionRange.parse s
    | _ => Run.fail .wrongKind
  return ⟨paths,range,sorted,(settingIn r "check").truthy,(settingIn r "diff").truthy,settingIn r "lint",
    Program.formatterOptions (settingIn r)⟩

theorem prepareReads (name : String) (args : List String) :
    Program.prepare name args = Config.read args >>= planFrom name := rfl

theorem asideOk {c : Prop} [Decidable c] {m : Run β} {n : Run α} {tools : Tools} {s t : Session} {a : α}
    (run : exec (if c then m >>= fun _ => n else n) tools s = (.ok a,t)) : ∃ u, exec n tools u = (.ok a,t) := by
  split at run
  · rcases execBindCases run with ⟨e,_,impossible⟩ | ⟨_,u,_,rest⟩
    · cases impossible
    exact ⟨u,rest⟩
  · exact ⟨s,run⟩

structure Follows (plan : Program.Plan) (r : Config.Reading) : Prop where
  sorted : plan.sorted = (settingIn r "isort").truthy
  check : plan.check = (settingIn r "check").truthy
  diff : plan.diff = (settingIn r "diff").truthy
  linters : plan.linters = settingIn r "lint"
  options : plan.options = Program.formatterOptions (settingIn r)

theorem planFollows {name r tools s plan t} (run : exec (planFrom name r) tools s = (.ok plan,t)) : Follows plan r := by
  rcases execBindCases run with ⟨e,_,impossible⟩ | ⟨_,u,_,rest⟩
  · cases impossible
  obtain ⟨v,rest⟩ := asideOk rest
  rw [execBindOk (execRead tools v)] at rest
  dsimp only at rest
  by_cases missing : ((settingIn r "isort").truthy && tools.sortImports.isNone) = true
  · rw [if_pos missing] at rest
    cases rest
  rw [if_neg missing] at rest
  rcases execBindCases rest with ⟨e,_,impossible⟩ | ⟨paths,w,_,rest⟩
  · cases impossible
  split at rest
  · rcases execBindCases rest with ⟨e,_,impossible⟩ | ⟨range,x,_,last⟩
    · cases impossible
    cases last
    exact ⟨rfl,rfl,rfl,rfl,rfl⟩
  · cases rest

theorem prepareFollows {name args tools s plan t} (run : exec (Program.prepare name args) tools s = (.ok plan,t)) :
    ∃ r u, exec (Config.read args) tools s = (.ok r,u) ∧ Follows plan r := by
  rw [prepareReads] at run
  rcases execBindCases run with ⟨e,_,impossible⟩ | ⟨r,u,reading,rest⟩
  · cases impossible
  exact ⟨r,u,reading,planFollows rest⟩

end Retouch.Planning
