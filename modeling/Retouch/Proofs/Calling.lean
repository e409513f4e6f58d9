import Retouch.Proofs.Footprint
import Retouch.Proofs.Parallel

/-! The calls of the formatter and of the sorter: which settings one is made with, and what it leaves of the options
it was given and of the configuration that is kept. What is known of a call is carried through all attempts on a file
and through what is done with its result. -/
namespace Retouch.Calling
open Execution Inquiry Candidates Listing Overwriting Stillness Changes Footprint Parallel

section
variable (setting : String → Value)

def modeWith (own : Settings) : FormatMode where
  lineLength := if (setting "line_length").truthy then setting "line_length" else (own.lookup "line_length").getD (.int 88)
  normalizeStrings :=
    if (setting "skip_string_normalization").alike .none then
      match own.lookup "skip_string_normalization" with
      | some skip => !skip.truthy
      | none => true
    else !(setting "skip_string_normalization").truthy

def sorterSettings (s : Session) (requested lineLength : Value) (source : Path) : Settings :=
  (if requested.truthy then ("settings_file",requested)
    else ("settings_path",.text (rootFor s [source.render]).render)) ::
  if lineLength.truthy then [("line_length",lineLength)] else []

def Uses (tools : Tools) (s : Session) (requested : Value) (source : Path) : Event → Prop
  | .format mode _ =>
    ∃ own, (exec (ownSettings source requested) tools s).1 = .ok own ∧ mode = modeWith setting own
  | .sortImports settings _ => settings = sorterSettings s requested (setting "line_length") source
  | _ => False

def options : Settings := Program.formatterOptions setting

def left : Settings := (options setting).erase "config"

def given (c : Bool) (key : String) : Settings := if c then [(key,setting key)] else []

theorem lookupGiven (c : Bool) (key q : String) :
    (given setting c key).lookup q = if q = key ∧ c = true then some (setting key) else none := by
  cases c with
  | false => simp [given]
  | true => by_cases same : q = key <;> simp [given,List.lookup_cons,same,beq_eq_false_iff_ne.mpr]

theorem optionsGiven : options setting = given setting (setting "config").truthy "config" ++
    given setting (setting "line_length").truthy "line_length" ++
    given setting (!(setting "skip_string_normalization").alike .none) "skip_string_normalization" := rfl

theorem leftGiven : left setting = given setting (setting "line_length").truthy "line_length" ++
    given setting (!(setting "skip_string_normalization").alike .none) "skip_string_normalization" := by
  have gone (c : Bool) : Settings.erase (given setting c "config") "config" = [] := by
    cases c <;> simp [given,Settings.erase]
  have kept (c : Bool) {key : String} (other : key ≠ "config") :
      Settings.erase (given setting c key) "config" = given setting c key := by
    cases c <;> simp [given,Settings.erase,other]
  have parts (s t : Settings) : Settings.erase (s ++ t) "config" = s.erase "config" ++ t.erase "config" :=
    List.filter_append ..
  rw [left,optionsGiven,parts,parts,gone,kept _ (by decide),kept _ (by decide),List.nil_append]

theorem configOptions : configIn (options setting) = if (setting "config").truthy then setting "config" else .none := by
  rw [configIn,optionsGiven]
  simp only [List.lookup_append,lookupGiven]
  cases (setting "config").truthy <;> simp

theorem configLeft : configIn (left setting) = .none := by
  rw [configIn,left,Lookup.settingErased]
  rfl

theorem leftErased : (left setting).erase "config" = left setting := Lookup.erasedTwice _ _

theorem lengthLeft : ((left setting).lookup "line_length").getD .none =
    if (setting "line_length").truthy then setting "line_length" else .none := by
  rw [leftGiven]
  simp only [List.lookup_append,lookupGiven]
  cases (setting "line_length").truthy <;> simp

theorem lengthOptions : ((options setting).lookup "line_length").getD .none =
    if (setting "line_length").truthy then setting "line_length" else .none := by
  rw [← lengthLeft,left,Lookup.settingErased,if_neg (by decide)]

theorem noneUntruthy : Value.truthy .none = false := rfl

theorem sorterOptions (s : Session) (source : Path) :
    sorterSettings s (configIn (options setting)) (((options setting).lookup "line_length").getD .none) source =
      sorterSettings s (setting "config") (setting "line_length") source := by
  rw [configOptions,lengthOptions,sorterSettings,sorterSettings]
  cases asked : (setting "config").truthy <;> cases long : (setting "line_length").truthy <;>
    simp [asked,long,noneUntruthy]

theorem sorterLeft (s : Session) (source : Path) :
    sorterSettings s (configIn (left setting)) (((left setting).lookup "line_length").getD .none) source =
      sorterSettings s .none (setting "line_length") source := by
  rw [configLeft,lengthLeft,sorterSettings,sorterSettings]
  cases long : (setting "line_length").truthy <;> simp [long,noneUntruthy]

theorem modeLaid (own : Settings) : Formatter.modeOf (own.overlay (left setting)) = modeWith setting own := by
  have laid (key : String) : (own.overlay (left setting)).lookup key =
      ((left setting).reverse.lookup key).or (own.lookup key) := Lookup.settingOverlaid _ _ _
  have reversed (key : String) : (left setting).reverse.lookup key =
      ((given setting (!(setting "skip_string_normalization").alike .none) "skip_string_normalization").lookup key).or
        ((given setting (setting "line_length").truthy "line_length").lookup key) := by
    have single (c : Bool) (key : String) : (given setting c key).reverse = given setting c key := by
      cases c <;> simp [given]
    rw [leftGiven,List.reverse_append,single,single,List.lookup_append]
  unfold Formatter.modeOf modeWith
  simp only [laid,reversed,lookupGiven]
  cases (setting "line_length").truthy <;> cases (setting "skip_string_normalization").alike .none <;>
    cases own.lookup "skip_string_normalization" <;> simp

end

structure Quiet (s s' : Session) : Prop where
  tree : s'.tree = s.tree
  cwd : s'.cwd = s.cwd
  roots : ∀ sources, rootFor s' sources = rootFor s sources
  calls : calls s' = calls s

def Silent (s s' : Session) : Prop := Quiet s s' ∧ s'.formatterConfig = s.formatterConfig

theorem silentLasting : Lasting Silent where
  refl _ := ⟨⟨rfl,rfl,fun _ => rfl,rfl⟩,rfl⟩
  trans h h' := ⟨⟨h'.1.tree.trans h.1.tree,h'.1.cwd.trans h.1.cwd,fun sources => (h'.1.roots sources).trans (h.1.roots sources),
    h'.1.calls.trans h.1.calls⟩,h'.2.trans h.2⟩

theorem calmQuiet {s s' : Session} (h : Calm s s') : Quiet s s' := ⟨h.tree,h.cwd,h.roots,h.calls⟩

theorem calmSilent {s s' : Session} (h : Calm s s') : Silent s s' := ⟨calmQuiet h,h.formatterConfig⟩

theorem silentStands {m : Run α} (h : Stands m) : Within Silent (fun _ => True) m :=
  withinMono calmSilent (fun _ => trivial) h

theorem silentObjection (edited result : Document) (chunks : List Chunk) (lines : List Int) :
    Within Silent (fun _ => True) (objectionTo edited result chunks lines) := by
  refine withinGetSet silentLasting (fun s => ⟨⟨rfl,rfl,fun _ => rfl,rfl⟩,rfl⟩) (fun s => ?_)
  refine withinBind silentLasting (withinRead silentLasting) (fun tools => withinBind silentLasting ?_ (fun _ => ?_))
  · exact withinModify (fun _ => ⟨⟨rfl,rfl,fun _ => rfl,by simp [calls,IsCall]⟩,rfl⟩)
  · exact withinAside (fun rest => withinBind silentLasting (silentStands (standsPrint _)) (fun _ => rest))
      (withinPure silentLasting _)

theorem nearQuiet {places : List (List String)} {s t base : Session} (near : Near places s base) (quiet : Quiet s t) :
    Near places t base :=
  ⟨quiet.tree ▸ near.tree,quiet.cwd.trans near.cwd,fun sources => (quiet.roots sources).trans (near.roots sources)⟩

theorem nearTrans {places places' : List (List String)} {s t base : Session} (near : Near places s base)
    (after : Near places' t s) : Near (places ++ places') t base :=
  ⟨overwrittenTrans near.tree after.tree,after.cwd.trans near.cwd,
    fun sources => (after.roots sources).trans (near.roots sources)⟩

theorem sorterNear {places : List (List String)} {s base : Session} (near : Near places s base)
    (requested lineLength : Value) (source : Path) :
    sorterSettings s requested lineLength source = sorterSettings base requested lineLength source := by
  rw [sorterSettings,sorterSettings,near.roots]

theorem callsPushed (s : Session) (kept : Option ((Path × Value) × Settings)) {e : Event} (call : IsCall e = true) :
    calls { s with formatterConfig := kept, events := s.events.push e } = calls s ++ [e] := by
  simp [calls,call]

theorem configCases {source requested tools s r t} (run : exec (Formatter.config source requested) tools s = (r,t)) :
    (∃ f, r = .error f ∧ Calm s t) ∨ ∃ own, r = .ok own ∧
      ((∃ v, s.formatterConfig = some ((source,v),own) ∧ v.alike requested = true ∧ t = s) ∨
        ∃ u, exec (ownSettings source requested) tools s = (.ok own,u) ∧
          t = { u with formatterConfig := some ((source,requested),own) }) := by
  have fresh (run : exec (Formatter.config.fresh source requested) tools s = (r,t)) :
      (∃ f, r = .error f ∧ Calm s t) ∨ ∃ own, r = .ok own ∧ ∃ u, exec (ownSettings source requested) tools s = (.ok own,u) ∧
        t = { u with formatterConfig := some ((source,requested),own) } := by
    rw [freshOwn] at run
    rcases execBindCases run with ⟨f,failed,rfl⟩ | ⟨own,u,found,rest⟩
    · exact .inl ⟨f,rfl,withinEnds (standsOwn source requested) failed⟩
    · cases rest
      exact .inr ⟨own,rfl,u,found,rfl⟩
  unfold Formatter.config at run
  split at run
  · cases run
    exact .inl ⟨_,rfl,calmLasting.refl _⟩
  rw [execBindOk (execGet tools s)] at run
  cases kept : s.formatterConfig with
  | none =>
    rw [kept] at run
    exact (fresh run).imp_right (fun ⟨own,result,found⟩ => ⟨own,result,.inr found⟩)
  | some entry =>
    obtain ⟨⟨p,v⟩,own⟩ := entry
    rw [kept] at run
    dsimp only at run
    split at run
    · rename_i hit
      simp only [Bool.and_eq_true,beq_iff_eq] at hit
      obtain ⟨rfl,alike⟩ := hit
      cases run
      exact .inr ⟨own,rfl,.inl ⟨v,rfl,alike,rfl⟩⟩
    · exact (fresh run).imp_right (fun ⟨own,result,found⟩ => ⟨own,result,.inr found⟩)

theorem formatCases {source content options tools s r t}
    (run : exec (Formatter.format source content options) tools s = (r,t)) :
    (∃ f, r = .error f ∧ Calm s t) ∨ ∃ own laid u, exec (Formatter.config source (configIn options)) tools s = (.ok own,u) ∧
      laid = Settings.overlay own (Settings.erase options "config") ∧
      t = { u with
        formatterConfig := some ((source,configIn options),laid)
        events := u.events.push (.format (Formatter.modeOf laid) content.text) } ∧
      ∀ x, r = .ok x → x.2 = Settings.erase options "config" := by
  rcases execBindCases run with ⟨f,failed,rfl⟩ | ⟨own,u,configured,rest⟩
  · rcases configCases failed with ⟨_,_,calm⟩ | ⟨_,impossible,_⟩
    · exact .inl ⟨f,rfl,calm⟩
    · cases impossible
  · refine .inr ⟨own,_,u,configured,rfl,?_⟩
    simp only [execBind,execModify,Run.record,execRead] at rest
    split at rest
    · cases rest
      refine ⟨rfl,?_⟩
      rintro x ⟨⟩
      rfl
    · cases rest
      exact ⟨rfl,by simp⟩

theorem modeSame {s t : Settings} (same : ∀ key, s.lookup key = t.lookup key) :
    Formatter.modeOf s = Formatter.modeOf t := by
  unfold Formatter.modeOf
  rw [same,same]

def AsFound (tools : Tools) (base : Session) (laid : Settings) (source : Path) (requested : Value) (own : Settings) : Prop :=
  ∃ found, (exec (ownSettings source requested) tools base).1 = .ok found ∧
    ∀ key, (own.overlay laid).lookup key = (found.overlay laid).lookup key

def KeptAsFound (tools : Tools) (base : Session) (laid : Settings) (s : Session) : Prop :=
  ∀ p own, s.formatterConfig = some ((p,.none),own) → AsFound tools base laid p .none own

section
variable {tools : Tools} {base s : Session} {laid : Settings} {source : Path} {places : List (List String)}
  (near : Near places s base)
include near

theorem configFound {requested own u} (free : Free places requested)
    (kept : ∀ v own, s.formatterConfig = some ((source,v),own) → v.alike requested = true →
      AsFound tools base laid source requested own)
    (run : exec (Formatter.config source requested) tools s = (.ok own,u)) :
    Quiet s u ∧ AsFound tools base laid source requested own := by
  rcases configCases run with ⟨_,impossible,_⟩ | ⟨_,same,⟨v,entry,alike,rfl⟩ | ⟨v,read,rfl⟩⟩
  · cases impossible
  · cases same
    exact ⟨⟨rfl,rfl,fun _ => rfl,rfl⟩,kept v own entry alike⟩
  · cases same
    have quiet := calmQuiet (withinEnds (standsOwn source requested) read)
    refine ⟨⟨quiet.tree,quiet.cwd,quiet.roots,quiet.calls⟩,own,?_,fun _ => rfl⟩
    have same := matchedEq (agreesOwn (nearSees places) free source tools s base near).2
    rw [read] at same
    exact same.symm

/- A call of the formatter goes by what is found in session `base`, and what it keeps is again as it was found: laying
the options over it once more changes nothing. -/
theorem formatFound {content given r t} (free : Free places (configIn given)) (left : given.erase "config" = laid)
    (kept : ∀ v own, s.formatterConfig = some ((source,v),own) → v.alike (configIn given) = true →
      AsFound tools base laid source (configIn given) own)
    (run : exec (Formatter.format source content given) tools s = (r,t)) :
    (∃ f, r = .error f ∧ Calm s t) ∨ ∃ found, (exec (ownSettings source (configIn given)) tools base).1 = .ok found ∧
      Near places t base ∧ KeptAsFound tools base laid t ∧
      calls t = calls s ++ [.format (Formatter.modeOf (found.overlay laid)) content.text] ∧ ∀ x, r = .ok x → x.2 = laid := by
  rcases formatCases run with unformatted | ⟨own,_,u,configured,rfl,rfl,rest⟩
  · exact .inl unformatted
  obtain ⟨quiet,found,stands,same⟩ := configFound near free kept configured
  rw [left] at rest ⊢
  have near' := nearQuiet near quiet
  refine .inr ⟨found,stands,⟨near'.tree,near'.cwd,near'.roots⟩,?_,?_,rest⟩
  · intro p own' entry
    simp only [Option.some.injEq,Prod.mk.injEq] at entry
    obtain ⟨⟨rfl,unasked⟩,rfl⟩ := entry
    rw [unasked] at stands
    exact ⟨found,stands,fun key => (Lookup.settingOverlaidAgain own laid key).trans (same key)⟩
  · rw [callsPushed u _ rfl,quiet.calls,modeSame same]

end

theorem ownRequested {path : String} (named : path ≠ "") (source : Path) :
    ownSettings source (.text path) = Formatter.readSettings path := by
  have asked : Value.truthy (.text path) = true := by simpa [Value.truthy] using named
  unfold ownSettings Formatter.settingsFile?
  rw [asked]
  rfl

theorem ownUnrequested {requested : Value} (unasked : requested.truthy = false) (source : Path) :
    ownSettings source requested = ownSettings source .none := by
  unfold ownSettings Formatter.settingsFile?
  rw [unasked]
  rfl

theorem standsSettings (source : Path) (requested lineLength : Value) :
    Stands (Imports.settingsFor source requested lineLength) := by
  unfold Imports.settingsFor
  dsimp only
  split
  · exact standsBind (standsPure _) (fun _ => standsPure _)
  · exact standsBind (withinProjectRoot calm _) (fun _ => standsBind (standsPure _) (fun _ => standsPure _))

theorem settingsPlaced (source : Path) (requested lineLength : Value) (tools : Tools) (s : Session) :
    (exec (Imports.settingsFor source requested lineLength) tools s).1 =
      .ok (sorterSettings s requested lineLength source) := by
  unfold Imports.settingsFor sorterSettings
  cases requested.truthy with
  | true => rfl
  | false =>
    have found := execProjectRoot [source.render] tools s
    rcases root : exec (projectRoot [source.render]) tools s with ⟨e,u⟩
    rw [root] at found
    cases found
    simp only [Bool.false_eq_true,if_false]
    rw [execBindOk root]
    rfl

theorem sortCases {content source requested lineLength tools s r t}
    (run : exec (Imports.sort content source requested lineLength) tools s = (r,t)) :
    Calm s t ∨ ∃ u, Calm s u ∧ t = { u with
      events := u.events.push (.sortImports (sorterSettings s requested lineLength source) content.text) } := by
  have stands := standsSettings source requested lineLength
  have placed := settingsPlaced source requested lineLength tools s
  rcases execBindCases run with ⟨f,failed,rfl⟩ | ⟨settings,u,settled,rest⟩
  · exact .inl (withinEnds stands failed)
  rw [settled] at placed
  cases placed
  rcases execBindCases rest with ⟨f,failed,rfl⟩ | ⟨_,v,told,rest⟩
  · cases failed
  have quiet := calmLasting.trans (withinEnds stands settled) (withinEnds (withinDebug calm _ _) told)
  rw [execBindOk (execRead tools v)] at rest
  split at rest
  · cases rest
    exact .inl quiet
  · refine .inr ⟨v,quiet,?_⟩
    simp only [execBind,execModify,Run.record] at rest
    split at rest
    · cases rest
      rfl
    · cases rest
      rfl

theorem sourcesAppend {places places' : List (List String)} (apart : Sources places) (apart' : Sources places') :
    Sources (places ++ places') := by
  intro directory member
  exact (List.mem_append.mp member).elim (apart directory) (apart' directory)

structure Unobtrusive (s t : Session) : Prop where
  near : ∃ places, Near places t s ∧ Sources places
  formatterConfig : t.formatterConfig = s.formatterConfig
  calls : calls t = calls s

theorem silentUnobtrusive {s t : Session} (silent : Silent s t) : Unobtrusive s t :=
  ⟨⟨[],nearQuiet ⟨overwrittenRefl _ _,rfl,fun _ => rfl⟩ silent.1,fun _ member => by cases member⟩,silent.2,silent.1.calls⟩

def Considerate {σ : Type} (tools : Tools) (sink : Sink σ) : Prop :=
  ∀ g file old new s found r t, file.suffix = ".py" → s.tree.read s.cwd file = .ok found →
    exec (sink g file old new) tools s = (r,t) → Unobtrusive s t

/- A program text is no project file, so what is found around a source stays the same when it is written. -/
theorem sinkConsiderate (tools : Tools) (diff check : Bool) : Considerate tools (Program.sink diff check) := by
  intro g file old new s found r t text readable run
  by_cases diverted : check = true ∨ diff = true
  · exact silentUnobtrusive (calmSilent (withinEnds (standsSink diverted g file old new) run))
  simp only [not_or,Bool.not_eq_true] at diverted
  obtain ⟨rfl,rfl⟩ := diverted
  have kept := withinEnds (keptSink g file old new) run
  obtain ⟨tree,place,_,_,wrote,led,written,_⟩ := writeOver readable new.text.toUTF8 0
  obtain ⟨_,⟨_,wrote'⟩ | ⟨_,⟨fault,failed⟩,_⟩⟩ := sinkWrites run
  · cases wrote.symm.trans wrote'
    obtain ⟨name,last,forward,other⟩ := textNamed text
    obtain ⟨directory,rfl⟩ := followNamed last forward led
    refine ⟨⟨[directory ++ [name]],⟨written,kept.cwd,rootForSame kept written⟩,?_⟩,kept.formatterConfig,kept.calls⟩
    exact @sourcesWith [] _ _ (fun _ member => by cases member) (by simp) other
  · rw [wrote] at failed
    cases failed

structure Phases (tools : Tools) (file : Path) (before after : Settings → Session → Prop) (failed : Session → Prop) :
    Prop where
  silent : ∀ {given s t}, before given s → Silent s t → before given t
  unobtrusive : ∀ {given s t}, after given s → Unobtrusive s t → after given t
  wider : ∀ {given s}, after given s → before given s
  fails : ∀ {given s}, before given s → failed s
  formats : ∀ content given, Ensures tools (before given) (fun x => after x.2) failed (Formatter.format file content given)
  sorts : ∀ content given, Ensures tools (before given) (fun _ => before given) failed
    (Imports.sort content file (configIn given) ((given.lookup "line_length").getD .none))

section
variable {tools : Tools} {file : Path} {before after : Settings → Session → Prop} {failed : Session → Prop}
  (phases : Phases tools file before after failed)
include phases

theorem ensuresBefore {given : Settings} {m : Run α} (silent : Within Silent (fun _ => True) m) :
    Ensures tools (before given) (fun _ => before given) failed m := by
  intro s known r t run
  have kept := phases.silent known (withinEnds silent run)
  exact ⟨fun _ _ => kept,fun _ _ => phases.fails kept⟩

theorem ensuresAfter {given : Settings} {m : Run α} (silent : Within Silent (fun _ => True) m) :
    Ensures tools (after given) (fun _ => after given) failed m := by
  intro s known r t run
  have kept := phases.unobtrusive known (silentUnobtrusive (withinEnds silent run))
  exact ⟨fun _ _ => kept,fun _ _ => phases.fails (phases.wider kept)⟩

theorem ensuresAttempt {j : Job} (placed : j.file = file) (context : Nat) (given : Settings) :
    Ensures tools (before given) (fun x s => before x.2 s ∧ (x.1 ≠ .idle → after x.2 s)) failed
      (j.attempt context given) := by
  subst placed
  have debug (message : String) := silentStands (withinDebug calm .program message)
  refine ensuresBind (ensuresBefore phases (silentStands (withinEditedSince calm _ _ _ _ _))) (fun lines => ?_)
  split
  · exact ensuresBind (ensuresBefore phases (debug _)) (fun _ => ensuresPure (fun s known => ⟨known,by simp⟩))
  refine ensuresBind (phases.formats j.edited given) (fun (formatted,left) => ?_)
  refine ensuresBind (ensuresAfter phases (debug _)) (fun _ => ensuresBind (ensuresAfter phases (debug _)) (fun _ => ?_))
  refine ensuresBind (ensuresAfter phases (silentStands (withinDiffDocuments calm _ _))) (fun edits => ?_)
  refine ensuresBind (ensuresAfter phases (withinOfOption silentLasting trivial _)) (fun chunks => ?_)
  refine ensuresBind (ensuresAfter phases ?_) (fun chosen => ensuresBind (ensuresAfter phases (debug _)) (fun _ => ?_))
  · exact withinBind silentLasting (withinForM silentLasting _ (fun message _ => silentStands (withinDebug calm _ _)))
      (fun _ => withinPure silentLasting _)
  refine ensuresBind (ensuresAfter phases (silentObjection _ _ _ _)) (fun objection => ?_)
  cases objection <;> exact ensuresPure (fun s known => ⟨phases.wider known,fun _ => known⟩)

theorem ensuresAttempts {j : Job} (placed : j.file = file) (n context : Nat) (given : Settings) :
    Ensures tools (before given) (fun x s => before x.2 s ∧ (x.1 ≠ none → after x.2 s)) failed
      (j.attempts n context given) := by
  induction n generalizing context given with
  | zero =>
    rw [Job.attempts]
    refine ensuresBind (ensuresAttempt phases placed context given) (fun found => ?_)
    obtain ⟨outcome,left⟩ := found
    cases outcome with
    | idle => exact ensuresPure (fun s h => ⟨h.1,by simp⟩)
    | accepted => exact ensuresPure (fun s h => ⟨h.1,fun _ => h.2 (by simp)⟩)
    | objected => exact ensuresFail _ (fun s h => phases.fails h.1)
  | succ n ih =>
    rw [Job.attempts]
    refine ensuresBind (ensuresAttempt phases placed context given) (fun found => ?_)
    obtain ⟨outcome,left⟩ := found
    cases outcome with
    | idle => exact ensuresPure (fun s h => ⟨h.1,by simp⟩)
    | accepted => exact ensuresPure (fun s h => ⟨h.1,fun _ => h.2 (by simp)⟩)
    | objected =>
      intro s h
      refine ensuresBind (ensuresBefore phases (silentStands (withinDebug calm _ _))) (fun _ => ?_) s h.1
      exact ih (context + 1) left

end

section
variable {tools : Tools} {root path : Path} {before after : Settings → Session → Prop} {failed : Session → Prop}
  (phases : Phases tools (root.join path) before after failed)
include phases

theorem ensuresOpenJob (range : RevisionRange) (sorted : Bool) (given : Settings) :
    Ensures tools (before given) (fun job s => job.file = root.join path ∧ before given s) failed
      (openJob root range sorted given path) := by
  refine ensuresBind (ensuresBefore phases (silentStands (withinReadText calm _))) (fun text => ?_)
  dsimp only
  cases sorted with
  | false => exact ensuresBind (ensuresPure (fun _ h => h)) (fun _ => ensuresPure (fun _ h => ⟨rfl,h⟩))
  | true => exact ensuresBind (phases.sorts _ given) (fun _ => ensuresPure (fun _ h => ⟨rfl,h⟩))

theorem ensuresChange (range : RevisionRange) (sorted : Bool) (given : Settings) :
    Ensures tools (before given) (fun x s => before x.options s ∧ (x.gathered ≠ none → after x.options s)) failed
      (changeOf root range sorted given path) := by
  refine ensuresBind (ensuresOpenJob phases range sorted given) (fun job s opened => ?_)
  obtain ⟨placed,known⟩ := opened
  refine ensuresBind (ensuresAttempts phases placed _ _ given) (fun (result,left) => ?_) s known
  cases result with
  | none => exact ensuresPure (fun _ h => ⟨h.1,by simp⟩)
  | some result =>
    dsimp only
    split
    · rw [pure_bind]
      exact ensuresPure (fun _ h => ⟨h.1,fun _ => h.2 (by simp)⟩)
    · exact ensuresPure (fun _ h => ⟨h.1,by simp⟩)

theorem ensuresFile {σ : Type} {sink : Sink σ} (considerate : Considerate tools sink)
    (text : (root.join path).suffix = ".py") (range : RevisionRange) (sorted : Bool) (progress : Progress σ) :
    Ensures tools (before progress.options) (fun x => before x.options) failed
      (reformatFile root range sorted sink progress path) := by
  intro s known r u run
  rw [reformatFileChange] at run
  rcases execBindCases run with ⟨e,stopped,rfl⟩ | ⟨⟨found,left⟩,t,looked,rest⟩
  · exact ⟨by simp,fun _ _ => (ensuresChange phases range sorted _ s known _ _ stopped).2 e rfl⟩
  obtain ⟨known',called⟩ := (ensuresChange phases range sorted _ s known _ _ looked).1 _ rfl
  cases found with
  | none =>
    cases rest
    refine ⟨?_,by simp⟩
    rintro x ⟨⟩
    exact known'
  | some c =>
    obtain ⟨file,old,new⟩ := c
    obtain ⟨rfl,vetted⟩ := changeVetted looked
    obtain ⟨_,_,readable,_⟩ := vetted.read
    have still := changeStill looked
    rw [← still.tree,← still.cwd] at readable
    have handed {e : Except Failure σ} {v : Session} (sunk : exec (sink progress.gathered (root.join path) old new) tools t = (e,v)) :
        before left v :=
      phases.wider (phases.unobtrusive (called (by simp)) (considerate _ _ _ _ _ _ _ _ text readable sunk))
    rcases execBindCases rest with ⟨e,sunk,rfl⟩ | ⟨g,v,sunk,last⟩
    · exact ⟨by simp,fun _ _ => phases.fails (handed sunk)⟩
    · cases last
      refine ⟨?_,by simp⟩
      rintro x ⟨⟩
      exact handed sunk

end

structure Turn where
  file : Path
  given : Settings
  made : List Event

def turns {σ : Type} (root : Path) (range : RevisionRange) (sorted : Bool) (sink : Sink σ) (tools : Tools) :
    List Path → Progress σ → Session → List Turn
  | [],_,_ => []
  | path :: rest,progress,s =>
    let (result,t) := exec (reformatFile root range sorted sink progress path) tools s
    ⟨root.join path,progress.options,(calls t).drop (calls s).length⟩ ::
      match result with
      | .ok next => turns root range sorted sink tools rest next t
      | .error _ => []

def turnsFor {σ : Type} (sources : List Path) (range : RevisionRange) (sorted : Bool) (options : Settings) (sink : Sink σ)
    (start : σ) (tools : Tools) (s : Session) : List Turn :=
  match exec (listing sources range) tools s with
  | (.error _,_) => []
  | (.ok (root,files),t) => turns root range sorted sink tools files ⟨start,options⟩ t

def callsIn (taken : List Turn) : List (Path × Event) := taken.flatMap (fun turn => turn.made.map (Prod.mk turn.file))

theorem callsInMade (taken : List Turn) : (callsIn taken).map Prod.snd = taken.flatMap Turn.made := by
  induction taken with
  | nil => rfl
  | cons turn rest ih => simpa [callsIn] using ih

theorem callsInFile {taken : List Turn} {c : Path × Event} (member : c ∈ callsIn taken) : c.1 ∈ taken.map Turn.file := by
  obtain ⟨turn,inside,made⟩ := List.mem_flatMap.mp member
  obtain ⟨e,_,rfl⟩ := List.mem_map.mp made
  exact List.mem_map_of_mem inside

section
variable {σ : Type} {root : Path} {range : RevisionRange} {sorted : Bool} {sink : Sink σ} {tools : Tools}

theorem turnsListed (files : List Path) (progress : Progress σ) (s : Session) :
    (turns root range sorted sink tools files progress s).map Turn.file <+: files.map root.join := by
  induction files generalizing progress s with
  | nil => simp [turns]
  | cons path rest ih =>
    rw [turns]
    rcases exec (reformatFile root range sorted sink progress path) tools s with ⟨f | next,t⟩
    · simp
    · simpa using ih next t

theorem turnsLead {ongoing : List Turn → Settings → Session → Prop} {ended : List Turn → Session → Prop}
    {files : List Path} (step : ∀ path ∈ files, ∀ taken progress s r t, ongoing taken progress.options s →
      exec (reformatFile root range sorted sink progress path) tools s = (r,t) →
      (∀ next, r = .ok next →
        ongoing (taken ++ [⟨root.join path,progress.options,(calls t).drop (calls s).length⟩]) next.options t) ∧
      ∀ f, r = .error f → ended (taken ++ [⟨root.join path,progress.options,(calls t).drop (calls s).length⟩]) t)
    {taken : List Turn} {progress : Progress σ} {s u : Session} {r : Except Failure (Progress σ)}
    (start : ongoing taken progress.options s)
    (run : exec (files.foldlM (reformatFile root range sorted sink) progress) tools s = (r,u)) :
    (∀ last, r = .ok last → ongoing (taken ++ turns root range sorted sink tools files progress s) last.options u) ∧
    ∀ f, r = .error f → ended (taken ++ turns root range sorted sink tools files progress s) u := by
  induction files generalizing taken progress s with
  | nil =>
    cases run
    refine ⟨?_,by simp⟩
    rintro last ⟨⟩
    simpa [turns] using start
  | cons path rest ih =>
    rw [List.foldlM_cons] at run
    rcases visited : exec (reformatFile root range sorted sink progress path) tools s with ⟨f | next,t⟩
    · rw [execBindError visited] at run
      cases run
      refine ⟨by simp,fun e _ => ?_⟩
      rw [turns,visited]
      exact (step path (by simp) taken progress s _ _ start visited).2 f rfl
    · rw [execBindOk visited] at run
      have next' := (step path (by simp) taken progress s _ t start visited).1 next rfl
      rw [turns,visited,List.append_cons]
      exact ih (fun p inside => step p (by simp [inside])) next' run

end

end Retouch.Calling
