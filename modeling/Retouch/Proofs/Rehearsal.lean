import Retouch.Proofs.Dumping
import Retouch.Proofs.Footprint
import Retouch.Proofs.Parallel

/-! A run that only checks is a rehearsal of the run that writes. Both come to the same plan but for the check, list
the same files and find the same changes: what was written of earlier files is neither read again for a later one
nor taken for its settings. -/
namespace Retouch.Rehearsal
open Execution Listing Overwriting Stillness Planning Changes Footprint Parallel Dumping

theorem lightUngiven {r : Config.Reading} {key : String} (keyed : Keyed r.settings) (ungiven : ¬Given r key) :
    Light key r.settings := by
  intro v member
  have found := Lookup.foundOnly keyed member
  refine plainUntruthy ?_
  simpa [Given,settingIn,found] using ungiven

theorem lightPut {s : Settings} {key : String} {v : Value} (plain : plainOrEmpty v = true) : Light key (s.put key v) := by
  intro w member
  rcases Lookup.memPut member with ⟨_,rfl⟩ | ⟨apart,_⟩
  · exact plain
  · exact absurd rfl apart

section
variable {key : String} (level : key ≠ "log_level")
include level

theorem lightSwapped {s t : Settings} (light : Light key s) (run : Verbosity.swapIn s = .ok t) : Light key t := by
  unfold Verbosity.swapIn at run
  split at run
  · cases run
    exact light
  · obtain ⟨v,rfl⟩ := mappedPuts run
    intro w member
    rcases Lookup.memPut member with ⟨same,_⟩ | ⟨_,inside⟩
    · exact absurd same level
    · exact light w inside

theorem swappedApart {s t s' t' : Settings} (same : t.erase key = s.erase key) (left : Verbosity.swapIn s = .ok s')
    (right : Verbosity.swapIn t = .ok t') : t'.erase key = s'.erase key := by
  have found : t.lookup "log_level" = s.lookup "log_level" := by
    have both := congrArg (List.lookup "log_level") same
    simpa [Lookup.settingErased,Ne.symm level] using both
  unfold Verbosity.swapIn at left right
  rw [found] at right
  cases held : s.lookup "log_level" with
  | none =>
    rw [held] at left right
    cases left
    cases right
    exact same
  | some v =>
    rw [held] at left right
    dsimp only at left right
    cases other : Verbosity.swapped v with
    | error f =>
      rw [other] at left
      cases left
    | ok w =>
      rw [other] at left right
      cases left
      cases right
      rw [Lookup.putErasedOther _ (Ne.symm level),Lookup.putErasedOther _ (Ne.symm level),same]

end

theorem filterErased (s : Settings) (key : String) (keep : String × Value → Bool) :
    Settings.erase (s.filter keep) key = (s.erase key).filter keep := by
  simp only [Settings.erase,List.filter_filter]
  exact List.filter_congr (fun e _ => Bool.and_comm _ _)

structure OnlyChecks (r r' : Config.Reading) : Prop where
  settings : ∀ key, key ≠ "check" → settingIn r' key = settingIn r key
  check : settingIn r' "check" = .bool true
  effective : Matched (fun _ _ => True) (Config.dump r.effective) (Config.dump r'.effective)
  modified : Matched (fun _ _ => True) (Config.dump r.modified) (Config.dump r'.modified)

theorem readingsAlike {args args' tools s r t r' t'} (read : exec (Config.read args) tools s = (.ok r,t))
    (read' : exec (Config.read args') tools s = (.ok r',t'))
    (checks : r'.settings = r.settings.put "check" (.bool true)) (unchecked : ¬Given r "check") : OnlyChecks r r' := by
  obtain ⟨keyed,effective,modified,_⟩ := configRead read
  obtain ⟨_,effective',modified',_⟩ := configRead read'
  have light := lightUngiven keyed unchecked
  have light' : Light "check" r'.settings := checks ▸ lightPut rfl
  have same : r'.settings.erase "check" = r.settings.erase "check" := by rw [checks,Lookup.putErased]
  have bare : '"' ∉ "check".toList := by decide
  have own : Toml.writeKey "check" = .ok "check" := by cbv
  have level : "check" ≠ "log_level" := by decide
  refine ⟨fun key other => ?_,?_,?_,?_⟩
  · rw [settingIn,settingIn,checks,Lookup.settingPut,if_neg other]
  · rw [settingIn,checks,Lookup.settingPut,if_pos rfl]
    rfl
  · exact dumpApart bare own (lightSwapped level light effective) (lightSwapped level light' effective')
      (swappedApart level same effective effective')
  · have sifted {s : Settings} (light : Light "check" s) (keep : String × Value → Bool) : Light "check" (s.filter keep) :=
      fun v member => light v (List.mem_filter.mp member).1
    refine dumpApart bare own (lightSwapped level (sifted light _) modified) (lightSwapped level (sifted light' _) modified')
      (swappedApart level ?_ modified modified')
    rw [filterErased,filterErased,same]

section
variable {places : List (List String)}

theorem togetherLift {R : Session → Session → Prop} {P : α → β → Prop} {e : Except Failure α} {e' : Except Failure β}
    (matched : Matched P e e') : Together R P (liftM e : Run α) (liftM e' : Run β) :=
  fun _ _ _ related => ⟨related,matched⟩

theorem togetherStopped {R : Session → Session → Prop} {P : γ → δ → Prop} (f : Failure) (g : α → Run γ) (g' : β → Run δ) :
    Together R P (Run.fail f >>= g) (Run.fail f >>= g') :=
  fun _ _ _ related => ⟨related,.error f⟩

theorem agreesConsole (name : String) (level : Value) : Agrees (Beside places) (Program.openConsole name level) := by
  refine agreesCalm (besideSees places) (standsConsole name level) (fun tools a b _ => ?_)
  unfold Program.openConsole
  dsimp only
  split
  · rfl
  · split <;> rfl
  · rfl

theorem shownTogether {r r' : Config.Reading} (alike : OnlyChecks r r') :
    Together (Beside places) Eq (Program.printConfig r) (Program.printConfig r') := by
  refine togetherBind (besidePrint _ _) (fun _ _ _ => togetherBind (togetherLift alike.effective) (fun _ _ _ => ?_))
  refine togetherBind (besidePrint _ _) (fun _ _ _ => togetherBind (besidePrint _ _) (fun _ _ _ => ?_))
  refine togetherBind (togetherLift alike.modified) (fun _ _ _ => togetherBind (besidePrint _ _) (fun _ _ _ => ?_))
  exact besidePrint _ _

theorem agreesPaths (v : Value) : Agrees (Beside places) (Program.pathsOf v) := by
  have items : Agrees (Beside places) (commandsOf v) := by
    unfold commandsOf
    split
    · exact togetherPure rfl
    · exact togetherPure rfl
    · exact togetherPure rfl
    · exact togetherFail _
  refine agreesBind items (fun items => agreesBind (agreesMapM items (fun item => ?_)) (fun _ => togetherPure rfl))
  split
  · exact togetherPure rfl
  · exact togetherFail _

theorem agreesRange (text : String) : Agrees (Beside places) (RevisionRange.parse text) := by
  unfold RevisionRange.parse
  split
  · refine agreesBind togetherRead (fun tools => ?_)
    dsimp only
    split
    · exact togetherPure rfl
    · exact agreesBind (agreesNote (besideSees places) _ _ _) (fun _ => togetherFail _)
  · exact togetherPure rfl

theorem plansTogether {r r' : Config.Reading}
    (others : ∀ key, key ≠ "check" → key ≠ "diff" → settingIn r' key = settingIn r key)
    (shown : (settingIn r "log_level").number?.getD 30 ≤ Verbosity.lowest →
      Together (Beside places) Eq (Program.printConfig r) (Program.printConfig r')) (name : String) :
    Together (Beside places) (fun plan plan' => plan' =
        { plan with check := (settingIn r' "check").truthy, diff := (settingIn r' "diff").truthy })
      (planFrom name r) (planFrom name r') := by
  have options : Program.formatterOptions (settingIn r') = Program.formatterOptions (settingIn r) := by
    unfold Program.formatterOptions
    dsimp only
    rw [others "config" (by decide) (by decide),others "line_length" (by decide) (by decide),
      others "skip_string_normalization" (by decide) (by decide)]
  unfold planFrom
  rw [others "log_level" (by decide) (by decide),others "isort" (by decide) (by decide),
    others Options.sourceKey (by decide) (by decide),others "revision" (by decide) (by decide),
    others "lint" (by decide) (by decide),options]
  refine togetherBind (agreesConsole name _) (fun _ _ _ => ?_)
  refine togetherAside shown (togetherBind togetherRead (fun tools tools' both => ?_))
  subst both
  dsimp only
  split
  · exact togetherBind (agreesNote (besideSees places) _ _ _) (fun _ _ _ => togetherStopped _ _ _)
  refine togetherBind (agreesPaths _) (fun paths paths' both => ?_)
  subst both
  split
  · refine togetherBind (agreesRange _) (fun range range' both => ?_)
    subst both
    exact togetherPure rfl
  · exact togetherStopped _ _ _

end

theorem sinkBeside {places : List (List String)} {a b : Session} {file : Path} {found : ByteArray × Int}
    (plain : Plain file) (readable : a.tree.read a.cwd file = .ok found) (beside : Beside places a b) (tools : Tools)
    (g : Bool) (old new : Document) :
    ∃ c, exec (Program.sink false false g file old new) tools a = (.ok true,c) ∧ c.out = a.out ∧
      Beside (places ++ [file.parts]) c b := by
  obtain ⟨tree,place,_,_,wrote,led,written,_⟩ := writeOver readable new.text.toUTF8 0
  obtain rfl : place = file.parts := followPlain plain led
  rcases run : exec (Program.sink false false g file old new) tools a with ⟨r,c⟩
  have kept := withinEnds (keptSink g file old new) run
  obtain ⟨_,⟨⟨g',rfl⟩,wrote'⟩ | ⟨_,⟨fault,failed⟩,_⟩⟩ := sinkWrites run
  · obtain rfl := sinkGathers run
    cases wrote.symm.trans wrote'
    refine ⟨c,rfl,kept.out,⟨⟨overwrittenTrans beside.near.tree written,kept.cwd.trans beside.near.cwd,fun sources => ?_⟩,
      kept.verified.trans beside.verified,kept.formatterConfig.trans beside.formatterConfig⟩⟩
    exact (rootForSame kept written sources).trans (beside.near.roots sources)
  · rw [wrote] at failed
    cases failed

section
variable {root : Path} (plain : Plain root) (tools : Tools) (range : RevisionRange) (sorted : Bool)
include plain

theorem fileBeside {path : Path} (normal : Normal path) (text : (root.join path).suffix = ".py")
    {places : List (List String)} (outside : (root.join path).parts ∉ places) {options : Settings}
    (free : Free places (configIn options)) (g : Bool) {a b : Session} (beside : Beside places a b) :
    (∃ f c d, exec (changeOf root range sorted options path) tools a = (.error f,c) ∧
      exec (changeOf root range sorted options path) tools b = (.error f,d)) ∨
    ∃ found left said c d places', changeAt root range sorted options path tools a = found ∧
      exec (changeOf root range sorted options path) tools b = (.ok ⟨found,left⟩,d) ∧
      exec (reformatFile root range sorted (Program.sink false false) ⟨g,options⟩ path) tools a =
        (.ok ⟨found.isSome || g,left⟩,c) ∧
      c.out = a.out ++ said ∧ d.out = b.out ++ said ∧ Beside places' c d ∧ Free places' (configIn left) ∧
        (places' = places ∨ places' = places ++ [(root.join path).parts]) := by
  have whole := joinPlain plain normal
  obtain ⟨echoing,matched⟩ := @agreesChange places a.out b.out _ _ (apartPlain whole outside) _ free range sorted
    tools a b ⟨beside,"",by simp,by simp⟩
  rw [reformatFileChange]
  unfold changeAt
  rcases looked : exec (changeOf root range sorted options path) tools a with ⟨r,c⟩
  rcases looked' : exec (changeOf root range sorted options path) tools b with ⟨r',d⟩
  rw [looked,looked'] at echoing matched
  obtain rfl : r = r' := matchedEq matched
  obtain ⟨said,out,out'⟩ := echoing.said
  cases r with
  | error f => exact .inl ⟨f,c,d,rfl,rfl⟩
  | ok progress =>
    obtain ⟨found,left⟩ := progress
    have used := changeOptions looked
    rw [execBindOk looked]
    cases found with
    | none =>
      refine .inr ⟨none,left,said,c,d,places,rfl,rfl,rfl,out,out',echoing.beside,?_,.inl rfl⟩
      rcases used with rfl | ⟨_,rfl⟩
      · exact freeErased free
      · exact free
    | some change =>
      obtain ⟨file,old,new⟩ := change
      obtain ⟨rfl,vetted⟩ := changeVetted looked
      obtain rfl := used.resolve_right (fun idle => Option.some_ne_none _ idle.1)
      obtain ⟨_,_,readable,_⟩ := vetted.read
      have still := changeStill looked
      rw [← still.tree,← still.cwd] at readable
      obtain ⟨e,sunk,silent,after⟩ := sinkBeside whole readable echoing.beside tools g old new
      obtain ⟨name,last,_,other⟩ := textNamed text
      refine .inr ⟨_,options.erase "config",said,e,d,_,rfl,rfl,execBindOk sunk,silent.trans out,out',after,
        .inl ⟨?_,sourcesWith (freeSources free) last other⟩,.inr rfl⟩
      rw [configIn,Lookup.settingErased]
      rfl

theorem fileTogether {path : Path} (normal : Normal path) (text : (root.join path).suffix = ".py")
    {places : List (List String)} (outside : (root.join path).parts ∉ places) {options : Settings}
    (free : Free places (configIn options)) (g : Bool) {a b : Session} (beside : Beside places a b) :
    changeAt root range sorted options path tools b = changeAt root range sorted options path tools a ∧
    ((∃ f c d, exec (reformatFile root range sorted (Program.sink false false) ⟨g,options⟩ path) tools a = (.error f,c) ∧
      exec (reformatFile root range sorted (Program.sink false true) ⟨g,options⟩ path) tools b = (.error f,d)) ∨
    ∃ g' left c d places',
      exec (reformatFile root range sorted (Program.sink false false) ⟨g,options⟩ path) tools a = (.ok ⟨g',left⟩,c) ∧
      exec (reformatFile root range sorted (Program.sink false true) ⟨g,options⟩ path) tools b = (.ok ⟨g',left⟩,d) ∧
      Beside places' c d ∧ Free places' (configIn left) ∧
        (places' = places ∨ places' = places ++ [(root.join path).parts])) := by
  rcases fileBeside plain tools range sorted normal text outside free g beside with
    ⟨f,c,d,failed,failed'⟩ | ⟨found,left,_,c,d,places',here,looked,visited,_,_,beside',free',grown⟩
  · rw [reformatFileChange,reformatFileChange,execBindError failed,execBindError failed',changeAt,changeAt,failed,failed']
    exact ⟨rfl,.inl ⟨f,c,d,rfl,rfl⟩⟩
  · refine ⟨by rw [here,changeAt,looked],.inr ⟨_,left,c,d,places',visited,?_,beside',free',grown⟩⟩
    rw [reformatFileChange,execBindOk looked]
    cases found <;> rfl

omit plain in
theorem outsideRest {path : Path} {rest : List Path} {places places' : List (List String)}
    (normal : ∀ p ∈ path :: rest, Normal p) (distinct : (path :: rest).Nodup)
    (outside : ∀ p ∈ path :: rest, (root.join p).parts ∉ places)
    (grown : places' = places ∨ places' = places ++ [(root.join path).parts]) :
    ∀ p ∈ rest, (root.join p).parts ∉ places' := by
  intro p inside member
  have before : (root.join p).parts ∉ places := outside p (by simp [inside])
  rcases grown with rfl | rfl
  · exact before member
  · have here := (List.mem_append.mp member).resolve_left before
    have equal := joinInjective (normal p (by simp [inside])) (normal path (by simp)) (List.mem_singleton.mp here)
    exact (List.nodup_cons.mp distinct).1 (equal ▸ inside)

/- The run: all files, as long as each has a place of its own. -/
theorem filesTogether {files : List Path} (normal : ∀ p ∈ files, Normal p) (distinct : files.Nodup)
    (texts : ∀ p ∈ files, (root.join p).suffix = ".py") {places : List (List String)}
    (outside : ∀ p ∈ files, (root.join p).parts ∉ places) {options : Settings} (free : Free places (configIn options))
    (g : Bool) {a b : Session} (beside : Beside places a b) :
    changes root range sorted (Program.sink false true) tools files ⟨g,options⟩ b =
      changes root range sorted (Program.sink false false) tools files ⟨g,options⟩ a ∧
    Matched (fun _ _ => True)
      (exec (files.foldlM (reformatFile root range sorted (Program.sink false false)) ⟨g,options⟩) tools a).1
      (exec (files.foldlM (reformatFile root range sorted (Program.sink false true)) ⟨g,options⟩) tools b).1 := by
  induction files generalizing places options g a b with
  | nil => exact ⟨rfl,.ok trivial⟩
  | cons path rest ih =>
    obtain ⟨same,ending⟩ := fileTogether plain tools range sorted (normal path (by simp))
      (texts path (by simp)) (outside path (by simp)) free g beside
    rw [List.foldlM_cons,List.foldlM_cons]
    unfold changes
    rw [same]
    rcases ending with ⟨f,c,d,failed,failed'⟩ | ⟨g',left,c,d,places',visited,visited',beside',free',grown⟩
    · rw [failed,failed',execBindError failed,execBindError failed']
      exact ⟨rfl,.error f⟩
    · obtain ⟨later,matched⟩ := ih (fun p inside => normal p (by simp [inside])) (List.nodup_cons.mp distinct).2
        (fun p inside => texts p (by simp [inside])) (outsideRest normal distinct outside grown) free' g' beside'
      rw [visited,visited',execBindOk visited,execBindOk visited']
      dsimp only
      rw [later]
      exact ⟨rfl,matched⟩

end

theorem commandsUngiven {v : Value} (ungiven : v.truthy = false) :
    commandsOf v = pure [] ∨ commandsOf v = Run.fail .wrongKind := by
  cases v with
  | none => exact .inr rfl
  | bool => exact .inr rfl
  | int => exact .inr rfl
  | float => exact .inr rfl
  | text t =>
    obtain rfl : t = "" := by simpa [Value.truthy] using ungiven
    exact .inl rfl
  | list items =>
    obtain rfl : items = [] := by simpa [Value.truthy] using ungiven
    exact .inl rfl
  | table entries =>
    obtain rfl : entries = [] := by simpa [Value.truthy] using ungiven
    exact .inl rfl

theorem concludedAlike (plan plan' : Program.Plan) (same : plan'.linters = plan.linters)
    (unlinted : plan.linters.truthy = false) (root : Path) (files : List Path) (g g' : Bool) (tools : Tools)
    (a b : Session) : Matched (fun _ _ => True) (exec (conclude plan root files g) tools a).1
      (exec (conclude plan' root files g') tools b).1 := by
  unfold conclude
  rw [same]
  rcases commandsUngiven unlinted with none | kind
  · rw [none]
    exact .ok trivial
  · rw [kind]
    exact .error _

theorem visitedTogether {plan : Program.Plan} {tools : Tools} {u v v' : Session} {root : Path} {files : List Path}
    (normally : NamesNormally tools) (unlinted : plan.linters.truthy = false)
    (mine : exec (listing plan.paths plan.range) tools u = (.ok (root,files),v)) (listed : Beside [] v v') :
    changes root plan.range plan.sorted (Program.sink false true) tools files ⟨false,plan.options⟩ v' =
      changes root plan.range plan.sorted (Program.sink false false) tools files ⟨false,plan.options⟩ v ∧
    Matched (fun _ _ => True)
      (exec (files.foldlM (reformatFile root plan.range plan.sorted (Program.sink false false)) ⟨false,plan.options⟩ >>=
        fun progress => conclude plan root files progress.gathered) tools v).1
      (exec (files.foldlM (reformatFile root plan.range plan.sorted (Program.sink false true)) ⟨false,plan.options⟩ >>=
        fun progress => conclude { plan with check := true } root files progress.gathered) tools v').1 := by
  obtain ⟨changes,visits⟩ := filesTogether (listingRoot mine) tools plan.range plan.sorted
    (fun p member => (listedFile mine member).2 normally) (listedNodup (listingOrdered mine))
    (fun p member => (listedFile mine member).1) (by simp) (.inr rfl : Free [] (configIn plan.options)) false listed
  refine ⟨changes,?_⟩
  rcases ours : exec (files.foldlM (reformatFile root plan.range plan.sorted (Program.sink false false))
    ⟨false,plan.options⟩) tools v with ⟨e,w⟩
  rcases theirs : exec (files.foldlM (reformatFile root plan.range plan.sorted (Program.sink false true))
    ⟨false,plan.options⟩) tools v' with ⟨e',w'⟩
  rw [ours,theirs] at visits
  cases visits with
  | error f =>
    rw [execBindError ours,execBindError theirs]
    exact .error f
  | ok _ =>
    rw [execBindOk ours,execBindOk theirs]
    exact concludedAlike plan { plan with check := true } rfl unlinted root files _ _ tools w w'

theorem runsTogether (name : String) {args args' tools s r t r' t'} (normally : NamesNormally tools)
    (read : exec (Config.read args) tools s = (.ok r,t)) (read' : exec (Config.read args') tools s = (.ok r',t'))
    (alike : OnlyChecks r r') (unchecked : ¬Given r "check") (undiffed : ¬Given r "diff") (unlinted : ¬Given r "lint") :
    handedOn name args' tools s = handedOn name args tools s ∧
    Matched (fun _ _ => True) (exec (Program.run name args) tools s).1 (exec (Program.run name args') tools s).1 := by
  have start : Beside [] t t' := (besideSees []).quiet ⟨⟨overwrittenRefl _ _,rfl,fun _ => rfl⟩,rfl,rfl⟩
    (withinEnds (standsConfig args) read) (withinEnds (standsConfig args') read')
  have prepared : exec (Program.prepare name args) tools s = exec (planFrom name r) tools t := by
    rw [prepareReads,execBindOk read]
  have prepared' : exec (Program.prepare name args') tools s = exec (planFrom name r') tools t' := by
    rw [prepareReads,execBindOk read']
  obtain ⟨planned,plans⟩ := plansTogether (fun key other _ => alike.settings key other) (fun _ => shownTogether alike) name
    tools t t' start
  rw [← prepared,← prepared'] at planned plans
  unfold handedOn
  rw [runStages,runStages]
  rcases one : exec (Program.prepare name args) tools s with ⟨p,u⟩
  rcases other : exec (Program.prepare name args') tools s with ⟨p',u'⟩
  rw [one,other] at planned plans
  cases plans with
  | error f =>
    rw [execBindError one,execBindError other]
    exact ⟨rfl,.error f⟩
  | @ok plan plan' same =>
    have follows := planFollows (prepared.symm.trans one)
    rw [alike.check,alike.settings "diff" (by decide),← follows.diff] at same
    obtain rfl : plan' = { plan with check := true } := same
    rw [execBindOk one,execBindOk other]
    obtain ⟨listed,lists⟩ := agreesListing (besideSees []) plan.paths plan.range tools u u' planned
    rcases mine : exec (listing plan.paths plan.range) tools u with ⟨l,v⟩
    rcases yours : exec (listing plan.paths plan.range) tools u' with ⟨l',v'⟩
    rw [mine,yours] at listed lists
    dsimp only
    rw [mine,yours]
    cases lists with
    | error f =>
      rw [execBindError mine,execBindError yours]
      exact ⟨rfl,.error f⟩
    | @ok found _ same =>
      subst same
      obtain ⟨root,files⟩ := found
      rw [execBindOk mine,execBindOk yours]
      have check : plan.check = false := by rw [follows.check]; simpa [Given] using unchecked
      have diff : plan.diff = false := by rw [follows.diff]; simpa [Given] using undiffed
      have linters : plan.linters.truthy = false := by rw [follows.linters]; simpa [Given] using unlinted
      dsimp only
      rw [check,diff]
      exact visitedTogether normally linters mine listed

def bytesAt (t : FileTree) (place : List String) : Option ByteArray :=
  match t.at? place with
  | some (.file content _) => some content
  | _ => none

theorem bytesDiffer {tools sorted s u c} (vetted : Vetted tools sorted s u c) (plain : Plain c.1) :
    bytesAt s.tree c.1.parts ≠ some c.2.2.text.toUTF8 := by
  obtain ⟨modified,raw,found,text⟩ := vetted.read
  rw [bytesAt,readPlain plain found]
  intro equal
  obtain rfl : raw = c.2.2.text := String.toByteArray_inj.mp (Option.some.inj equal)
  exact vetted.changed (by rw [text,vetted.asRead])

structure Foretold (name : String) (args args' : List String) (tools : Tools) (s : Session) : Prop where
  handed : handedOn name args' tools s = handedOn name args tools s
  ending : Matched (fun _ _ => True) (exec (Program.run name args) tools s).1 (exec (Program.run name args') tools s).1
  differing : ∀ place, bytesAt (exec (Program.run name args) tools s).2.tree place ≠ bytesAt s.tree place ↔
    ∃ c ∈ handedOn name args tools s, c.1.parts = place
  written : ∀ c ∈ handedOn name args tools s,
    bytesAt (exec (Program.run name args) tools s).2.tree c.1.parts = some c.2.2.text.toUTF8
  kept : (exec (Program.run name args') tools s).2.tree = s.tree
  status : ∀ n, (exec (Program.run name args') tools s).1 = .ok n →
    (n = 1 ↔ ∃ place, bytesAt (exec (Program.run name args) tools s).2.tree place ≠ bytesAt s.tree place) ∧ (n ≠ 1 → n = 0)

theorem writtenBytes (name : String) {args tools s r t} (normally : NamesNormally tools)
    (read : exec (Config.read args) tools s = (.ok r,t)) (unchecked : ¬Given r "check") (undiffed : ¬Given r "diff") :
    (∀ c ∈ handedOn name args tools s,
      bytesAt (exec (Program.run name args) tools s).2.tree c.1.parts = some c.2.2.text.toUTF8) ∧
    ∀ place, bytesAt (exec (Program.run name args) tools s).2.tree place ≠ bytesAt s.tree place ↔
      ∃ c ∈ handedOn name args tools s, c.1.parts = place := by
  rcases run : exec (Program.run name args) tools s with ⟨e,u⟩
  rcases runVisits normally run with ⟨f,rfl,calm,nothing,_⟩ | ⟨plan,_,root,files,v,prepared,_,visiting⟩
  · rw [nothing]
    simp [calm.tree]
  obtain ⟨r',_,again,follows⟩ := prepareFollows prepared
  rw [read] at again
  cases again
  have written : ∀ c ∈ handedOn name args tools s, bytesAt u.tree c.1.parts = some c.2.2.text.toUTF8 := by
    intro c member
    rw [bytesAt,visiting.marked.written (by rw [follows.check]; simpa [Given] using unchecked)
      (by rw [follows.diff]; simpa [Given] using undiffed) c member]
  refine ⟨written,fun place => ⟨fun differs => ?_,?_⟩⟩
  · by_cases member : place ∈ places (handedOn name args tools s)
    · exact List.mem_map.mp member
    · exact absurd (by rw [bytesAt,visiting.marked.overwritten.others place member]; rfl) differs
  · rintro ⟨c,member,rfl⟩
    obtain ⟨path,inside,named⟩ := visiting.marked.listed c member
    have plain : Plain c.1 := named ▸ joinPlain visiting.plain (visiting.normal path inside)
    rw [written c member]
    exact (bytesDiffer (visiting.marked.vetted c member) plain).symm

theorem checkedRun (name : String) {args tools s r t} (normally : NamesNormally tools)
    (read : exec (Config.read args) tools s = (.ok r,t)) (checked : Given r "check") :
    (exec (Program.run name args) tools s).2.tree = s.tree ∧
    ∀ n, (exec (Program.run name args) tools s).1 = .ok n → n = if (handedOn name args tools s).isEmpty then 0 else 1 := by
  rcases run : exec (Program.run name args) tools s with ⟨e,u⟩
  rcases runVisits normally run with ⟨f,rfl,calm,_,_⟩ | ⟨plan,_,root,files,v,prepared,_,visiting⟩
  · exact ⟨calm.tree,by simp⟩
  obtain ⟨r',_,again,follows⟩ := prepareFollows prepared
  rw [read] at again
  cases again
  have check : plan.check = true := follows.check.trans checked
  refine ⟨visiting.marked.kept (.inl check),fun n finished => ?_⟩
  rw [visiting.status n finished,check]
  cases (handedOn name args tools s).isEmpty <;> rfl

theorem checkForetellsRun (name : String) (args args' : List String) (tools : Tools) (s t t' : Session)
    (r r' : Config.Reading) (normally : NamesNormally tools) (read : exec (Config.read args) tools s = (.ok r,t))
    (read' : exec (Config.read args') tools s = (.ok r',t')) (checks : r'.settings = r.settings.put "check" (.bool true))
    (unchecked : ¬Given r "check") (undiffed : ¬Given r "diff") (unlinted : ¬Given r "lint") :
    Foretold name args args' tools s := by
  have alike := readingsAlike read read' checks unchecked
  have checked : Given r' "check" := by rw [Given,alike.check]; rfl
  obtain ⟨handed,ending⟩ := runsTogether name normally read read' alike unchecked undiffed unlinted
  obtain ⟨written,differing⟩ := writtenBytes name normally read unchecked undiffed
  obtain ⟨kept,status⟩ := checkedRun name normally read' checked
  refine ⟨handed,ending,differing,written,kept,fun n finished => ?_⟩
  have counted := status n finished
  rw [handed] at counted
  simp only [differing]
  cases found : handedOn name args tools s with
  | nil => simp [counted,found]
  | cons c rest =>
    rw [found] at counted
    simp only [List.isEmpty_cons,Bool.false_eq_true,if_false] at counted
    subst counted
    exact ⟨by simp only [true_iff]; exact ⟨c.1.parts,c,by simp,rfl⟩,by simp⟩

def pathSettings : Settings :=
  [("src",.list [.text "a.py"]),("revision",.text "HEAD"),("diff",.bool false),("check",.bool false),("isort",.bool false),
    ("lint",.list []),("config",.none),("log_level",.int 30),("skip_string_normalization",.none),("line_length",.none)]

theorem pathEvaluated (required : Bool) : Options.evaluate ⟨required,false,[]⟩ ["a.py"] = .ok pathSettings := by
  have told : Options.tokens ⟨required,false,[]⟩ ["a.py"] = .ok [.word "a.py"] := by cbv
  rw [Options.evaluate,told]
  cases required <;> rfl

theorem checkEvaluated (required : Bool) :
    Options.evaluate ⟨required,false,[]⟩ ["--check","a.py"] = .ok (pathSettings.put "check" (.bool true)) := by
  obtain ⟨o,third,told⟩ : ∃ o, (Options.table false)[3]? = some o ∧
      Options.tokens ⟨required,false,[]⟩ ["--check","a.py"] = .ok [.option o "--check" none,.word "a.py"] := by
    have dashed : "--check".startsWith "-" = true := by cbv
    have found : Options.Grammar.find? ⟨required,false,[]⟩ "--check" = (Options.table false)[3]? := rfl
    have path : Options.tokens ⟨required,false,[]⟩ ["a.py"] = .ok [.word "a.py"] := by cbv
    rw [Options.tokens,if_neg (by decide),Options.tokenOf,dashed,found,path]
    exact ⟨_,rfl,rfl⟩
  cases third
  rw [Options.evaluate,told]
  cases required <;> rfl

theorem returnLoaded : exec (Config.load ["a.py"]) Rewriting.returnTools Rewriting.returnSession =
    (.ok [],(exec (Config.load ["a.py"]) Rewriting.returnTools Rewriting.returnSession).2) := by
  obtain ⟨preset,loaded,none⟩ := @execOkPart _ _ (Config.load ["a.py"]) List.isEmpty Rewriting.returnTools
    Rewriting.returnSession true (by decide +kernel)
  rwa [List.isEmpty_iff.mp none] at loaded

theorem returnCheckHandsOn :
    (∃ c ∈ handedOn "darker" ["--check","a.py"] Rewriting.returnTools Rewriting.returnSession, c.1.parts = ["r","a.py"]) ∧
    (exec (Program.run "darker" ["--check","a.py"]) Rewriting.returnTools Rewriting.returnSession).2.tree =
      Rewriting.returnTree Rewriting.returnText ∧
    ∀ n, (exec (Program.run "darker" ["--check","a.py"]) Rewriting.returnTools Rewriting.returnSession).1 = .ok n → n = 1 := by
  obtain ⟨r,read,settings⟩ := configReads Rewriting.returnTools Rewriting.returnSession pathEvaluated rfl
    returnLoaded (by simp [pathSettings])
  obtain ⟨r',read',settings'⟩ := configReads Rewriting.returnTools Rewriting.returnSession checkEvaluated rfl
    returnLoaded (by simp [pathSettings,Settings.put])
  have ungiven {key : String} (off : ((pathSettings.lookup key).getD .none).truthy = false) : ¬Given r key := by
    rw [Given,settingIn,settings,off]
    decide
  have foretold := checkForetellsRun "darker" ["a.py"] ["--check","a.py"] Rewriting.returnTools Rewriting.returnSession _ _
    r r' returnNamesNormally read read' (settings' ▸ settings ▸ rfl) (ungiven rfl) (ungiven rfl) (ungiven rfl)
  have differs : bytesAt (exec (Program.run "darker" ["a.py"]) Rewriting.returnTools Rewriting.returnSession).2.tree
      ["r","a.py"] ≠ bytesAt Rewriting.returnSession.tree ["r","a.py"] := by
    rw [Rewriting.returnRun]
    intro equal
    have same : "a = 1\nb = 2\n" = Rewriting.returnText := String.toByteArray_inj.mp (Option.some.inj equal)
    exact absurd same (by decide)
  refine ⟨?_,foretold.kept,fun n finished => (foretold.status n finished).1.mpr ⟨_,differs⟩⟩
  rw [foretold.handed]
  exact (foretold.differing ["r","a.py"]).mp differs

end Retouch.Rehearsal
