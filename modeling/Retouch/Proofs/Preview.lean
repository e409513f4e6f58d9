import Retouch.Proofs.Hunks
import Retouch.Proofs.Rehearsal

/-! A run that shows diffs, beside the run that writes. Both look for the same changes and say the same on the way: the
chunks of each candidate that was refused. What one of them writes is what the other shows, up to the first change of a
file outside the working directory. -/
namespace Retouch.Preview
open Execution Inquiry Candidates Course Listing Overwriting Stillness Planning Changes Footprint Parallel Rehearsal

def below? (cwd : Path) (c : Change) : Option Path := (Path.resolve cwd c.1).relativeTo? cwd

def diffLinesOf (cwd : Path) (c : Change) : List String :=
  match below? cwd c with
  | none => []
  | some shown => (Unified.lines shown.render c.2.1.lines c.2.2.lines).map (fun line =>
    String.ofList ((line.toList.reverse.dropWhile (· == '\n')).reverse))

def diffOf (cwd : Path) (c : Change) : String := joinLines (diffLinesOf cwd c)

def shownOf (cwd : Path) (c : Change) : String := "\n".intercalate (diffLinesOf cwd c) ++ "\n"

abbrev Report := List (String × Option Change)

def Report.handed (report : Report) : List Change := report.flatMap (fun visit => visit.2.toList)

def Report.said (report : Report) : String := String.join (report.map Prod.fst)

def Report.shown (cwd : Path) (report : Report) : String :=
  String.join (report.map (fun (said,change) => said ++ change.elim "" (shownOf cwd)))

theorem handedCons (said : String) (found : Option Change) (report : Report) :
    Report.handed ((said,found) :: report) = found.toList ++ report.handed := List.flatMap_cons

theorem intercalateEnded {lines : List String} (filled : lines ≠ []) : "\n".intercalate lines ++ "\n" = joinLines lines := by
  induction lines with
  | nil => exact absurd rfl filled
  | cons line rest ih =>
    by_cases last : rest = []
    · simp [last,joinLines]
    · rw [String.intercalate_cons_of_ne_nil last,String.append_assoc,ih last]
      simp [joinLines,String.join_cons]

theorem shownCases (cwd : Path) (c : Change) :
    (diffLinesOf cwd c ≠ [] ∧ shownOf cwd c = diffOf cwd c) ∨
      diffLinesOf cwd c = [] ∧ (shownOf cwd c).length = (diffOf cwd c).length + 1 := by
  by_cases empty : diffLinesOf cwd c = []
  · refine .inr ⟨empty,?_⟩
    rw [shownOf,diffOf,empty]
    decide
  · exact .inl ⟨empty,intercalateEnded empty⟩

theorem emptyDiff {cwd : Path} {c : Change} (below : (below? cwd c).isSome = true) (empty : diffLinesOf cwd c = []) :
    c.2.1.lines = c.2.2.lines := by
  unfold diffLinesOf at empty
  obtain ⟨shown,found⟩ := Option.isSome_iff_exists.mp below
  rw [found] at empty
  exact Hunks.unshownSame (List.map_eq_nil_iff.mp empty)

theorem joinedLength (text : String) (texts : List String) :
    (String.join (text :: texts)).length = text.length + (String.join texts).length := by
  rw [String.join_cons,String.length_append]

theorem shownLength (cwd : Path) (report : Report) :
    ∃ blank, (report.shown cwd).length = (String.join (report.handed.map (diffOf cwd))).length + report.said.length + blank ∧
      (blank = 0 ↔ ∀ c ∈ report.handed, diffLinesOf cwd c ≠ []) := by
  induction report with
  | nil => exact ⟨0,rfl,by simp [Report.handed]⟩
  | cons visit rest ih =>
    obtain ⟨blank,total,filled⟩ := ih
    obtain ⟨said,change⟩ := visit
    simp only [Report.shown,Report.said,Report.handed,List.map_cons,List.flatMap_cons,joinedLength,String.length_append]
      at total filled ⊢
    rw [total]
    cases change with
    | none => exact ⟨blank,by simp; omega,by simpa using filled⟩
    | some c =>
      simp only [Option.elim,Option.toList_some,List.singleton_append,List.map_cons,joinedLength,List.forall_mem_cons]
      rcases shownCases cwd c with ⟨full,same⟩ | ⟨empty,longer⟩
      · exact ⟨blank,by rw [same]; omega,by simp [filled,full]⟩
      · exact ⟨blank + 1,by omega,by simp [empty]⟩

theorem shownIffDiffs (cwd : Path) (report : Report) :
    report.shown cwd = String.join (report.handed.map (diffOf cwd)) ↔
      report.said = "" ∧ ∀ c ∈ report.handed, diffLinesOf cwd c ≠ [] := by
  constructor
  · intro same
    obtain ⟨blank,total,filled⟩ := shownLength cwd report
    rw [same] at total
    exact ⟨String.length_eq_zero_iff.mp (by omega),filled.mp (by omega)⟩
  · rintro ⟨silent,full⟩
    induction report with
    | nil => rfl
    | cons visit rest ih =>
      obtain ⟨said,change⟩ := visit
      simp only [Report.shown,Report.said,Report.handed,List.map_cons,List.flatMap_cons,String.join_cons,
        String.append_eq_empty_iff] at ih silent full ⊢
      obtain ⟨rfl,later⟩ := silent
      rw [ih later (fun c member => full c (by simp [member]))]
      cases change with
      | none => simp
      | some c =>
        rcases shownCases cwd c with ⟨_,same⟩ | ⟨empty,_⟩
        · simp [same,String.join_cons]
        · exact absurd empty (full c (by simp))

theorem execShown {tools : Tools} (piped : tools.terminal.interactive = false) (g : Bool) (c : Change) {cwd : Path} {s : Session}
    (here : s.cwd = cwd) :
    exec (Program.sink true false g c.1 c.2.1 c.2.2) tools s = match below? cwd c with
      | some _ => (.ok true,{ s with out := s.out ++ shownOf cwd c })
      | none => (.error (.outside (Path.resolve cwd c.1) cwd),s) := by
  subst here
  change exec (Program.printDiff c.1 c.2.1 c.2.2 >>= fun _ => pure true) tools s = _
  rw [Program.printDiff]
  simp only [bind_assoc]
  rw [execBindOk (execGet tools s)]
  unfold shownOf diffLinesOf below?
  cases (Path.resolve s.cwd c.1).relativeTo? s.cwd with
  | none => rfl
  | some shown =>
    change exec (read >>= fun tools => Run.print _ >>= fun _ => pure true) tools s = _
    rw [execBindOk (execRead tools s),piped]
    rfl

def hidden? (cwd : Path) (handed : List Change) : Option Change := handed.find? (fun c => (below? cwd c).isNone)

def Shows (cwd : Path) (report : Report) (out : String) (ending : Except Failure α × Session) : Prop :=
  match hidden? cwd report.handed with
  | none => ∃ x s, ending = (.ok x,s) ∧ s.out = out ++ report.shown cwd
  | some c => ∃ s, ending = (.error (.outside (Path.resolve cwd c.1) cwd),s)

theorem hiddenAppend (cwd : Path) (handed handed' : List Change) :
    hidden? cwd (handed ++ handed') = (hidden? cwd handed).or (hidden? cwd handed') := List.find?_append

theorem showsBehind {cwd : Path} {said : String} {found : Option Change} {report : Report} {out : String}
    {ending : Except Failure α × Session} (seen : hidden? cwd found.toList = none)
    (later : Shows cwd report (out ++ said ++ found.elim "" (shownOf cwd)) ending) :
    Shows cwd ((said,found) :: report) out ending := by
  unfold Shows at later ⊢
  rw [handedCons,hiddenAppend,seen,Option.none_or]
  simpa [Report.shown,String.join_cons,String.append_assoc] using later

theorem showsOutside {cwd : Path} {said : String} {found : Option Change} {report : Report} {out : String} {c : Change}
    {s : Session} (unseen : hidden? cwd found.toList = some c) : Shows cwd ((said,found) :: report) out
      ((.error (.outside (Path.resolve cwd c.1) cwd),s) : Except Failure α × Session) := by
  unfold Shows
  rw [handedCons,hiddenAppend,unseen]
  exact ⟨s,rfl⟩

theorem besideSaid {places : List (List String)} {a b : Session} (beside : Beside places a b) (out : String) :
    Beside places a { b with out := out } :=
  ⟨⟨beside.near.tree,beside.near.cwd,beside.near.roots⟩,beside.verified,beside.formatterConfig⟩

section
variable {root : Path} (plain : Plain root) {tools : Tools} (piped : tools.terminal.interactive = false)
  {range : RevisionRange} {sorted : Bool}
include piped

theorem fileShown {path : Path} {options : Settings} (g : Bool) {s t : Session} {found : Option Change} {left : Settings}
    (looked : exec (changeOf root range sorted options path) tools s = (.ok ⟨found,left⟩,t)) :
    (hidden? s.cwd found.toList = none ∧
      exec (reformatFile root range sorted (Program.sink true false) ⟨g,options⟩ path) tools s =
        (.ok ⟨found.isSome || g,left⟩,{ t with out := t.out ++ found.elim "" (shownOf s.cwd) })) ∨
    ∃ c, hidden? s.cwd found.toList = some c ∧
      exec (reformatFile root range sorted (Program.sink true false) ⟨g,options⟩ path) tools s =
        (.error (.outside (Path.resolve s.cwd c.1) s.cwd),t) := by
  rw [reformatFileChange,execBindOk looked]
  cases found with
  | none => exact .inl ⟨rfl,by simp⟩
  | some c =>
    have shown := execShown piped g c (changeStill looked).cwd
    cases place : below? s.cwd c with
    | none =>
      rw [place] at shown
      exact .inr ⟨c,by simp [hidden?,place],execBindError shown⟩
    | some relative =>
      rw [place] at shown
      exact .inl ⟨by simp [hidden?,place],execBindOk shown⟩

include plain

theorem filesShown {files : List Path} (normal : ∀ p ∈ files, Normal p) (distinct : files.Nodup)
    (texts : ∀ p ∈ files, (root.join p).suffix = ".py") {places : List (List String)}
    (outside : ∀ p ∈ files, (root.join p).parts ∉ places) {options : Settings} (free : Free places (configIn options))
    (g : Bool) {a b : Session} (beside : Beside places a b) {progress : Progress Bool} {c : Session}
    (visited : exec (files.foldlM (reformatFile root range sorted (Program.sink false false)) ⟨g,options⟩) tools a =
      (.ok progress,c)) :
    ∃ report : Report,
      report.handed = changes root range sorted (Program.sink false false) tools files ⟨g,options⟩ a ∧
      c.out = a.out ++ report.said ∧
      Shows b.cwd report b.out
        (exec (files.foldlM (reformatFile root range sorted (Program.sink true false)) ⟨g,options⟩) tools b) := by
  induction files generalizing places options g a b with
  | nil =>
    cases visited
    exact ⟨[],rfl,by simp [Report.said],⟨g,options⟩,b,rfl,by simp [Report.shown]⟩
  | cons path rest ih =>
    rw [List.foldlM_cons] at visited ⊢
    rcases fileBeside plain tools range sorted (normal path (by simp)) (texts path (by simp)) (outside path (by simp)) free g
      beside with ⟨f,u,_,failed,_⟩ | ⟨found,left,said,u,v,places',here,looked,first,out,out',beside',free',grown⟩
    · rw [reformatFileChange,bind_assoc,execBindError failed] at visited
      cases visited
    rw [execBindOk first] at visited
    have later {w : Session} (next : Beside places' u w) := ih (fun p inside => normal p (by simp [inside]))
      (List.nodup_cons.mp distinct).2 (fun p inside => texts p (by simp [inside]))
      (outsideRest normal distinct outside grown) free' (found.isSome || g) next visited
    -- what both cases say of the run that writes
    have written {report : Report} (handed : report.handed =
        changes root range sorted (Program.sink false false) tools rest ⟨found.isSome || g,left⟩ u)
        (told : c.out = u.out ++ report.said) : Report.handed ((said,found) :: report) =
          changes root range sorted (Program.sink false false) tools (path :: rest) ⟨g,options⟩ a ∧
        c.out = a.out ++ Report.said ((said,found) :: report) := by
      rw [changes,here,first,told,out]
      exact ⟨congrArg (found.toList ++ ·) handed,by simp [Report.said,String.join_cons,String.append_assoc]⟩
    rcases fileShown piped g looked with ⟨seen,step⟩ | ⟨e,unseen,step⟩
    · obtain ⟨w,shown,said',cwd,next⟩ : ∃ w, exec (reformatFile root range sorted (Program.sink true false) ⟨g,options⟩ path)
          tools b = (.ok ⟨found.isSome || g,left⟩,w) ∧ w.out = b.out ++ said ++ found.elim "" (shownOf b.cwd) ∧
          w.cwd = b.cwd ∧ Beside places' u w :=
        ⟨_,step,by rw [out'],(changeStill looked).cwd,besideSaid beside' _⟩
      obtain ⟨report,handed,told,ending⟩ := later next
      rw [cwd,said'] at ending
      exact ⟨_,(written handed told).1,(written handed told).2,execBindOk shown ▸ showsBehind seen ending⟩
    · -- the run that shows changes ends here, so the rest is read off the run that writes alone
      obtain ⟨report,handed,told,_⟩ := later beside'
      exact ⟨_,(written handed told).1,(written handed told).2,execBindError step ▸ showsOutside unseen⟩

end

def judgedSince (s t : Session) : List (Bool × String) := (verdicts t).drop (verdicts s).length

def Voiced (s t : Session) : Prop :=
  ∃ text judged, t.out = s.out ++ text ∧ verdicts t = verdicts s ++ judged ∧ (text = "" ↔ ∀ v ∈ judged, v.1 = true)

theorem voicedSilent {s t : Session} (out : t.out = s.out) (recorded : verdicts t = verdicts s) : Voiced s t :=
  ⟨"",[],by simp [out],by simp [recorded],by simp⟩

theorem voicedUndisturbed {s t : Session} (h : Undisturbed s t) : Voiced s t := voicedSilent h.out (undisturbedVerdicts h)

theorem voicedLasting : Lasting Voiced where
  refl _ := voicedSilent rfl rfl
  trans := by
    rintro s t u ⟨text,judged,out,recorded,refused⟩ ⟨text',judged',out',recorded',refused'⟩
    refine ⟨text ++ text',judged ++ judged',by rw [out',out,String.append_assoc],by rw [recorded',recorded,List.append_assoc],?_⟩
    rw [String.append_eq_empty_iff,refused,refused']
    exact List.forall_mem_append.symm

theorem dumpFilled (chunks : List Chunk) (lines : List Int) : dumpChunks chunks lines ≠ "" := by
  unfold dumpChunks
  rw [Ne,String.append_eq_empty_iff]
  exact fun both => absurd both.2 (by decide)

theorem voicedJudges : Judges Voiced where
  lasting := voicedLasting
  noted _ _ _ := voicedSilent rfl rfl
  asked s root args := voicedUndisturbed (undisturbed.asked s root args)
  rooted _ _ _ := voicedSilent rfl rfl
  foreign _ _ := trivial
  called s e question := voicedUndisturbed (undisturbedServes.called s e question)
  configured _ _ := voicedSilent rfl rfl
  judged edited result chunks lines tools s := by
    obtain ⟨t,run,_,_,recorded,out⟩ := execObjection edited result chunks lines tools s
    rw [run]
    refine ⟨⟨_,_,out,recorded,?_⟩,by simp⟩
    cases tools.objection s.verified edited.text result.text with
    | none => simp
    | some reason => simp [dumpFilled]

theorem keptVerdicts {s t : Session} (kept : Kept s t) : verdicts t = verdicts s := by
  rw [verdicts,verdicts,kept.events]

theorem voicedKept {s t : Session} (kept : Kept s t) : Voiced s t := voicedSilent kept.out (keptVerdicts kept)

theorem planQuiet (name : String) {r : Config.Reading} (above : ¬(settingIn r "log_level").number?.getD 30 ≤ Verbosity.lowest) :
    Within Undisturbed (fun _ => True) (planFrom name r) := by
  have lasting := undisturbedLasting
  have tolerant : Tolerates Undisturbed (fun _ => True) := { undisturbed with foreign := fun _ _ => trivial }
  refine withinBind lasting (withinConsole tolerant (fun _ _ => undisturbedSilent rfl rfl rfl rfl rfl rfl) _ _) (fun _ => ?_)
  rw [if_neg above]
  refine withinBind lasting (withinRead lasting) (fun tools => ?_)
  refine withinAside (fun rest => withinBind lasting (withinNote tolerant _ _ _) (fun _ =>
    withinBind lasting (withinFail lasting trivial) (fun _ => rest))) ?_
  refine withinBind lasting (withinPaths tolerant _) (fun paths => ?_)
  dsimp only
  split
  · exact withinBind lasting (withinRange tolerant _) (fun _ => withinPure lasting _)
  · exact withinBind lasting (withinFail lasting trivial) (fun _ => withinPure lasting _)

theorem concludedSilently {plan : Program.Plan} {root : Path} {files : List Path} {g : Bool} {tools : Tools} {s t : Session}
    {n : Int} (unlinted : plan.linters.truthy = false) (unchecked : plan.check = false)
    (run : exec (conclude plan root files g) tools s = (.ok n,t)) :
    t = s ∧ ∀ g' s', exec (conclude { plan with diff := true } root files g') tools s' = (.ok 0,s') := by
  unfold conclude at run ⊢
  dsimp only
  rcases commandsUngiven unlinted with none | kind
  · rw [none] at run ⊢
    cases run
    rw [unchecked]
    exact ⟨rfl,fun _ _ => rfl⟩
  · rw [kind] at run
    cases run

theorem leNamesBehind (names a b : List String) : Path.leNames (names ++ a) (names ++ b) = Path.leNames a b := by
  induction names with
  | nil => rfl
  | cons name rest ih => simpa [Path.leNames] using ih

theorem changesListed {σ : Type} (root : Path) (range : RevisionRange) (sorted : Bool) (sink : Sink σ) (tools : Tools)
    (files : List Path) (progress : Progress σ) (s : Session) :
    ((changes root range sorted sink tools files progress s).map Prod.fst).Sublist (files.map root.join) := by
  induction files generalizing progress s with
  | nil => exact .slnil
  | cons path rest ih =>
    have here : ((changeAt root range sorted progress.options path tools s).toList.map Prod.fst).Sublist [root.join path] := by
      unfold changeAt
      rcases looked : exec (changeOf root range sorted progress.options path) tools s with ⟨f | ⟨found,left⟩,t⟩
      · simp
      · cases found with
        | none => simp
        | some c => simp [(changeVetted looked).1]
    unfold changes
    rw [List.map_append,List.map_cons]
    refine here.append ?_
    rcases exec (reformatFile root range sorted sink progress path) tools s with ⟨f | next,t⟩
    · simp
    · exact ih next t

theorem changesOrdered {σ : Type} {root : Path} {range : RevisionRange} {sorted : Bool} {sink : Sink σ} {tools : Tools}
    {files : List Path} {progress : Progress σ} {s : Session} (normal : ∀ p ∈ files, Normal p)
    (ordered : files.Pairwise (fun p q => Path.leNames p.key q.key = true ∧ p ≠ q)) :
    (changes root range sorted sink tools files progress s).Pairwise
      (fun c d => Path.leNames c.1.key d.1.key = true ∧ c.1 ≠ d.1) := by
  have keyed {p : Path} (member : p ∈ files) : (root.join p).key = root.key ++ p.key := by
    have relative := (normal p member).relative
    unfold Path.join Path.isAbsolute Path.key
    rw [relative]
    cases root.anchor <;> rfl
  have whole : (files.map root.join).Pairwise (fun p q => Path.leNames p.key q.key = true ∧ p ≠ q) := by
    rw [List.pairwise_map]
    refine ordered.imp_of_mem (fun {p q} here there both => ⟨?_,fun same => both.2 ?_⟩)
    · rw [keyed here,keyed there,leNamesBehind]
      exact both.1
    · exact joinInjective (normal p here) (normal q there) (congrArg Path.parts same)
  exact List.pairwise_map.mp (whole.sublist (changesListed root range sorted sink tools files progress s))

theorem showsThen {cwd : Path} {report : Report} {out : String} {m : Run α} {g : α → Run β} {tools : Tools} {s : Session}
    {y : β} (first : Shows cwd report out (exec m tools s)) (last : ∀ x t, exec (g x) tools t = (.ok y,t)) :
    Shows cwd report out (exec (m >>= g) tools s) := by
  unfold Shows at first ⊢
  split at first
  · obtain ⟨x,t,run,printed⟩ := first
    exact ⟨y,t,by rw [execBindOk run,last],printed⟩
  · obtain ⟨t,run⟩ := first
    exact ⟨t,execBindError run⟩

theorem visitedShown {plan : Program.Plan} {tools : Tools} {t u v w x : Session} {root : Path} {files : List Path}
    {progress : Progress Bool} {n : Int} (normally : NamesNormally tools) (piped : tools.terminal.interactive = false)
    (unlinted : plan.linters.truthy = false) (unchecked : plan.check = false)
    (listed : exec (listing plan.paths plan.range) tools t = (.ok (root,files),u)) (beside : Beside [] u w)
    (visited : exec (files.foldlM (reformatFile root plan.range plan.sorted (Program.sink false false)) ⟨false,plan.options⟩)
      tools u = (.ok progress,x))
    (last : exec (conclude plan root files progress.gathered) tools x = (.ok n,v)) :
    Voiced u v ∧ ∃ report : Report,
      report.handed = changes root plan.range plan.sorted (Program.sink false false) tools files ⟨false,plan.options⟩ u ∧
      v.out = u.out ++ report.said ∧
      Shows w.cwd report w.out
        (exec (files.foldlM (reformatFile root plan.range plan.sorted (Program.sink true false)) ⟨false,plan.options⟩ >>=
          fun progress => conclude { plan with diff := true } root files progress.gathered) tools w) := by
  obtain ⟨rfl,silent⟩ := concludedSilently unlinted unchecked last
  obtain ⟨report,handed,said,ending⟩ := filesShown (listingRoot listed) piped
    (fun p member => (listedFile listed member).2 normally) (listedNodup (listingOrdered listed))
    (fun p member => (listedFile listed member).1) (by simp) (.inr rfl : Free [] (configIn plan.options)) false beside visited
  refine ⟨?_,report,handed,said,showsThen ending (fun progress s => silent progress.gathered s)⟩
  exact withinEnds (withinReformatting voicedJudges (fun g file old new =>
    withinMono voicedKept id (keptSink g file old new)) root plan.range plan.sorted files _) visited

theorem settingsShow {r r' : Config.Reading} (shows : r'.settings = r.settings.put "diff" (.bool true)) :
    (∀ key, key ≠ "diff" → settingIn r' key = settingIn r key) ∧ settingIn r' "diff" = .bool true := by
  refine ⟨fun key other => ?_,?_⟩
  · rw [settingIn,settingIn,shows,Lookup.settingPut,if_neg other]
  · rw [settingIn,shows,Lookup.settingPut,if_pos rfl]
    rfl

theorem runShown (name : String) {args args' tools s r t r' t' n u} (normally : NamesNormally tools)
    (piped : tools.terminal.interactive = false) (read : exec (Config.read args) tools s = (.ok r,t))
    (read' : exec (Config.read args') tools s = (.ok r',t'))
    (others : ∀ key, key ≠ "diff" → settingIn r' key = settingIn r key) (shows : settingIn r' "diff" = .bool true)
    (unchecked : ¬Given r "check") (undiffed : ¬Given r "diff") (unlinted : ¬Given r "lint")
    (above : ¬(settingIn r "log_level").number?.getD 30 ≤ Verbosity.lowest)
    (run : exec (Program.run name args) tools s = (.ok n,u)) :
    (handedOn name args tools s).Pairwise (fun c d => Path.leNames c.1.key d.1.key = true ∧ c.1 ≠ d.1) ∧ Voiced s u ∧
    ∃ report : Report, report.handed = handedOn name args tools s ∧ u.out = s.out ++ report.said ∧
      Shows s.cwd report s.out (exec (Program.run name args') tools s) := by
  obtain ⟨_,_,_,quiet⟩ := configRead read
  obtain ⟨_,_,_,quiet'⟩ := configRead read'
  have start : Beside [] t t' := (besideSees []).quiet ⟨⟨overwrittenRefl _ _,rfl,fun _ => rfl⟩,rfl,rfl⟩
    (withinEnds (standsConfig args) read) (withinEnds (standsConfig args') read')
  obtain ⟨planned,plans⟩ := plansTogether (fun key _ other => others key other) (fun low => absurd low above) name
    tools t t' start
  rcases runCases run with ⟨f,impossible,_⟩ |
    ⟨plan,v,root,files,w,visited,x,prepared,listed,_,handed,folded,⟨f,_,impossible,_⟩ | ⟨progress,rfl,last⟩⟩
  · cases impossible
  · cases impossible
  have one : exec (planFrom name r) tools t = (.ok plan,v) := by rw [← prepared,prepareReads,execBindOk read]
  rcases other : exec (planFrom name r') tools t' with ⟨p',v'⟩
  rw [one,other] at planned plans
  cases plans with
  | @ok _ plan' same =>
    have follows := planFollows one
    have check : plan.check = false := by rw [follows.check]; simpa [Given] using unchecked
    have diff : plan.diff = false := by rw [follows.diff]; simpa [Given] using undiffed
    have linters : plan.linters.truthy = false := by rw [follows.linters]; simpa [Given] using unlinted
    rw [shows,others "check" (by decide),← follows.check] at same
    obtain rfl : plan' = { plan with diff := true } := same
    obtain ⟨beside,lists⟩ := agreesListing (besideSees []) plan.paths plan.range tools v v' planned
    rcases yours : exec (listing plan.paths plan.range) tools v' with ⟨l',w'⟩
    rw [listed,yours] at beside lists
    cases lists with
    | ok same =>
      subst same
      rw [check,diff] at folded handed
      obtain ⟨voiced,report,found,said,ending⟩ := visitedShown normally piped linters check listed beside folded last
      have trans := @Lasting.trans _ undisturbedLasting
      have before : Undisturbed s w := trans quiet (trans (withinEnds (planQuiet name above) one)
        (withinEnds (asksListing _ _) listed))
      have before' : Undisturbed s w' := trans quiet' (trans (withinEnds (planQuiet name
        (by rwa [others "log_level" (by decide)])) other) (withinEnds (asksListing _ _) yours))
      rw [before'.cwd,before'.out] at ending
      refine ⟨?_,voicedLasting.trans (voicedUndisturbed before) voiced,report,found.trans handed.symm,by rw [said,before.out],?_⟩
      · rw [handed]
        exact changesOrdered (fun p member => (listedFile listed member).2 normally) (listingOrdered listed)
      · rw [runStages,prepareReads,bind_assoc,execBindOk read',execBindOk other,execBindOk yours]
        dsimp only
        rw [check] at ending ⊢
        exact ending

theorem voicedSince {s u : Session} {said : String} (voiced : Voiced s u) (out : u.out = s.out ++ said) :
    said = "" ↔ ∀ v ∈ judgedSince s u, v.1 = true := by
  obtain ⟨text,judged,out',recorded,refused⟩ := voiced
  rw [out] at out'
  rw [judgedSince,recorded,List.drop_left,(String.append_right_inj _).mp out',refused]

theorem hiddenNone {cwd : Path} {handed : List Change} :
    hidden? cwd handed = none ↔ ∀ c ∈ handed, (below? cwd c).isSome = true := by
  simp [hidden?,Option.isSome_iff_ne_none]

theorem handedRead (name : String) (args : List String) {tools : Tools} (normally : NamesNormally tools) (s : Session) :
    ∀ c ∈ handedOn name args tools s, ∃ modified raw, s.tree.read s.cwd c.1 = .ok (raw.toUTF8,modified) ∧
      c.2.1.text = readBreaks raw := by
  rcases run : exec (Program.run name args) tools s with ⟨r,u⟩
  rcases runVisits normally run with ⟨_,_,_,nothing,_⟩ | ⟨plan,_,root,files,v,_,_,visiting⟩
  · simp [nothing]
  · exact fun c member => (visiting.marked.vetted c member).read

theorem diffedRun (name : String) {args tools s r t} (normally : NamesNormally tools)
    (read : exec (Config.read args) tools s = (.ok r,t)) (unchecked : ¬Given r "check") (shows : Given r "diff") :
    (exec (Program.run name args) tools s).2.tree = s.tree ∧ ∀ n, (exec (Program.run name args) tools s).1 = .ok n → n = 0 := by
  rcases run : exec (Program.run name args) tools s with ⟨e,u⟩
  rcases runVisits normally run with ⟨f,rfl,calm,_,_⟩ | ⟨plan,_,root,files,v,prepared,_,visiting⟩
  · exact ⟨calm.tree,by simp⟩
  obtain ⟨r',_,again,follows⟩ := prepareFollows prepared
  rw [read] at again
  cases again
  have check : plan.check = false := by rw [follows.check]; simpa [Given] using unchecked
  refine ⟨visiting.marked.kept (.inr (follows.diff.trans shows)),fun n finished => ?_⟩
  rw [visiting.status n finished,check]
  rfl

def ShowsOnlyDiffs (name : String) (args args' : List String) (tools : Tools) (s : Session) : Prop :=
  ∃ n t, exec (Program.run name args') tools s = (.ok n,t) ∧ t.tree = s.tree ∧
    t.out = s.out ++ String.join ((handedOn name args tools s).map (diffOf s.cwd))

theorem onlyDiffsIff {name : String} {args args' : List String} {tools : Tools} {s : Session} {report : Report}
    (handed : report.handed = handedOn name args tools s)
    (ending : Shows s.cwd report s.out (exec (Program.run name args') tools s))
    (kept : (exec (Program.run name args') tools s).2.tree = s.tree) :
    ShowsOnlyDiffs name args args' tools s ↔ (∀ c ∈ handedOn name args tools s, (below? s.cwd c).isSome = true) ∧
      (∀ c ∈ handedOn name args tools s, diffLinesOf s.cwd c ≠ []) ∧ report.said = "" := by
  unfold ShowsOnlyDiffs
  rw [← handed,← hiddenNone]
  unfold Shows at ending
  cases first : hidden? s.cwd report.handed with
  | none =>
    rw [first] at ending
    obtain ⟨n,t,run,printed⟩ := ending
    rw [run] at kept
    have diffs := shownIffDiffs s.cwd report
    refine ⟨?_,fun ⟨_,filled,silent⟩ => ⟨n,t,run,kept,by rw [printed,diffs.mpr ⟨silent,filled⟩]⟩⟩
    rintro ⟨n',t',run',_,out⟩
    cases run.symm.trans run'
    obtain ⟨silent,filled⟩ := diffs.mp ((String.append_right_inj _).mp (printed.symm.trans out))
    exact ⟨rfl,filled,silent⟩
  | some c =>
    rw [first] at ending
    obtain ⟨t,run⟩ := ending
    refine ⟨?_,fun ⟨impossible,_⟩ => by cases impossible⟩
    rintro ⟨n,t',run',_⟩
    cases run.symm.trans run'

structure Previewed (name : String) (args args' : List String) (tools : Tools) (s u : Session) : Prop where
  rewritten : ∀ place, bytesAt u.tree place ≠ bytesAt s.tree place ↔ ∃ c ∈ handedOn name args tools s, c.1.parts = place
  old : ∀ c ∈ handedOn name args tools s, ∃ modified raw, s.tree.read s.cwd c.1 = .ok (raw.toUTF8,modified) ∧
    c.2.1.text = readBreaks raw
  new : ∀ c ∈ handedOn name args tools s, bytesAt u.tree c.1.parts = some c.2.2.text.toUTF8
  ordered : (handedOn name args tools s).Pairwise (fun c d => Path.leNames c.1.key d.1.key = true ∧ c.1 ≠ d.1)
  kept : (exec (Program.run name args') tools s).2.tree = s.tree
  status : ∀ n, (exec (Program.run name args') tools s).1 = .ok n → n = 0
  printed : ∃ report : Report, report.handed = handedOn name args tools s ∧ u.out = s.out ++ report.said ∧
    Shows s.cwd report s.out (exec (Program.run name args') tools s)
  refused : u.out = s.out ↔ ∀ v ∈ judgedSince s u, v.1 = true
  blank : ∀ c ∈ handedOn name args tools s, (below? s.cwd c).isSome = true → diffLinesOf s.cwd c = [] →
    c.2.1.lines = c.2.2.lines
  exactly : ShowsOnlyDiffs name args args' tools s ↔
    (∀ c ∈ handedOn name args tools s, (below? s.cwd c).isSome = true) ∧
    (∀ c ∈ handedOn name args tools s, diffLinesOf s.cwd c ≠ []) ∧ ∀ v ∈ judgedSince s u, v.1 = true

theorem diffPreviewsRun (name : String) (args args' : List String) (tools : Tools) (s t t' u : Session)
    (r r' : Config.Reading) (n : Int) (normally : NamesNormally tools) (piped : tools.terminal.interactive = false)
    (read : exec (Config.read args) tools s = (.ok r,t)) (read' : exec (Config.read args') tools s = (.ok r',t'))
    (shows : r'.settings = r.settings.put "diff" (.bool true)) (unchecked : ¬Given r "check") (undiffed : ¬Given r "diff")
    (unlinted : ¬Given r "lint") (above : ¬(settingIn r "log_level").number?.getD 30 ≤ Verbosity.lowest)
    (run : exec (Program.run name args) tools s = (.ok n,u)) : Previewed name args args' tools s u := by
  obtain ⟨others,diff⟩ := settingsShow shows
  obtain ⟨ordered,voiced,report,handed,said,ending⟩ := runShown name normally piped read read' others diff unchecked undiffed
    unlinted above run
  obtain ⟨written,differing⟩ := writtenBytes name normally read unchecked undiffed
  rw [run] at written differing
  obtain ⟨kept,status⟩ := diffedRun name normally read' (by rwa [Given,others "check" (by decide)]) (by rw [Given,diff]; rfl)
  have silent := voicedSince voiced said
  refine ⟨differing,handedRead name args normally s,written,ordered,kept,status,⟨report,handed,said,ending⟩,?_,
    fun _ _ => emptyDiff,?_⟩
  · rw [← silent,said]
    simp
  · rw [← silent]
    exact onlyDiffsIff handed ending kept

theorem firstCandidateFound {tools : Tools} {root path : Path} {range : RevisionRange} {edited old formatted : Document}
    {options left : Settings} {s t u v : Session}
    (opened : exec (openJob root range false options path) tools s = (.ok ⟨root,range,path,edited,edited,false⟩,t))
    (content : exec (contentAt path range.source root) tools t = (.ok old,u))
    (done : exec (Formatter.format (root.join path) edited options) tools (exec (diffDocuments old edited) tools u).2 =
      (.ok (formatted,left),v))
    (agreed : tools.objection t.verified edited.text (candidate old edited formatted 0).text = none)
    (differs : (candidate old edited formatted 0).text ≠ edited.text) :
    ∃ w, exec (changeOf root range false options path) tools s =
        (.ok ⟨some (root.join path,edited,candidate old edited formatted 0),left⟩,w) ∧
      verdicts w = verdicts s ++ [(true,(candidate old edited formatted 0).text)] := by
  have facts := (openJobOpened opened).1
  have quiet := undisturbedVerdicts (withinEnds (asksOpenJob _ _ _ _ _) opened)
  obtain ⟨w,run,_,recorded⟩ := @firstCandidatePasses ⟨root,range,path,edited,edited,false⟩ tools options left t u v old formatted
    rfl content done agreed edited.lines.length
  have known : TextKnown (candidate old edited formatted 0) := textKnownJoined _
  have new : ((candidate old edited formatted 0).same edited).1 = false :=
    Bool.eq_false_iff.mpr (fun equal => differs ((sameIffText known facts.worktree).mp equal))
  refine ⟨w,?_,by rw [recorded,quiet]⟩
  rw [changeOf,reformatFile,execBindOk opened,execBindOk run]
  dsimp only
  rw [new]
  rfl

theorem onlyFileHanded (name : String) (args : List String) (tools : Tools) (s : Session) (source path root : Path)
    (range : RevisionRange) (edited old formatted : Document) (plain : Plain (root.join path)) :
    let first := (exec (Program.prepare name args) tools s).2
    let second := (exec (listing [source] range) tools first).2
    let third := (exec (openJob root range false [] path) tools second).2
    let fourth := (exec (contentAt path range.source root) tools third).2
    (exec (Program.prepare name args) tools s).1.toOption.map (fun p => (p.paths,p.range,p.sorted,p.check,p.diff,
      p.options.isEmpty && p.linters matches .list [])) = some ([source],range,false,false,false,true) →
    (exec (listing [source] range) tools first).1.toOption = some (root,[path]) →
    (exec (openJob root range false [] path) tools second).1.toOption = some ⟨root,range,path,edited,edited,false⟩ →
    (exec (contentAt path range.source root) tools third).1.toOption = some old →
    (exec (Formatter.format (root.join path) edited []) tools (exec (diffDocuments old edited) tools fourth).2).1.toOption.map
      Prod.fst = some formatted →
    tools.objection third.verified edited.text (candidate old edited formatted 0).text = none →
    (candidate old edited formatted 0).text ≠ edited.text → verdicts second = verdicts s →
    handedOn name args tools s = [(root.join path,edited,candidate old edited formatted 0)] ∧
    ∃ u, exec (Program.run name args) tools s = (.ok 0,u) ∧
      judgedSince s u = [(true,(candidate old edited formatted 0).text)] := by
  intro first second third fourth planned listing opening content formatting agreed differs unjudged
  obtain ⟨⟨_,range,_,_,_,linters,options⟩,prepared,fields⟩ := execOkPart planned
  simp only [Prod.mk.injEq,Bool.and_eq_true,List.isEmpty_iff] at fields
  obtain ⟨rfl,rfl,rfl,rfl,rfl,rfl,none⟩ := fields
  have listed := execOk listing
  obtain ⟨⟨formatted,left⟩,done,rfl⟩ := execOkPart formatting
  obtain ⟨w,looked,recorded⟩ := firstCandidateFound (execOk opening) (execOk content) done agreed differs
  obtain ⟨_,_,readable,_⟩ := (changeVetted looked).2.read
  have still := changeStill looked
  rw [← still.tree,← still.cwd] at readable
  have alone : Beside [] w w := ⟨⟨overwrittenRefl _ _,rfl,fun _ => rfl⟩,rfl,rfl⟩
  obtain ⟨x,sunk,_,_⟩ := sinkBeside plain readable alone tools false edited (candidate old edited formatted 0)
  have kept := withinEnds (keptSink _ _ _ _) sunk
  have visited : exec (reformatFile root range false (Program.sink false false) ⟨false,[]⟩ path) tools second =
      (.ok ⟨true,left⟩,x) := by
    rw [reformatFileChange,execBindOk looked]
    exact execBindOk sunk
  refine ⟨?_,x,?_,?_⟩
  · unfold handedOn
    rw [prepared]
    dsimp only
    rw [listed]
    change changes root range false (Program.sink false false) tools [path] ⟨false,[]⟩ second = _
    rw [changes,changeAt,looked,visited]
    rfl
  · obtain rfl : linters = .list [] := by
      cases linters with
      | list items =>
        cases items with
        | nil => rfl
        | cons => cases none
      | _ => cases none
    rw [runStages,execBindOk prepared,execBindOk listed]
    dsimp only
    rw [List.foldlM_cons,bind_assoc,execBindOk visited]
    rfl
  · rw [judgedSince,keptVerdicts kept,recorded,unjudged,List.drop_left]

def sourceSettings (path : String) : Settings := pathSettings.put Options.sourceKey (.list [.text path])

section
variable {path : String} (told : ∀ required, Options.tokens ⟨required,false,[]⟩ [path] = .ok [.word path])
include told

theorem sourceEvaluated (required : Bool) : Options.evaluate ⟨required,false,[]⟩ [path] = .ok (sourceSettings path) := by
  rw [Options.evaluate,told]
  cases required <;> rfl

theorem diffEvaluated (required : Bool) :
    Options.evaluate ⟨required,false,[]⟩ ["--diff",path] = .ok ((sourceSettings path).put "diff" (.bool true)) := by
  obtain ⟨o,second,switched⟩ : ∃ o, (Options.table false)[2]? = some o ∧
      Options.tokens ⟨required,false,[]⟩ ["--diff",path] = .ok [.option o "--diff" none,.word path] := by
    have dashed : "--diff".startsWith "-" = true := by cbv
    have found : Options.Grammar.find? ⟨required,false,[]⟩ "--diff" = (Options.table false)[2]? := rfl
    rw [Options.tokens,if_neg (by decide),Options.tokenOf,dashed,found,told]
    exact ⟨_,rfl,rfl⟩
  cases second
  rw [Options.evaluate,switched]
  cases required <;> rfl

theorem sourceRead {tools : Tools} {s : Session} (unsorted : tools.sortImports = none)
    (loaded : (exec (Config.load [path]) tools s).1.toOption.map List.isEmpty = some true) :
    ∃ r r' t, exec (Config.read [path]) tools s = (.ok r,t) ∧ exec (Config.read ["--diff",path]) tools s = (.ok r',t) ∧
      r.settings = sourceSettings path ∧ r'.settings = r.settings.put "diff" (.bool true) := by
  obtain ⟨preset,load,none⟩ := execOkPart loaded
  rw [List.isEmpty_iff.mp none] at load
  have sorter : tools.sortImports.isSome = false := by rw [unsorted]; rfl
  have named : Config.texts (((sourceSettings path).lookup Options.sourceKey).getD .none) = [path] := by
    rw [sourceSettings,Lookup.settingPut,if_pos rfl]
    rfl
  have named' : Config.texts ((((sourceSettings path).put "diff" (.bool true)).lookup Options.sourceKey).getD .none) =
      [path] := by
    rw [Lookup.settingPut,if_neg (by decide)]
    exact named
  obtain ⟨r,read,settings⟩ := configReads tools s (fun required => by rw [sorter]; exact sourceEvaluated told required) named
    load (by simp [sourceSettings,pathSettings,Settings.put,Options.sourceKey])
  obtain ⟨r',read',settings'⟩ := configReads tools s (fun required => by rw [sorter]; exact diffEvaluated told required) named'
    load (by simp [sourceSettings,pathSettings,Settings.put,Options.sourceKey])
  exact ⟨r,r',_,read,read',settings,by rw [settings',settings]⟩

end

def returnChange : Change := (⟨.root,["r","a.py"]⟩,(Document.ofText "a=1\nb = 2\n").keepLines,
  candidate (Document.ofText "a=0\nb = 2\n") (Document.ofText "a=1\nb = 2\n").keepLines (Document.ofText "a = 1\nb = 2\n") 0)

theorem returnDiffers : returnChange.2.2.text ≠ returnChange.2.1.text := by
  have text : returnChange.2.2.text = "a = 1\nb = 2\n" := by cbv
  rw [text]
  decide

theorem returnPreviewed : ∃ u,
    exec (Program.run "darker" ["a.py"]) Rewriting.returnTools Rewriting.returnSession = (.ok 0,u) ∧
    Previewed "darker" ["a.py"] ["--diff","a.py"] Rewriting.returnTools Rewriting.returnSession u ∧
    (exec (Program.run "darker" ["--diff","a.py"]) Rewriting.returnTools Rewriting.returnSession).2.out =
      "--- a.py\n+++ a.py\n@@ -1,2 +1,2 @@\n-a=1\n+a = 1\n b = 2\n" := by
  obtain ⟨r,r',_,read,read',settings,shows⟩ := @sourceRead "a.py" (fun _ => by cbv) Rewriting.returnTools
    Rewriting.returnSession rfl (by decide +kernel)
  have ungiven {key : String} (off : (((sourceSettings "a.py").lookup key).getD .none).truthy = false) : ¬Given r key := by
    rw [Given,settingIn,settings,off]
    decide
  obtain ⟨handed,u,run,judged⟩ := onlyFileHanded "darker" ["a.py"] Rewriting.returnTools Rewriting.returnSession
    ⟨.relative,["a.py"]⟩ ⟨.relative,["a.py"]⟩ ⟨.root,["r"]⟩ ⟨"HEAD",.workingTree,false⟩ returnChange.2.1
    (Document.ofText "a=0\nb = 2\n") (Document.ofText "a = 1\nb = 2\n") ⟨by decide,by decide⟩ (by decide +kernel)
    (by decide +kernel) (by decide +kernel) (by decide +kernel) (by decide +kernel) rfl returnDiffers (by decide +kernel)
  have previewed := diffPreviewsRun "darker" ["a.py"] ["--diff","a.py"] Rewriting.returnTools Rewriting.returnSession _ _ u
    r r' 0 returnNamesNormally rfl read read' shows (ungiven rfl) (ungiven rfl) (ungiven rfl)
    (by rw [settingIn,settings]; decide) run
  have diff : diffLinesOf Rewriting.returnSession.cwd returnChange =
      ["--- a.py","+++ a.py","@@ -1,2 +1,2 @@","-a=1","+a = 1"," b = 2"] := by cbv
  change handedOn _ _ _ _ = [returnChange] at handed
  have exactly := previewed.exactly
  rw [handed,judged] at exactly
  obtain ⟨n,t,shown,_,out⟩ := exactly.mpr ⟨by simp [below?,returnChange]; decide,by simp [diff],by simp⟩
  refine ⟨u,run,previewed,?_⟩
  rw [shown,out,handed,List.map_singleton,diffOf,diff]
  decide

def besideSession : Session := { Rewriting.returnSession with
  tree := ⟨[(["r"],.directory),(["r","a.py"],.file Rewriting.returnText.toUTF8 0),(["r","b"],.directory)]⟩
  cwd := ⟨.root,["r","b"]⟩ }

theorem outsideDiffFails :
    (∃ u, exec (Program.run "darker" ["../a.py"]) Rewriting.returnTools besideSession = (.ok 0,u)) ∧
    (exec (Program.run "darker" ["--diff","../a.py"]) Rewriting.returnTools besideSession).1 =
      .error (.outside ⟨.root,["r","a.py"]⟩ ⟨.root,["r","b"]⟩) ∧
    ¬ShowsOnlyDiffs "darker" ["../a.py"] ["--diff","../a.py"] Rewriting.returnTools besideSession := by
  obtain ⟨r,r',_,read,read',settings,shows⟩ := @sourceRead "../a.py" (fun _ => by cbv) Rewriting.returnTools besideSession rfl
    (by decide +kernel)
  obtain ⟨handed,u,run,_⟩ := onlyFileHanded "darker" ["../a.py"] Rewriting.returnTools besideSession
    ⟨.relative,["..","a.py"]⟩ ⟨.relative,["a.py"]⟩ ⟨.root,["r"]⟩ ⟨"HEAD",.workingTree,false⟩ returnChange.2.1
    (Document.ofText "a=0\nb = 2\n") (Document.ofText "a = 1\nb = 2\n") ⟨by decide,by decide⟩ (by decide +kernel)
    (by decide +kernel) (by decide +kernel) (by decide +kernel) (by decide +kernel) rfl returnDiffers (by decide +kernel)
  change handedOn _ _ _ _ = [returnChange] at handed
  have ungiven {key : String} (off : (((sourceSettings "../a.py").lookup key).getD .none).truthy = false) : ¬Given r key := by
    rw [Given,settingIn,settings,off]
    decide
  obtain ⟨others,diff⟩ := settingsShow shows
  obtain ⟨_,_,report,found,_,ending⟩ := runShown "darker" returnNamesNormally rfl read read' others diff (ungiven rfl)
    (ungiven rfl) (ungiven rfl) (by rw [settingIn,settings]; decide) run
  have outside : hidden? besideSession.cwd report.handed = some returnChange := by
    rw [found,handed]
    rfl
  rw [Shows,outside] at ending
  obtain ⟨t,failed⟩ := ending
  refine ⟨⟨u,run⟩,by rw [failed]; rfl,?_⟩
  rintro ⟨n,t',returned,_⟩
  rw [failed] at returned
  cases returned

end Retouch.Preview
