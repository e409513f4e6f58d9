import Retouch.Proofs.Candidates
import Retouch.Proofs.Listing

/-! The course of a whole run. Files are taken one after the other in sorted order; a file is handed on
at most once, with the candidate that passed last, and a search that gives up ends the run before
anything else is handed on and before any linter. -/
namespace Retouch.Course
open Execution Inquiry Candidates Listing

structure Visit where
  job : Job
  opened : Session
  trials : List Trial
  tried : Session
  ending : Ending

def Visit.handed (v : Visit) : Option (Path × Document × Document) :=
  match v.ending with
  | .passed result => if result.text = v.job.worktree.text then none else some (v.job.file,v.job.worktree,result)
  | _ => none

def Visit.failure (v : Visit) : Option Failure :=
  match v.ending with
  | .exhausted reason => some (.notEquivalent reason)
  | .failed f => some f
  | _ => none

structure Opened (tools : Tools) (root : Path) (range : RevisionRange) (sorted : Bool) (path : Path) (s : Session)
    (job : Job) : Prop where
  place : job.root = root ∧ job.range = range ∧ job.path = path ∧ job.sorted = sorted
  read : (exec (Run.readText (root.join path)) tools s).1 = .ok job.worktree.text
  unsorted : sorted = false → job.edited = job.worktree
  lines : job.edited.lines = splitLines job.edited.text
  worktree : TextKnown job.worktree
  edited : TextKnown job.edited

theorem openJobOpened {tools root range sorted options path s job t}
    (run : exec (openJob root range sorted options path) tools s = (.ok job,t)) :
    Opened tools root range sorted path s job ∧ Undisturbed s t := by
  rcases execBindCases run with ⟨e,_,impossible⟩ | ⟨text,u,read,rest⟩
  · cases impossible
  · have kept := withinEnds (withinReadText undisturbed _) read
    dsimp only at rest
    cases sorted with
    | false =>
      cases rest
      exact ⟨⟨⟨rfl,rfl,rfl,rfl⟩,by rw [read]; rfl,fun _ => rfl,rfl,textKnownCounted text,textKnownCounted text⟩,kept⟩
    | true =>
      rcases execBindCases rest with ⟨e,_,impossible⟩ | ⟨edited,v,ordered,last⟩
      · cases impossible
      · obtain ⟨_,_,text',_,_,rfl⟩ := execSortImports ordered
        have kept' := withinEnds (asksSortImports _ _ _ _) ordered
        cases last
        exact ⟨⟨⟨rfl,rfl,rfl,rfl⟩,by rw [read]; rfl,by simp,rfl,textKnownOfText text,textKnownCounted text'⟩,
          undisturbedLasting.trans kept kept'⟩

theorem withinOpenJob {R : Session → Session → Prop} {F : Failure → Prop} (serves : Serves R F) (root : Path)
    (range : RevisionRange) (sorted : Bool) (options : Settings) (path : Path) :
    Within R F (openJob root range sorted options path) := by
  have lasting := serves.lasting
  refine withinBind lasting (withinReadText serves.toTolerates _) (fun text => ?_)
  dsimp only
  cases sorted with
  | false => exact withinBind lasting (withinPure lasting _) (fun _ => withinPure lasting _)
  | true => exact withinBind lasting (withinSortImports serves _ _ _ _) (fun _ => withinPure lasting _)

theorem asksOpenJob (root : Path) (range : RevisionRange) (sorted : Bool) (options : Settings) (path : Path) :
    Asks (openJob root range sorted options path) := withinOpenJob undisturbedServes root range sorted options path

section
variable {R : Session → Session → Prop} (judges : Judges R) {σ : Type} {sink : Sink σ}
  (sunk : ∀ g file old new, Within R (fun _ => True) (sink g file old new))
include judges sunk

theorem withinReformatFile (root : Path) (range : RevisionRange) (sorted : Bool) (progress : Progress σ) (path : Path) :
    Within R (fun _ => True) (reformatFile root range sorted sink progress path) := by
  have lasting := judges.lasting
  refine withinBind lasting (withinOpenJob judges.toServes _ _ _ _ _) (fun job => ?_)
  refine withinBind lasting (withinAttempts judges _ _ _ _) (fun (result,left) => ?_)
  cases result with
  | none => exact withinPure lasting _
  | some result =>
    dsimp only
    split
    · exact withinBind lasting (sunk _ _ _ _) (fun _ => withinPure lasting _)
    · exact withinPure lasting _

theorem withinReformatting (root : Path) (range : RevisionRange) (sorted : Bool) (files : List Path)
    (progress : Progress σ) :
    Within R (fun _ => True) (files.foldlM (reformatFile root range sorted sink) progress) :=
  withinFoldlM judges.lasting files progress (fun progress path _ => withinReformatFile judges sunk root range sorted progress path)

end

structure Searched (tools : Tools) (root : Path) (range : RevisionRange) (sorted : Bool) (options : Settings)
    (path : Path) (s : Session) (v : Visit) (s' : Session) : Prop where
  opening : exec (openJob root range sorted options path) tools s = (.ok v.job,v.opened)
  opened : Opened tools root range sorted path s v.job
  trials : Trials tools v.job 0 v.opened v.trials v.tried
  reached : ∀ R : Session → Session → Prop, Judges R → R v.opened v.tried
  quiet : Undisturbed v.tried s'
  concluded : Concluded (Blocked tools v.job (optionsLeft options v.trials.length) v.trials.length v.tried)
    v.job.edited.lines.length v.trials v.ending
  skipped : v.ending = .skipped ↔ ∃ old, (exec (contentAt path range.source root) tools s).1 = .ok old ∧ Skips v.job old 0
  run : exec (v.job.attempts v.job.edited.lines.length 0 options) tools v.opened =
    (v.ending.value (optionsLeft options v.trials.length),s')

theorem trialsBuilt {tools j context s trials s'} (h : Trials tools j context s trials s') :
    ∀ t ∈ trials, TextKnown t.result := by
  induction h with
  | nil => simp
  | cons first _ ih =>
    intro t member
    rcases List.mem_cons.mp member with rfl | later
    · rw [first.built]
      exact textKnownJoined _
    · exact ih t later

theorem trialsSteady {tools j context s trials s'} (h : Trials tools j context s trials s') : Steady s s' := by
  induction h with
  | nil => exact ⟨rfl,rfl,rfl⟩
  | cons first _ ih => exact steadyTrans first.steady ih

theorem searchedSteady {tools root range sorted options path s v s'}
    (h : Searched tools root range sorted options path s v s') : Steady s s' := by
  have before := undisturbedSteady (openJobOpened h.opening).2
  exact steadyTrans before (steadyTrans (trialsSteady h.trials) (undisturbedSteady h.quiet))

theorem passedKnown {tools root range sorted options path s v s' result}
    (h : Searched tools root range sorted options path s v s') (passed : v.ending = .passed result) : TextKnown result := by
  obtain ⟨t,last,_,same⟩ := (h.concluded.passed result).mp passed
  exact same ▸ trialsBuilt h.trials t (List.mem_of_getLast? last)

theorem reformatFileCases {σ : Type} (root : Path) (range : RevisionRange) (sorted : Bool) (sink : Sink σ)
    (progress : Progress σ) (path : Path) (tools : Tools) (s : Session) :
    (∃ f t, exec (reformatFile root range sorted sink progress path) tools s = (.error f,t) ∧
      exec (openJob root range sorted progress.options path) tools s = (.error f,t)) ∨
    ∃ v t, Searched tools root range sorted progress.options path s v t ∧
      ((∃ f, v.failure = some f ∧ exec (reformatFile root range sorted sink progress path) tools s = (.error f,t)) ∨
       (v.failure = none ∧ v.handed = none ∧ exec (reformatFile root range sorted sink progress path) tools s =
          (.ok ⟨progress.gathered,optionsLeft progress.options v.trials.length⟩,t)) ∨
       ∃ file old new, v.failure = none ∧ v.handed = some (file,old,new) ∧
        exec (reformatFile root range sorted sink progress path) tools s = exec (do
          return ⟨← sink progress.gathered file old new,optionsLeft progress.options v.trials.length⟩) tools t) := by
  rcases opening : exec (openJob root range sorted progress.options path) tools s with ⟨f | job,t⟩
  · exact .inl ⟨f,t,execBindError opening,rfl⟩
  · obtain ⟨opened,quiet⟩ := openJobOpened opening
    obtain ⟨trials,ending,u,s',made,still,reached,concluded,skipped,run⟩ := searchConcludes job tools progress.options t
    have searched : Searched tools root range sorted progress.options path s ⟨job,t,trials,u,ending⟩ s' := by
      refine ⟨opening,opened,made,reached,still,concluded,?_,run⟩
      obtain ⟨rfl,rfl,rfl,_⟩ := opened.place
      rw [← contentStable tools job.path job.range.source job.root quiet.tree quiet.cwd]
      exact skipped
    refine .inr ⟨⟨job,t,trials,u,ending⟩,s',searched,?_⟩
    rw [reformatFile,execBindOk opening]
    cases ending with
    | skipped => exact .inr (.inl ⟨rfl,rfl,by rw [execBindOk run]; rfl⟩)
    | exhausted reason => exact .inl ⟨_,rfl,execBindError run⟩
    | failed f => exact .inl ⟨_,rfl,execBindError run⟩
    | passed result =>
      rw [execBindOk run]
      have same := sameIffText (passedKnown searched rfl) opened.worktree
      by_cases equal : result.text = job.worktree.text
      · refine .inr (.inl ⟨rfl,if_pos equal,?_⟩)
        simp [same.mpr equal]
      · refine .inr (.inr ⟨job.file,job.worktree,result,rfl,if_neg equal,?_⟩)
        have differ : (result.same job.worktree).1 = false := by simpa using fun h => equal (same.mp h)
        simp [differ]

/- What the sink does with a document happens before the next file is opened. -/
inductive Walk {σ : Type} (tools : Tools) (root : Path) (range : RevisionRange) (sorted : Bool) (sink : Sink σ) :
    σ → Settings → Session → List Path → List Visit → Except Failure σ → Session → Prop where
  | done {g options s} : Walk tools root range sorted sink g options s [] [] (.ok g) s
  | unopened {g options s path files f t} (opening : exec (openJob root range sorted options path) tools s = (.error f,t)) :
      Walk tools root range sorted sink g options s (path :: files) [] (.error f) t
  | stopped {g options s path files v f t} (visit : Searched tools root range sorted options path s v t)
      (failure : v.failure = some f) : Walk tools root range sorted sink g options s (path :: files) [v] (.error f) t
  | silent {g options s path files v vs r t u} (visit : Searched tools root range sorted options path s v t)
      (fine : v.failure = none) (nothing : v.handed = none)
      (rest : Walk tools root range sorted sink g (optionsLeft options v.trials.length) t files vs r u) :
      Walk tools root range sorted sink g options s (path :: files) (v :: vs) r u
  | handed {g g' options s path files v vs r t t' u file old new}
      (visit : Searched tools root range sorted options path s v t)
      (fine : v.failure = none) (given : v.handed = some (file,old,new))
      (sunk : exec (sink g file old new) tools t = (.ok g',t'))
      (rest : Walk tools root range sorted sink g' (optionsLeft options v.trials.length) t' files vs r u) :
      Walk tools root range sorted sink g options s (path :: files) (v :: vs) r u
  | refused {g options s path files v f t t' file old new}
      (visit : Searched tools root range sorted options path s v t)
      (fine : v.failure = none) (given : v.handed = some (file,old,new))
      (sunk : exec (sink g file old new) tools t = (.error f,t')) :
      Walk tools root range sorted sink g options s (path :: files) [v] (.error f) t'

theorem foldWalk {σ : Type} (root : Path) (range : RevisionRange) (sorted : Bool) (sink : Sink σ) (tools : Tools)
    (files : List Path) (progress : Progress σ) (s : Session) :
    ∃ visits r u, Walk tools root range sorted sink progress.gathered progress.options s files visits r u ∧
      (exec (files.foldlM (reformatFile root range sorted sink) progress) tools s).1.map Progress.gathered = r ∧
      (exec (files.foldlM (reformatFile root range sorted sink) progress) tools s).2 = u := by
  induction files generalizing progress s with
  | nil => exact ⟨[],_,_,.done,rfl,rfl⟩
  | cons path files ih =>
    rw [List.foldlM_cons]
    rcases reformatFileCases root range sorted sink progress path tools s with
      ⟨f,t,run,opening⟩ | ⟨v,t,visit,⟨f,failure,run⟩ | ⟨fine,nothing,run⟩ | ⟨file,old,new,fine,given,run⟩⟩
    · exact ⟨[],.error f,t,.unopened opening,by rw [execBindError run]; rfl,by rw [execBindError run]⟩
    · exact ⟨[v],.error f,t,.stopped visit failure,by rw [execBindError run]; rfl,by rw [execBindError run]⟩
    · obtain ⟨visits,r,u,walk,result,final⟩ := ih ⟨progress.gathered,optionsLeft progress.options v.trials.length⟩ t
      rw [execBindOk run]
      exact ⟨v :: visits,r,u,.silent visit fine nothing walk,result,final⟩
    · rcases sunk : exec (sink progress.gathered file old new) tools t with ⟨f | g,t'⟩
      · rw [execBindError sunk] at run
        exact ⟨[v],.error f,t',.refused visit fine given sunk,by rw [execBindError run]; rfl,by rw [execBindError run]⟩
      · rw [execBindOk sunk] at run
        obtain ⟨visits,r,u,walk,result,final⟩ := ih ⟨g,optionsLeft progress.options v.trials.length⟩ t'
        rw [execBindOk run]
        exact ⟨v :: visits,r,u,.handed visit fine given sunk walk,result,final⟩

section
variable {σ : Type} {tools : Tools} {root : Path} {range : RevisionRange} {sorted : Bool} {sink : Sink σ}
  {g : σ} {options : Settings} {s u : Session} {files : List Path} {visits : List Visit} {r : Except Failure σ}

theorem visitedInOrder (h : Walk tools root range sorted sink g options s files visits r u) :
    visits.map (fun v => v.job.path) <+: files := by
  induction h with
  | done => simp
  | unopened => simp
  | stopped visit => simpa using visit.opened.place.2.2.1
  | silent visit _ _ _ ih => simpa using ⟨visit.opened.place.2.2.1,ih⟩
  | handed visit _ _ _ _ ih => simpa using ⟨visit.opened.place.2.2.1,ih⟩
  | refused visit => simpa using visit.opened.place.2.2.1

theorem visitsSearched (h : Walk tools root range sorted sink g options s files visits r u) :
    ∀ v ∈ visits, ∃ n t t', Searched tools root range sorted (optionsLeft options n) v.job.path t v t' := by
  have named {options path v t t'} (visit : Searched tools root range sorted options path t v t') :
      Searched tools root range sorted options v.job.path t v t' := visit.opened.place.2.2.1 ▸ visit
  have later {options : Settings} {made : Nat} {vs : List Visit}
      (ih : ∀ v ∈ vs, ∃ n t t', Searched tools root range sorted (optionsLeft (optionsLeft options made) n) v.job.path t v t') :
      ∀ v ∈ vs, ∃ n t t', Searched tools root range sorted (optionsLeft options n) v.job.path t v t' := by
    intro v member
    obtain ⟨n,t,t',visit⟩ := ih v member
    exact ⟨made + n,t,t',optionsLeftAdd options made n ▸ visit⟩
  induction h with
  | done => simp
  | unopened => simp
  | stopped visit => simpa using ⟨0,_,_,named visit⟩
  | silent visit _ _ _ ih => simpa using ⟨⟨0,_,_,named visit⟩,later ih⟩
  | handed visit _ _ _ _ ih => simpa using ⟨⟨0,_,_,named visit⟩,later ih⟩
  | refused visit => simpa using ⟨0,_,_,named visit⟩

theorem failureEnds (h : Walk tools root range sorted sink g options s files visits r u) {v : Visit} {f : Failure}
    (member : v ∈ visits) (failure : v.failure = some f) : visits.getLast? = some v ∧ r = .error f := by
  have later {w : Visit} {vs : List Visit} (fine : w.failure = none) (member : v ∈ w :: vs) : v ∈ vs := by
    rcases List.mem_cons.mp member with rfl | tail
    · rw [fine] at failure
      cases failure
    · exact tail
  induction h with
  | done => simp at member
  | unopened => simp at member
  | stopped _ failed =>
    rw [List.mem_singleton.mp member] at failure ⊢
    exact ⟨rfl,by rw [Option.some.inj (failed.symm.trans failure)]⟩
  | silent _ fine _ _ ih =>
    obtain ⟨last,result⟩ := ih (later fine member)
    exact ⟨by rw [List.getLast?_cons,last]; rfl,result⟩
  | handed _ fine _ _ _ ih =>
    obtain ⟨last,result⟩ := ih (later fine member)
    exact ⟨by rw [List.getLast?_cons,last]; rfl,result⟩
  | refused _ fine => cases later fine member

theorem finishedAll (h : Walk tools root range sorted sink g options s files visits r u) {g' : σ} (finished : r = .ok g') :
    visits.map (fun v => v.job.path) = files := by
  induction h with
  | done => rfl
  | unopened => cases finished
  | stopped => cases finished
  | silent visit _ _ _ ih => rw [List.map_cons,visit.opened.place.2.2.1,ih finished]
  | handed visit _ _ _ _ ih => rw [List.map_cons,visit.opened.place.2.2.1,ih finished]
  | refused => cases finished

theorem walkUnlinted (h : Walk tools root range sorted sink g options s files visits r u)
    (kept : ∀ g file old new tools s, (exec (sink g file old new) tools s).2.linted = s.linted) :
    u.linted = s.linted := by
  have sinkKept {g file old new t r t'} (sunk : exec (sink g file old new) tools t = (r,t')) :
      t'.linted = t.linted := by
    have same := kept g file old new tools t
    rwa [sunk] at same
  induction h with
  | done => rfl
  | unopened opening => exact (withinError (asksOpenJob _ _ _ _ _) opening).1.linted
  | stopped visit => exact (searchedSteady visit).linted
  | silent visit _ _ _ ih => exact ih.trans (searchedSteady visit).linted
  | handed visit _ _ sunk _ ih => exact ih.trans ((sinkKept sunk).trans (searchedSteady visit).linted)
  | refused visit _ _ sunk => exact (sinkKept sunk).trans (searchedSteady visit).linted

end

theorem handedIff {tools root range sorted options path s v s' file old new}
    (h : Searched tools root range sorted options path s v s') :
    v.handed = some (file,old,new) ↔ file = v.job.file ∧ old = v.job.worktree ∧ new.text ≠ old.text ∧
      ∃ t, v.trials.getLast? = some t ∧ t.objection = none ∧ t.result = new := by
  have passed := h.concluded.passed new
  constructor
  · intro given
    unfold Visit.handed at given
    split at given
    · rename_i result ending
      split at given
      · cases given
      · rename_i differ
        cases given
        exact ⟨rfl,rfl,differ,passed.mp ending⟩
    · cases given
  · rintro ⟨rfl,rfl,differ,last⟩
    unfold Visit.handed
    rw [passed.mpr last]
    exact if_neg differ

theorem exhaustedRefused {blocked limit trials ending reason} (h : Concluded blocked limit trials ending)
    (gaveUp : ending = .exhausted reason) : trials.length = limit + 1 ∧ ∀ t ∈ trials, t.objection.isSome := by
  obtain ⟨full,last,ended,refused⟩ := (h.exhausted reason).mp gaveUp
  refine ⟨full,fun t member => ?_⟩
  obtain ⟨earlier,rfl⟩ := List.getLast?_eq_some_iff.mp ended
  rcases List.mem_append.mp member with before | final
  · exact h.refused t (by rwa [List.dropLast_concat])
  · rw [List.mem_singleton.mp final]
    simp [refused]

structure Dependable {σ : Type} (tools : Tools) (root : Path) (range : RevisionRange) (sorted : Bool) (options : Settings)
    (sink : Sink σ) (files : List Path) (Good : Session → Prop) : Prop where
  kept : Judges (fun s t => Good s → Good t)
  opens : ∀ path ∈ files, ∀ n s, Good s → ∃ job, (exec (openJob root range sorted (optionsLeft options n) path) tools s).1 = .ok job
  content : ∀ path ∈ files, ∀ s, Good s → ∃ old, (exec (contentAt path range.source root) tools s).1 = .ok old
  formats : ∀ path ∈ files, ∀ n document s, Good s →
    ∃ answer, (exec (Formatter.format (root.join path) document (optionsLeft options n)) tools s).1 = .ok answer
  sinks : ∀ g file old new s, Good s → ∃ g' t, exec (sink g file old new) tools s = (.ok g',t) ∧ Good t

structure Answered {σ : Type} (visits : List Visit) (r : Except Failure σ) : Prop where
  fine : ∀ v ∈ visits, ∀ f, v.ending ≠ .failed f
  gaveUp : ∀ f, r = .error f → ∃ v reason, visits.getLast? = some v ∧ v.ending = .exhausted reason ∧ f = .notEquivalent reason

theorem answeredCons {σ : Type} {v : Visit} {visits : List Visit} {r : Except Failure σ} (fine : ∀ f, v.ending ≠ .failed f)
    (rest : Answered visits r) : Answered (v :: visits) r := by
  refine ⟨List.forall_mem_cons.mpr ⟨fine,rest.fine⟩,fun f failed => ?_⟩
  obtain ⟨w,reason,ended,gaveUp⟩ := rest.gaveUp f failed
  exact ⟨w,reason,by rw [List.getLast?_cons,ended]; rfl,gaveUp⟩

section
variable {σ : Type} {tools : Tools} {root : Path} {range : RevisionRange} {sorted : Bool} {options : Settings}
  {sink : Sink σ} {files : List Path} {Good : Session → Prop}
  (answers : Dependable tools root range sorted options sink files Good)
include answers

theorem searchAnswered {n : Nat} {path : Path} {s t : Session} {v : Visit} (member : path ∈ files) (good : Good s)
    (visit : Searched tools root range sorted (optionsLeft options n) path s v t) :
    Good t ∧ ∀ f, v.ending ≠ .failed f := by
  have opened : Good v.opened := withinEnds (withinOpenJob answers.kept.toServes _ _ _ _ _) visit.opening good
  have tried : Good v.tried := visit.reached _ answers.kept opened
  have left : Good t := by
    have kept := (withinAttempts answers.kept v.job v.job.edited.lines.length 0 (optionsLeft options n) tools v.opened).1 opened
    rwa [visit.run] at kept
  refine ⟨left,fun f failed => ?_⟩
  obtain ⟨atRoot,inRange,atPath,_⟩ := visit.opened.place
  rcases visit.concluded.failed f failed with missing | ⟨_,_,_,refused⟩
  · obtain ⟨old,found⟩ := answers.content path member v.tried tried
    rw [atRoot,inRange,atPath,found] at missing
    cases missing
  · have asked : Good (exec (editedSince v.job.root v.job.range v.job.path v.job.edited v.trials.length) tools v.tried).2 :=
      (withinEditedSince answers.kept.toTolerates _ _ _ _ _ tools v.tried).1 tried
    obtain ⟨answer,done⟩ := answers.formats path member (n + v.trials.length) v.job.edited _ asked
    rw [← optionsLeftAdd,← atRoot,← atPath] at done
    cases done.symm.trans refused

theorem walkAnswered {n : Nat} {g : σ} {s u : Session} {rest : List Path} {visits : List Visit} {r : Except Failure σ}
    (listed : ∀ path ∈ rest, path ∈ files) (good : Good s)
    (h : Walk tools root range sorted sink g (optionsLeft options n) s rest visits r u) : Answered visits r := by
  generalize held : optionsLeft options n = left at h
  induction h generalizing n with
  | done => exact ⟨by simp,by simp⟩
  | unopened opening =>
    subst held
    obtain ⟨job,found⟩ := answers.opens _ (listed _ List.mem_cons_self) n _ good
    rw [opening] at found
    cases found
  | @stopped _ _ _ _ _ v _ _ visit failure =>
    subst held
    obtain ⟨_,fine⟩ := searchAnswered answers (listed _ List.mem_cons_self) good visit
    refine ⟨by simpa using fine,?_⟩
    rintro f ⟨⟩
    unfold Visit.failure at failure
    cases ending : v.ending with
    | skipped => simp [ending] at failure
    | passed => simp [ending] at failure
    | exhausted reason =>
      rw [ending] at failure
      exact ⟨v,reason,rfl,ending,(Option.some.inj failure).symm⟩
    | failed f => exact absurd ending (fine f)
  | silent visit _ _ _ ih =>
    subst held
    obtain ⟨good',fine⟩ := searchAnswered answers (listed _ List.mem_cons_self) good visit
    exact answeredCons fine
      (ih (fun path member => listed path (List.mem_cons_of_mem _ member)) good' (optionsLeftAdd ..).symm)
  | @handed g _ _ _ _ _ _ _ _ _ _ _ file old new visit _ _ sunk _ ih =>
    subst held
    obtain ⟨good',fine⟩ := searchAnswered answers (listed _ List.mem_cons_self) good visit
    obtain ⟨_,_,taken,still⟩ := answers.sinks g file old new _ good'
    cases sunk.symm.trans taken
    exact answeredCons fine
      (ih (fun path member => listed path (List.mem_cons_of_mem _ member)) still (optionsLeftAdd ..).symm)
  | @refused g _ _ _ _ _ _ _ _ file old new visit _ _ sunk =>
    subst held
    obtain ⟨good',_⟩ := searchAnswered answers (listed _ List.mem_cons_self) good visit
    obtain ⟨_,_,taken,_⟩ := answers.sinks g file old new _ good'
    cases sunk.symm.trans taken

end

structure Standing (tree : FileTree) (cwd : Path) (s : Session) : Prop where
  held : s.tree = tree
  below : s.cwd = cwd
  roots : ∀ sources root, s.projectRoots.lookup sources = some root → root = projectRootOf tree cwd sources

theorem standingJudges (tree : FileTree) (cwd : Path) : Judges (fun s t => Standing tree cwd s → Standing tree cwd t) where
  lasting := ⟨fun _ h => h,fun first second h => second (first h)⟩
  noted _ _ _ h := ⟨h.held,h.below,h.roots⟩
  asked _ _ _ h := ⟨h.held,h.below,h.roots⟩
  rooted s sources _ h := by
    refine ⟨h.held,h.below,fun others root found => ?_⟩
    rw [List.lookup_cons] at found
    split at found
    · rename_i same
      rw [eq_of_beq same,← Option.some.inj found,h.held,h.below]
    · exact h.roots others root found
  foreign _ _ := trivial
  called _ _ _ h := ⟨h.held,h.below,h.roots⟩
  configured _ _ h := ⟨h.held,h.below,h.roots⟩
  judged edited result chunks lines tools s := by
    refine ⟨fun h => ?_,fun _ _ => trivial⟩
    rw [objectionTo]
    simp only [execBind,execGet,execSet,execRead,Run.record,execModify]
    cases tools.objection s.verified edited.text result.text <;> exact ⟨h.held,h.below,h.roots⟩

section
variable {σ : Type} {tools : Tools} {root : Path} {range : RevisionRange} {options : Settings} {sink : Sink σ}
  {files : List Path} {tree : FileTree} {cwd : Path}

theorem standingReads {s : Session} (standing : Standing tree cwd s) {p : Path} {text : String} {now : Int}
    (found : tree.read cwd p = .ok (text.toUTF8,now)) :
    exec (Run.readBytes p) tools s = (.ok (text.toUTF8,now),s) := by
  rw [Run.readBytes,execBindOk (execGet tools s),standing.held,standing.below,found]
  rfl

theorem execDecoded (text : String) (s : Session) : exec (Run.decode text.toUTF8) tools s = (.ok text,s) := by
  rw [Run.decode,textDecoded]
  rfl

theorem standingContent {s : Session} (standing : Standing tree cwd s) {path : Path} {text shown : String} {now : Int}
    (found : tree.read cwd (root.join path) = .ok (text.toUTF8,now))
    (known : tools.git ["show",s!"{range.source}:./{path.render}"] = ⟨shown.toUTF8,0⟩) :
    ∃ old, (exec (contentAt path range.source root) tools s).1 = .ok old := by
  rw [contentAt]
  split
  · rw [loadDocument,execBindOk (standingReads standing found),execBindOk (execDecoded text s)]
    exact ⟨_,rfl⟩
  · simp only [askGit,execBind,execRead,execPure,Run.debug,Run.note,Run.record,execModify,known]
    rw [if_neg (by decide),if_neg (by decide),execBindOk (execDecoded shown _)]
    exact ⟨_,rfl⟩

theorem standingRoot {s : Session} (standing : Standing tree cwd s) (sources : List String) :
    ∃ t, exec (projectRoot sources) tools s = (.ok (projectRootOf tree cwd sources),t) := by
  rw [projectRoot,execBindOk (execGet tools s)]
  cases kept : s.projectRoots.lookup sources with
  | none =>
    rw [← standing.held,← standing.below]
    exact ⟨_,rfl⟩
  | some root =>
    rw [standing.roots sources root kept]
    exact ⟨s,rfl⟩

theorem standingUnfound {s : Session} (standing : Standing tree cwd s) {source : Path}
    (unconfigured : tree.isFile cwd ((projectRootOf tree cwd [source.render]).join ⟨.relative,["pyproject.toml"]⟩) = false) :
    ∃ t, exec (projectFile? [source.render]) tools s = (.ok none,t) := by
  obtain ⟨t,found⟩ := @standingRoot tools tree cwd s standing [source.render]
  have standing' : Standing tree cwd t :=
    withinEnds (withinProjectRoot (standingJudges tree cwd).toTolerates [source.render]) found standing
  rw [projectFile?,execBindOk found,execBindOk (execGet tools t),standing'.held,standing'.below,unconfigured]
  exact ⟨t,rfl⟩

theorem standingConfig {s : Session} (standing : Standing tree cwd s) {source : Path}
    (unconfigured : tree.isFile cwd ((projectRootOf tree cwd [source.render]).join ⟨.relative,["pyproject.toml"]⟩) = false) :
    ∃ own t, exec (Formatter.config source .none) tools s = (.ok own,t) := by
  have fresh : ∃ own t, exec (Formatter.config.fresh source .none) tools s = (.ok own,t) := by
    obtain ⟨t,unfound⟩ := @standingUnfound tools tree cwd s standing source unconfigured
    have file : exec (Formatter.settingsFile? source .none) tools s = (.ok none,t) := by
      change exec (projectFile? [source.render] >>= _) tools s = _
      rw [execBindOk unfound]
      rfl
    rw [Formatter.config.fresh,execBindOk file]
    exact ⟨_,_,rfl⟩
  change ∃ own t, exec (get >>= _) tools s = (.ok own,t)
  rw [execBindOk (execGet tools s)]
  cases s.formatterConfig with
  | none => exact fresh
  | some entry =>
    dsimp only
    split
    · exact ⟨_,_,rfl⟩
    · exact fresh

theorem standingFormats (formatter : ∀ mode text, ∃ new, tools.format mode text = .ok new)
    (unrequested : options.lookup "config" = none) {source : Path} (unconfigured : tree.isFile cwd
      ((projectRootOf tree cwd [source.render]).join ⟨.relative,["pyproject.toml"]⟩) = false) (document : Document)
    {s : Session} (standing : Standing tree cwd s) :
    ∃ answer, (exec (Formatter.format source document options) tools s).1 = .ok answer := by
  obtain ⟨own,t,configured⟩ := @standingConfig tools tree cwd s standing source unconfigured
  obtain ⟨new,formatted⟩ := formatter (Formatter.modeOf (own.overlay (options.erase "config"))) document.text
  rw [Formatter.format,unrequested]
  simp only [Option.getD_none]
  rw [execBindOk configured]
  simp only [execBind,execModify,execRead,Run.record,formatted]
  exact ⟨_,rfl⟩

theorem standingDependable (formatter : ∀ mode text, ∃ new, tools.format mode text = .ok new)
    (known : ∀ path ∈ files, ∃ text : String, tools.git ["show",s!"{range.source}:./{path.render}"] = ⟨text.toUTF8,0⟩)
    (held : ∀ path ∈ files, ∃ (text : String) (now : Int), tree.read cwd (root.join path) = .ok (text.toUTF8,now))
    (unrequested : options.lookup "config" = none)
    (unconfigured : ∀ path ∈ files, tree.isFile cwd
      ((projectRootOf tree cwd [(root.join path).render]).join ⟨.relative,["pyproject.toml"]⟩) = false)
    (collects : ∀ g file old new, ∃ g', sink g file old new = pure g') :
    Dependable tools root range false options sink files (Standing tree cwd) where
  kept := standingJudges tree cwd
  opens path member n s standing := by
    obtain ⟨text,now,found⟩ := held path member
    have read : exec (Run.readText (root.join path)) tools s = (.ok (readBreaks text),s) := by
      rw [Run.readText,execBindOk (standingReads standing found),execBindOk (execDecoded text s)]
      rfl
    rw [openJob,execBindOk read]
    exact ⟨_,rfl⟩
  content path member s standing := by
    obtain ⟨text,now,found⟩ := held path member
    obtain ⟨shown,answer⟩ := known path member
    exact standingContent standing found answer
  formats path member n document s standing := by
    have same : optionsLeft options n = options := by
      rw [optionsLeft,Lookup.erasedAbsent unrequested,ite_self]
    rw [same]
    exact standingFormats formatter unrequested (unconfigured path member) document standing
  sinks g file old new s standing := by
    obtain ⟨g',collected⟩ := collects g file old new
    rw [collected]
    exact ⟨g',s,rfl,standing⟩
end

structure Account {σ : Type} (tools : Tools) (root : Path) (range : RevisionRange) (sorted : Bool) (linters : Value)
    (options : Settings) (sink : Sink σ) (start : σ) (files : List Path) (t : Session) (visits : List Visit)
    (r : Except Failure σ) (u : Session) (outcome : Except Failure (Progress σ) × Session) : Prop where
  ordered : files.Pairwise (fun p q => Path.leNames p.key q.key = true ∧ p ≠ q)
  walk : Walk tools root range sorted sink start options t files visits r u
  visited : visits.map (fun v => v.job.path) <+: files
  finished : ∀ g, r = .ok g → visits.map (fun v => v.job.path) = files
  searched : ∀ v ∈ visits, ∃ n a b, Searched tools root range sorted (optionsLeft options n) v.job.path a v b
  handed : ∀ v ∈ visits, ∀ file old new, v.handed = some (file,old,new) ↔
    file = v.job.file ∧ old = v.job.worktree ∧ new.text ≠ old.text ∧
      ∃ c, v.trials.getLast? = some c ∧ c.objection = none ∧ c.result = new
  gaveUp : ∀ v ∈ visits, ∀ reason, v.ending = .exhausted reason →
    v.trials.length = v.job.edited.lines.length + 1 ∧ (∀ c ∈ v.trials, c.objection.isSome) ∧
    visits.getLast? = some v ∧ v.handed = none ∧ outcome = (.error (.notEquivalent reason),u)
  answered : ∀ Good, Dependable tools root range sorted options sink files Good → Good t →
    (∀ v ∈ visits, v.ending = .skipped ∨ (∃ result, v.ending = .passed result) ∨ ∃ reason, v.ending = .exhausted reason) ∧
    ∀ f, r = .error f → ∃ v reason, visits.getLast? = some v ∧ v.ending = .exhausted reason ∧ f = .notEquivalent reason
  failed : ∀ f, r = .error f → outcome = (.error f,u)
  unlinted : (∀ g file old new tools s, (exec (sink g file old new) tools s).2.linted = s.linted) →
    u.linted = t.linted
  linted : ∀ g, r = .ok g → outcome.2 = (exec (do
    (← commandsOf linters).forM (fun command => Linting.run command root files range)) tools u).2

theorem walkAccount {σ : Type} {tools : Tools} {root : Path} {range : RevisionRange} {sorted : Bool}
    {linters : Value} {options : Settings} {sink : Sink σ} {start : σ} {files : List Path} {t : Session}
    {visits : List Visit} {r : Except Failure σ} {u : Session} {outcome : Except Failure (Progress σ) × Session}
    (ordered : files.Pairwise (fun p q => Path.leNames p.key q.key = true ∧ p ≠ q))
    (walk : Walk tools root range sorted sink start options t files visits r u)
    (failed : ∀ f, r = .error f → outcome = (.error f,u))
    (linted : ∀ g, r = .ok g → outcome.2 = (exec (do
      (← commandsOf linters).forM (fun command => Linting.run command root files range)) tools u).2) :
    Account tools root range sorted linters options sink start files t visits r u outcome := by
  refine ⟨ordered,walk,visitedInOrder walk,fun _ => finishedAll walk,visitsSearched walk,?_,?_,?_,failed,
    walkUnlinted walk,linted⟩
  · intro v member file old new
    obtain ⟨_,_,_,searched⟩ := visitsSearched walk v member
    exact handedIff searched
  · intro v member reason gaveUp
    obtain ⟨_,_,_,searched⟩ := visitsSearched walk v member
    obtain ⟨full,refused⟩ := exhaustedRefused searched.concluded gaveUp
    have failure : v.failure = some (.notEquivalent reason) := by rw [Visit.failure,gaveUp]
    obtain ⟨last,result⟩ := failureEnds walk member failure
    exact ⟨full,refused,last,by rw [Visit.handed,gaveUp],failed _ result⟩
  · intro Good answers good
    obtain ⟨fine,gaveUp⟩ := walkAnswered (n := 0) answers (fun _ member => member) good walk
    refine ⟨fun v member => ?_,gaveUp⟩
    cases ending : v.ending with
    | skipped => exact .inl rfl
    | passed result => exact .inr (.inl ⟨result,rfl⟩)
    | exhausted reason => exact .inr (.inr ⟨reason,rfl⟩)
    | failed f => exact absurd ending (fine v member f)

theorem reformatEditedListed {σ : Type} (sources : List Path) (range : RevisionRange) (sorted : Bool)
    (linters : Value) (options : Settings) (sink : Sink σ) (start : σ) :
    reformatEdited sources range sorted linters options sink start = (do
      let (root,files) ← listing sources range
      let progress ← files.foldlM (reformatFile root range sorted sink) ⟨start,options⟩
      (← commandsOf linters).forM (fun command => Linting.run command root files range)
      return progress) := by
  simp only [reformatEdited,listing,bind_assoc,pure_bind]

theorem reformatEditedAccount {σ : Type} (sources : List Path) (range : RevisionRange) (sorted : Bool)
    (linters : Value) (options : Settings) (sink : Sink σ) (start : σ) (tools : Tools) (s : Session) :
    (∃ f t, exec (listing sources range) tools s = (.error f,t) ∧ Foreign f ∧ Undisturbed s t ∧
      exec (reformatEdited sources range sorted linters options sink start) tools s = (.error f,t)) ∨
    ∃ root files t visits r u, exec (listing sources range) tools s = (.ok (root,files),t) ∧ Undisturbed s t ∧
      Account tools root range sorted linters options sink start files t visits r u
        (exec (reformatEdited sources range sorted linters options sink start) tools s) := by
  rw [reformatEditedListed]
  rcases listed : exec (listing sources range) tools s with ⟨f | ⟨root,files⟩,t⟩
  · obtain ⟨quiet,foreign⟩ := withinError (asksListing _ _) listed
    exact .inl ⟨f,t,rfl,foreign,quiet,execBindError listed⟩
  · rw [execBindOk listed]
    have ordered := listingOrdered listed
    have quiet := withinEnds (asksListing _ _) listed
    obtain ⟨visits,r,u,walk,result,final⟩ := foldWalk root range sorted sink tools files ⟨start,options⟩ t
    refine .inr ⟨root,files,t,visits,r,u,rfl,quiet,?_⟩
    rcases run : exec (files.foldlM (reformatFile root range sorted sink) ⟨start,options⟩) tools t with ⟨f | progress,v⟩
    · rw [run] at result final
      subst result final
      refine walkAccount ordered walk ?_ (by intro g impossible; cases impossible)
      rintro e ⟨⟩
      exact execBindError run
    · rw [run] at result final
      subst result final
      refine walkAccount ordered walk (by intro e impossible; cases impossible) ?_
      intro g _
      rw [execBindOk run]
      simp only [execBind]
      rcases exec (commandsOf linters) tools v with ⟨f | commands,w⟩
      · rfl
      · dsimp only
        rcases exec (commands.forM (fun command => Linting.run command root files range)) tools w with ⟨f | done,x⟩ <;> rfl

def agreeingTools : Tools where
  git args := match args with
    | "diff" :: _ => ⟨"a.py\n".toUTF8,0⟩
    | "show" :: _ => ⟨"a=0\n".toUTF8,0⟩
    | _ => ⟨"".toUTF8,0⟩
  format _ _ := .ok "a = 1\n"
  sortImports := none
  objection _ _ _ := none
  lint _ _ := "".toUTF8
  environment := []
  terminal := ⟨80,false,none⟩

def agreeingSession : Session where
  tree := ⟨[(["r"],.directory),(["r","a.py"],.file "a=1\n".toUTF8 0)]⟩
  cwd := ⟨.root,["r"]⟩
  log := #[]
  out := ""
  err := ""
  events := #[]
  console := none
  verified := 0
  linted := 0
  formatterConfig := none
  comparison := none
  projectRoots := []

def agreeingRange : RevisionRange := ⟨"HEAD",.workingTree,false⟩

def collecting : Sink (List Path) := fun handed file _ _ => pure (handed ++ [file])

theorem agreeingDependable : Dependable agreeingTools ⟨.root,["r"]⟩ agreeingRange false [] collecting [⟨.relative,["a.py"]⟩]
    (Standing agreeingSession.tree agreeingSession.cwd) := by
  have only {P : Path → Prop} (h : P ⟨.relative,["a.py"]⟩) : ∀ path ∈ [(⟨.relative,["a.py"]⟩ : Path)], P path := by
    intro path member
    rwa [List.mem_singleton.mp member]
  exact standingDependable (fun _ _ => ⟨_,rfl⟩) (only ⟨"a=0\n",rfl⟩) (only ⟨"a=1\n",0,rfl⟩) rfl
    (only (by decide +kernel)) (fun _ _ _ _ => ⟨_,rfl⟩)

theorem agreeingSearchPasses : ∃ t visits r u,
    exec (listing [⟨.relative,["a.py"]⟩] agreeingRange) agreeingTools agreeingSession =
      (.ok (⟨.root,["r"]⟩,[⟨.relative,["a.py"]⟩]),t) ∧
    Account agreeingTools ⟨.root,["r"]⟩ agreeingRange false (.list []) [] collecting [] [⟨.relative,["a.py"]⟩] t visits r u
      (exec (reformatEdited [⟨.relative,["a.py"]⟩] agreeingRange false (.list []) [] collecting []) agreeingTools
        agreeingSession) ∧
    visits.map (fun v => v.job.path) = [⟨.relative,["a.py"]⟩] ∧ ∀ v ∈ visits, ∃ result, v.ending = .passed result := by
  have listed := @execOk _ (listing [⟨.relative,["a.py"]⟩] agreeingRange) agreeingTools agreeingSession
    (⟨.root,["r"]⟩,[⟨.relative,["a.py"]⟩]) (by decide +kernel)
  rcases reformatEditedAccount [⟨.relative,["a.py"]⟩] agreeingRange false (.list []) [] collecting [] agreeingTools
    agreeingSession with ⟨f,t,unlisted,_⟩ | ⟨root,files,t,visits,r,u,found,_,account⟩
  · cases listed.symm.trans unlisted
  cases listed.symm.trans found
  have standing := withinEnds (withinListing (standingJudges _ _).toTolerates _ _) listed
    ⟨rfl,rfl,by simp [agreeingSession]⟩
  obtain ⟨three,failing⟩ := account.answered _ agreeingDependable standing
  have passed : ∀ v ∈ visits, ∃ result, v.ending = .passed result := by
    intro v member
    obtain ⟨n,a,b,searched⟩ := account.searched v member
    rcases three v member with idle | passed | ⟨reason,gaveUp⟩
    · obtain ⟨_,_,ordered,_⟩ := searched.skipped.mp idle
      rw [searched.opened.place.2.2.2] at ordered
      cases ordered
    · exact passed
    · obtain ⟨full,last,ended,refused⟩ := (searched.concluded.exhausted reason).mp gaveUp
      obtain ⟨k,found⟩ := List.getElem?_of_mem (List.mem_of_getLast? ended)
      obtain ⟨_,_,tries,_⟩ := triedAt searched.trials found
      cases refused.symm.trans tries.objection
  refine ⟨_,visits,r,u,listed,account,?_,passed⟩
  cases r with
  | ok handed => exact account.finished handed rfl
  | error f =>
    obtain ⟨v,reason,ended,gaveUp,_⟩ := failing f rfl
    obtain ⟨result,other⟩ := passed v (List.mem_of_getLast? ended)
    cases gaveUp.symm.trans other

end Retouch.Course
