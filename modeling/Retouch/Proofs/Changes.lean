import Retouch.Proofs.Stillness
import Retouch.Proofs.Terminators

/-! What a run hands on. A file's change is found before anything is done with it, and the changes of a run are
those it finds, in order, until it ends or fails. -/
namespace Retouch.Changes
open Execution Inquiry Candidates Course Listing Stillness Terminators

abbrev Change := Path × Document × Document

def changeOf (root : Path) (range : RevisionRange) (sorted : Bool) (options : Settings) (path : Path) :
    Run (Progress (Option Change)) :=
  reformatFile root range sorted (fun _ file old new => return some (file,old,new)) ⟨none,options⟩ path

theorem reformatFileChange {σ : Type} (root : Path) (range : RevisionRange) (sorted : Bool) (sink : Sink σ)
    (progress : Progress σ) (path : Path) :
    reformatFile root range sorted sink progress path = (do
      let found ← changeOf root range sorted progress.options path
      match found.gathered with
      | some (file,old,new) => return ⟨← sink progress.gathered file old new,found.options⟩
      | none => return ⟨progress.gathered,found.options⟩) := by
  unfold changeOf reformatFile
  simp only [bind_assoc]
  refine bind_congr (fun job => bind_congr (fun (result,left) => ?_))
  cases result with
  | none => simp
  | some result => by_cases same : (result.same job.worktree).1 = true <;> simp [same]

def changeAt (root : Path) (range : RevisionRange) (sorted : Bool) (options : Settings) (path : Path) (tools : Tools)
    (s : Session) : Option Change :=
  match (exec (changeOf root range sorted options path) tools s).1 with
  | .ok found => found.gathered
  | .error _ => none

def changes {σ : Type} (root : Path) (range : RevisionRange) (sorted : Bool) (sink : Sink σ) (tools : Tools) :
    List Path → Progress σ → Session → List Change
  | [],_,_ => []
  | path :: rest,progress,s => (changeAt root range sorted progress.options path tools s).toList ++
    match exec (reformatFile root range sorted sink progress path) tools s with
    | (.ok next,t) => changes root range sorted sink tools rest next t
    | (.error _,_) => []

def handedOn (name : String) (args : List String) (tools : Tools) (s : Session) : List Change :=
  match exec (Program.prepare name args) tools s with
  | (.error _,_) => []
  | (.ok plan,t) =>
    match exec (listing plan.paths plan.range) tools t with
    | (.error _,_) => []
    | (.ok (root,files),u) =>
      changes root plan.range plan.sorted (Program.sink plan.diff plan.check) tools files ⟨false,plan.options⟩ u

def conclude (plan : Program.Plan) (root : Path) (files : List Path) (gathered : Bool) : Run Int := do
  (← commandsOf plan.linters).forM (fun command => Linting.run command root files plan.range)
  return if plan.check && gathered then 1 else 0

theorem runStages (name : String) (args : List String) :
    Program.run name args = (do
      let plan ← Program.prepare name args
      let (root,files) ← listing plan.paths plan.range
      let progress ← files.foldlM (reformatFile root plan.range plan.sorted (Program.sink plan.diff plan.check))
        ⟨false,plan.options⟩
      conclude plan root files progress.gathered) := by
  simp only [Program.run,Program.Plan.carryOut,reformatEditedListed,conclude,bind_assoc,pure_bind]

theorem runCases {name args tools s r u} (run : exec (Program.run name args) tools s = (r,u)) :
    (∃ f, r = .error f ∧ Calm s u ∧ handedOn name args tools s = [] ∧
      ∀ plan t root files v, exec (Program.prepare name args) tools s = (.ok plan,t) →
        exec (listing plan.paths plan.range) tools t ≠ (.ok (root,files),v)) ∨
    ∃ plan t root files v visited w, exec (Program.prepare name args) tools s = (.ok plan,t) ∧
      exec (listing plan.paths plan.range) tools t = (.ok (root,files),v) ∧ Calm s v ∧
      handedOn name args tools s =
        changes root plan.range plan.sorted (Program.sink plan.diff plan.check) tools files ⟨false,plan.options⟩ v ∧
      exec (files.foldlM (reformatFile root plan.range plan.sorted (Program.sink plan.diff plan.check))
        ⟨false,plan.options⟩) tools v = (visited,w) ∧
      ((∃ f, visited = .error f ∧ r = .error f ∧ u = w) ∨
        ∃ progress, visited = .ok progress ∧ exec (conclude plan root files progress.gathered) tools w = (r,u)) := by
  rw [runStages] at run
  unfold handedOn
  rcases execBindCases run with ⟨f,failed,rfl⟩ | ⟨plan,t,prepared,rest⟩
  · rw [failed]
    exact .inl ⟨f,rfl,(withinError (standsPrepare name args) failed).1,rfl,by simp⟩
  have calm := withinEnds (standsPrepare name args) prepared
  rw [prepared]
  rcases execBindCases rest with ⟨f,failed,rfl⟩ | ⟨⟨root,files⟩,v,listed,rest⟩
  · dsimp only
    rw [failed]
    refine .inl ⟨f,rfl,calmLasting.trans calm (withinError (withinListing Stillness.calm _ _) failed).1,rfl,?_⟩
    rintro plan t root files v ⟨⟩ listed
    rw [failed] at listed
    cases listed
  have calm' := withinEnds (withinListing Stillness.calm _ _) listed
  dsimp only
  rw [listed]
  rcases execBindCases rest with ⟨f,failed,rfl⟩ | ⟨progress,w,folded,last⟩
  · exact .inr ⟨plan,t,root,files,v,_,u,rfl,listed,calmLasting.trans calm calm',rfl,failed,.inl ⟨f,rfl,rfl,rfl⟩⟩
  · exact .inr ⟨plan,t,root,files,v,_,w,rfl,listed,calmLasting.trans calm calm',rfl,folded,.inr ⟨progress,rfl,last⟩⟩

theorem standsConclude (plan : Program.Plan) (root : Path) (files : List Path) (gathered : Bool) :
    Stands (conclude plan root files gathered) := standsLinters _ _ _ _ _

theorem concludeStatus {plan root files gathered tools s n u}
    (run : exec (conclude plan root files gathered) tools s = (.ok n,u)) :
    n = if plan.check && gathered then 1 else 0 := by
  rcases execBindCases run with ⟨f,_,impossible⟩ | ⟨commands,t,_,rest⟩
  · cases impossible
  rcases execBindCases rest with ⟨f,_,impossible⟩ | ⟨_,v,_,last⟩
  · cases impossible
  cases last
  rfl

theorem joinedAsRead {lines : List String} (unbroken : ∀ line ∈ lines, Unbroken line) :
    readBreaks (joinLines lines) = joinLines lines := by
  have plain : '\r' ∉ (joinLines lines).toList := by
    induction lines with
    | nil => simp [joinLines]
    | cons line rest ih =>
      have here : '\r' ∉ line.toList := fun member => by
        have broken := unbroken line (by simp) '\r' member
        simp [isLineBreak] at broken
      have later := ih (fun other member => unbroken other (by simp [member]))
      simp only [joinLines] at later
      simpa [joinLines,String.join_cons,here] using later
  exact readBreaksPlain plain

theorem attemptsAccepted {j : Job} {tools : Tools} {options left : Settings} {s t : Session} {result : Document}
    (counted : j.edited.lines = splitLines j.edited.text)
    (run : exec (j.attempts j.edited.lines.length 0 options) tools s = (.ok (some result,left),t)) :
    (∃ k, (verdicts t)[(verdicts s).length + k]? = some (true,result.text) ∧
      tools.objection (s.verified + k) j.edited.text result.text = none) ∧
      readBreaks result.text = result.text ∧ TextKnown result := by
  obtain ⟨trials,ending,u,v,made,quiet,_,concluded,_,same⟩ := searchConcludes j tools options s
  rw [run] at same
  cases ending with
  | skipped => cases same
  | exhausted => cases same
  | failed => cases same
  | passed other =>
    cases same
    obtain ⟨trial,last,agreed,rfl⟩ := (concluded.passed result).mp rfl
    rw [List.getLast?_eq_getElem?] at last
    obtain ⟨a,_,tries,_,number⟩ := triedAt made last
    obtain ⟨_,text,_,plain⟩ := tries.formatted
    have record : (verdicts t)[(verdicts s).length + (trials.length - 1)]? = some (true,trial.result.text) := by
      rw [undisturbedVerdicts quiet,trialsRecorded made,List.getElem?_append_right (by omega),Nat.add_sub_cancel_left,
        List.getElem?_map,last]
      simp [Trial.verdict,agreed]
    have unbroken : ∀ line ∈ trial.result.lines, Unbroken line := by
      intro line member
      rw [tries.built] at member
      rcases chosenFrom member with before | after
      · rw [counted] at before
        exact splitUnbroken _ line before
      · rw [plain] at after
        exact splitUnbroken text line after
    have joined : trial.result.text = joinLines trial.result.lines := by
      rw [tries.built]
      rfl
    refine ⟨⟨trials.length - 1,record,by rw [← number,← tries.objection,agreed]⟩,?_,?_⟩
    · rw [joined]
      exact joinedAsRead unbroken
    · rw [tries.built]
      exact textKnownJoined _

def Compared (tools : Tools) (sorted : Bool) (text edited : String) : Prop :=
  (sorted = false ∧ edited = text) ∨
    sorted = true ∧ ∃ sorter settings, tools.sortImports = some sorter ∧ sorter settings text = .ok edited

theorem openJobCompared {tools root range sorted options path s job t}
    (run : exec (openJob root range sorted options path) tools s = (.ok job,t)) :
    Compared tools sorted job.worktree.text job.edited.text := by
  rcases execBindCases run with ⟨e,_,impossible⟩ | ⟨text,u,_,rest⟩
  · cases impossible
  dsimp only at rest
  cases sorted with
  | false =>
    cases rest
    exact .inl ⟨rfl,rfl⟩
  | true =>
    rcases execBindCases rest with ⟨e,_,impossible⟩ | ⟨edited,v,ordered,last⟩
    · cases impossible
    obtain ⟨sorter,settings,text',installed,answer,rfl⟩ := execSortImports ordered
    cases last
    exact .inr ⟨rfl,sorter,settings,installed,answer⟩

/- A change that is found between sessions `s` and `u`: the old text is that of the file, the new one is another and
passed the comparison, and a file with the new text is read as it stands. The `k`-th verdict after session `s` is
that of comparison `s.verified + k`. -/
structure Vetted (tools : Tools) (sorted : Bool) (s u : Session) (c : Change) : Prop where
  read : ∃ modified raw, s.tree.read s.cwd c.1 = .ok (raw.toUTF8,modified) ∧ c.2.1.text = readBreaks raw
  passed : ∃ k edited, Compared tools sorted c.2.1.text edited ∧
    (verdicts u)[(verdicts s).length + k]? = some (true,c.2.2.text) ∧
    tools.objection (s.verified + k) edited c.2.2.text = none
  changed : c.2.2.text ≠ c.2.1.text
  asRead : readBreaks c.2.2.text = c.2.2.text

theorem vettedLater {tools sorted s t u c} (h : Vetted tools sorted s t c) (adds : Adds t u) : Vetted tools sorted s u c := by
  obtain ⟨k,edited,compared,record,agreed⟩ := h.passed
  obtain ⟨more,recorded,_⟩ := adds
  have inside := (List.getElem?_eq_some_iff.mp record).1
  exact { h with passed := ⟨k,edited,compared,by rw [recorded,List.getElem?_append_left inside,record],agreed⟩ }

theorem vettedEarlier {tools sorted s t u c} (adds : Adds s t) (h : Vetted tools sorted t u c)
    (read : s.tree.read s.cwd c.1 = t.tree.read t.cwd c.1) : Vetted tools sorted s u c := by
  obtain ⟨k,edited,compared,record,agreed⟩ := h.passed
  obtain ⟨more,recorded,counted⟩ := adds
  rw [recorded,List.length_append,Nat.add_assoc] at record
  rw [counted,Nat.add_assoc] at agreed
  exact { h with read := read ▸ h.read, passed := ⟨more.length + k,edited,compared,record,agreed⟩ }

theorem changeVetted {tools root range sorted options path s c left t}
    (run : exec (changeOf root range sorted options path) tools s = (.ok ⟨some c,left⟩,t)) :
    c.1 = root.join path ∧ Vetted tools sorted s t c := by
  unfold changeOf reformatFile at run
  rcases execBindCases run with ⟨e,_,impossible⟩ | ⟨job,u,opening,rest⟩
  · cases impossible
  rcases execBindCases rest with ⟨e,_,impossible⟩ | ⟨⟨result,after⟩,v,searching,last⟩
  · cases impossible
  obtain ⟨opened,quiet⟩ := openJobOpened opening
  obtain ⟨rfl,_,rfl,_⟩ := opened.place
  cases result with
  | none => cases last
  | some result =>
    obtain ⟨⟨k,record,agreed⟩,asRead,known⟩ := attemptsAccepted opened.lines searching
    rw [undisturbedVerdicts quiet] at record
    rw [quiet.verified] at agreed
    dsimp only at last
    split at last
    · rename_i differs
      cases last
      obtain ⟨modified,raw,found,text⟩ := readTextSource opened.read
      have same := sameIffText known opened.worktree
      refine ⟨rfl,⟨modified,raw,found,text⟩,⟨k,_,openJobCompared opening,record,agreed⟩,fun equal => ?_,asRead⟩
      rw [same.mpr equal] at differs
      cases differs
    · cases last

theorem changeOptions {tools root range sorted options path s found left t}
    (run : exec (changeOf root range sorted options path) tools s = (.ok ⟨found,left⟩,t)) :
    left = options.erase "config" ∨ (found = none ∧ left = options) := by
  unfold changeOf reformatFile at run
  rcases execBindCases run with ⟨e,_,impossible⟩ | ⟨job,u,_,rest⟩
  · cases impossible
  rcases execBindCases rest with ⟨e,_,impossible⟩ | ⟨⟨result,after⟩,v,searching,last⟩
  · cases impossible
  have options := attemptsOptions _ searching
  cases result with
  | none =>
    cases last
    exact options.imp_right (fun idle => ⟨rfl,idle.2⟩)
  | some result =>
    have used := options.resolve_right (fun idle => Option.some_ne_none result idle.1)
    dsimp only at last
    split at last
    · cases last
      exact .inl used
    · cases last
      exact .inl used

theorem changeStill {root range sorted options path tools s r t}
    (run : exec (changeOf root range sorted options path) tools s = (r,t)) : Still s t := by
  rcases reformatFileCases root range sorted (fun _ file old new => return some (file,old,new)) ⟨none,options⟩ path tools s with
    ⟨f,u,same,opening⟩ | ⟨v,u,visit,⟨f,_,same⟩ | ⟨_,_,same⟩ | ⟨file,old,new,_,_,same⟩⟩
  · cases run.symm.trans same
    exact undisturbedStill (withinError (asksOpenJob _ _ _ _ _) opening).1
  · cases run.symm.trans same
    exact steadyStill (searchedSteady visit)
  · cases run.symm.trans same
    exact steadyStill (searchedSteady visit)
  · cases run.symm.trans same
    exact steadyStill (searchedSteady visit)

end Retouch.Changes
