import Retouch.Proofs.EditedLines
import Retouch.Proofs.Inquiry
import Retouch.Proofs.Lookup
import Retouch.Reformat

/-! Candidates for one file. Each attempt builds the candidate of its context, has it compared once, and
puts the verdict on record; the search ends with the first candidate that passes, or with the one that
counts every line as context. -/
namespace Retouch.Candidates
open Execution Inquiry

structure TextKnown (d : Document) : Prop where
  known : d.text?.isSome
  blank : d.text = "" → d.lines?.getD [] = []

theorem textKnownStored {d : Document} (h : TextKnown d) : d.text?.getD "" = d.text := by
  have known := h.known
  unfold Document.text
  cases stored : d.text? with
  | none => simp [stored] at known
  | some text => rfl

/- Comparison looks at stored forms in a fixed order. Once the texts are known it compares the texts. -/
theorem sameIffText {d other : Document} (h : TextKnown d) (h' : TextKnown other) :
    (d.same other).1 = true ↔ d.text = other.text := by
  have stored := textKnownStored h
  have stored' := textKnownStored h'
  unfold Document.same
  by_cases blank : d.text = ""
  · have lacks : d.lacksText = true := by simp [Document.lacksText,stored,blank]
    have bare : d.lacksLines = true := by simp [Document.lacksLines,h.blank blank]
    rw [if_pos lacks,if_pos bare,blank]
    simp only [Document.lacksText,stored',Bool.and_eq_true,beq_iff_eq]
    constructor
    · exact fun both => both.1.symm
    · intro empty
      exact ⟨empty.symm,by simp [Document.lacksLines,h'.blank empty.symm]⟩
  · have lacks : ¬d.lacksText = true := by simpa [Document.lacksText,stored] using blank
    rw [if_neg lacks,stored]
    simp

theorem splitLinesEmpty : splitLines "" = [] := by
  rw [splitLines,String.toList_empty]
  rfl

theorem textKnownOfText (text : String) : TextKnown (Document.ofText text) := ⟨rfl,fun _ => rfl⟩

theorem textKnownCounted (text : String) : TextKnown (Document.ofText text).keepLines := by
  refine ⟨rfl,fun blank => ?_⟩
  have empty : text = "" := blank
  simp [Document.keepLines,Document.lines,Document.ofText,empty,splitLinesEmpty]

theorem joinLinesEmpty {lines : List String} (empty : joinLines lines = "") : lines = [] := by
  cases lines with
  | nil => rfl
  | cons line rest =>
    have length := congrArg String.length empty
    simp [joinLines,String.join_cons] at length

theorem textKnownJoined (lines : List String) : TextKnown (Document.ofLines lines).keepText :=
  ⟨rfl,fun blank => joinLinesEmpty blank⟩

/- Comparison reads the candidate's text, so the text is kept from then on. -/
def candidate (old edited formatted : Document) (context : Nat) : Document :=
  (Document.ofLines (chooseLines (editedLines (diffLines old.lines edited.lines) context)
    ((diffLines edited.lines formatted.lines).map (Chunk.ofEdit edited.lines formatted.lines)))).keepText

structure Trial where
  old : Document
  formatted : Document
  result : Document
  objection : Option String

def verdicts (s : Session) : List (Bool × String) :=
  s.events.toList.filterMap (fun e => match e with
    | .verify passed text => some (passed,text)
    | _ => none)

def Trial.verdict (t : Trial) : Bool × String := (t.objection.isNone,t.result.text)

structure Steady (s s' : Session) : Prop where
  tree : s'.tree = s.tree
  cwd : s'.cwd = s.cwd
  linted : s'.linted = s.linted

theorem steadyTrans {s t u : Session} (h : Steady s t) (h' : Steady t u) : Steady s u :=
  ⟨h'.tree.trans h.tree,h'.cwd.trans h.cwd,h'.linted.trans h.linted⟩

theorem undisturbedSteady {s s' : Session} (h : Undisturbed s s') : Steady s s' :=
  ⟨h.tree,h.cwd,h.linted⟩

theorem undisturbedVerdicts {s s' : Session} (h : Undisturbed s s') : verdicts s' = verdicts s := by
  obtain ⟨asked,eq,questions⟩ := h.events
  have none : asked.filterMap (fun e => match e with
      | .verify passed text => some (passed,text)
      | _ => none) = [] := by
    rw [List.filterMap_eq_nil_iff]
    intro e member
    have question := questions e member
    cases e <;> simp_all [IsQuestion]
  simp only [verdicts,eq,List.filterMap_append,none,List.append_nil]

def Adds (s s' : Session) : Prop :=
  ∃ more, verdicts s' = verdicts s ++ more ∧ s'.verified = s.verified + more.length

theorem addsNothing {s s' : Session} (same : verdicts s' = verdicts s) (verified : s'.verified = s.verified) : Adds s s' :=
  ⟨[],by simpa using same,verified⟩

theorem addsLasting : Lasting Adds where
  refl _ := addsNothing rfl rfl
  trans := by
    rintro s t u ⟨more,recorded,counted⟩ ⟨more',recorded',counted'⟩
    exact ⟨more ++ more',by rw [recorded',recorded,List.append_assoc],by rw [counted',counted,List.length_append]; omega⟩

theorem undisturbedAdds {s s' : Session} (h : Undisturbed s s') : Adds s s' := addsNothing (undisturbedVerdicts h) h.verified

structure Tries (tools : Tools) (j : Job) (context : Nat) (s : Session) (t : Trial) (s' : Session) : Prop where
  revision : (exec (contentAt j.path j.range.source j.root) tools s).1 = .ok t.old
  formatted : ∃ mode text, tools.format mode j.edited.text = .ok text ∧ t.formatted = Document.ofText text
  built : t.result = candidate t.old j.edited t.formatted context
  objection : t.objection = tools.objection s.verified j.edited.text t.result.text
  counted : s'.verified = s.verified + 1
  recorded : verdicts s' = verdicts s ++ [t.verdict]
  steady : Steady s s'

def Skips (j : Job) (old : Document) (context : Nat) : Prop :=
  j.sorted = true ∧ editedLines (diffLines old.lines j.edited.lines) context = [] ∧ (j.edited.same j.worktree).1 = true

def Trial.outcome (t : Trial) : Job.Outcome :=
  match t.objection with
  | none => .accepted t.result
  | some reason => .objected reason

theorem execChoose (lines : List Int) (chunks : List Chunk) (tools : Tools) (s : Session) :
    ∃ s', exec (choose lines chunks) tools s = (.ok (chooseLines lines chunks),s') ∧ Undisturbed s s' := by
  have reports (messages : List String) (s : Session) :
      ∃ s', exec (messages.forM (Run.debug .chooser)) tools s = (.ok ⟨⟩,s') ∧ Undisturbed s s' := by
    induction messages generalizing s with
    | nil => exact ⟨s,rfl,undisturbedLasting.refl s⟩
    | cons message rest ih =>
      obtain ⟨s',run,kept⟩ := ih (exec (Run.debug .chooser message) tools s).2
      have noted : exec (Run.debug .chooser message) tools s = (.ok ⟨⟩,(exec (Run.debug .chooser message) tools s).2) := rfl
      refine ⟨s',?_,undisturbedLasting.trans (withinDebug undisturbed _ _ tools s).1 kept⟩
      exact (execBindOk noted).trans run
  obtain ⟨s',run,kept⟩ := reports (chunks.flatMap (Chunk.report lines)) s
  exact ⟨s',by rw [choose,execBindOk run]; rfl,kept⟩

theorem execObjection (edited result : Document) (chunks : List Chunk) (lines : List Int) (tools : Tools)
    (s : Session) :
    ∃ s', exec (objectionTo edited result chunks lines) tools s =
        (.ok (tools.objection s.verified edited.text result.text),s') ∧
      s'.verified = s.verified + 1 ∧ Steady s s' ∧
      verdicts s' = verdicts s ++ [((tools.objection s.verified edited.text result.text).isNone,result.text)] ∧
      s'.out = s.out ++ if (tools.objection s.verified edited.text result.text).isNone then "" else dumpChunks chunks lines := by
  let judged (passed : Bool) : Session :=
    { s with verified := s.verified + 1, events := s.events.push (.verify passed result.text) }
  cases answer : tools.objection s.verified edited.text result.text with
  | none =>
    refine ⟨judged true,?_,rfl,⟨rfl,rfl,rfl⟩,by simp [judged,verdicts],by simp [judged]⟩
    simp only [objectionTo,execBind,execGet,execSet,execRead,Run.record,execModify,answer]
    rfl
  | some reason =>
    refine ⟨{ judged false with out := s.out ++ dumpChunks chunks lines },?_,rfl,⟨rfl,rfl,rfl⟩,
      by simp [judged,verdicts],by simp⟩
    simp only [objectionTo,execBind,execGet,execSet,execRead,Run.record,execModify,answer]
    rfl

theorem skipsExact (j : Job) (old : Document) (context : Nat) :
    (j.sorted && (editedLines (diffLines old.lines j.edited.lines) context).isEmpty && (j.edited.same j.worktree).1) = true ↔
      Skips j old context := by
  simp [Skips,and_assoc]

theorem attemptJudges {j : Job} {context : Nat} {options left : Settings} {tools : Tools} {s u : Session}
    {old formatted : Document} (content : (exec (contentAt j.path j.range.source j.root) tools s).1 = .ok old)
    (busy : ¬Skips j old context)
    (done : exec (Formatter.format j.file j.edited options) tools
      (exec (editedSince j.root j.range j.path j.edited context) tools s).2 = (.ok (formatted,left),u)) :
    ∃ r s', exec (j.attempt context options) tools s = (.ok (r.outcome,left),s') ∧ r.old = old ∧
      r.formatted = formatted ∧ Tries tools j context s r s' := by
  have found := @editedSinceFound j.root j.range j.path j.edited context tools s old content
  have kept := withinEnds (withinEditedSince undisturbed _ _ _ _ _) found
  have kept' := withinEnds (asksFormat _ _ _) done
  obtain ⟨_,mode,text,answer,plain⟩ := execFormat done
  rw [Job.attempt,execBindOk found,if_neg (mt (skipsExact j old context).mp busy),execBindOk done]
  dsimp only
  obtain ⟨v,run,still⟩ := execDebug .program _ tools u
  rw [execBindOk run]
  obtain ⟨w,run,still'⟩ := execDebug .program _ tools v
  rw [execBindOk run]
  obtain ⟨x,run,compared⟩ := execDiffDocuments j.edited formatted tools w
  rw [execBindOk run,chunksOfDiff]
  obtain ⟨y,run,chosen⟩ := execChoose (editedLines (diffLines old.lines j.edited.lines) context)
    ((diffLines j.edited.lines formatted.lines).map (Chunk.ofEdit j.edited.lines formatted.lines)) tools x
  rw [execBindOk (show exec (Run.ofOption _ (some _)) tools x = (.ok _,x) from rfl),execBindOk run]
  obtain ⟨z,run,told⟩ := execDebug .program _ tools y
  rw [execBindOk run]
  have quiet : Undisturbed s z := by
    have trans := @Lasting.trans _ undisturbedLasting
    exact trans kept (trans kept' (trans still (trans still' (trans compared (trans chosen told)))))
  obtain ⟨s',run,verified,steady,recorded,_⟩ := execObjection j.edited
    (Document.ofLines (chooseLines (editedLines (diffLines old.lines j.edited.lines) context)
      ((diffLines j.edited.lines formatted.lines).map (Chunk.ofEdit j.edited.lines formatted.lines)))) _ _ tools z
  rw [execBindOk run]
  let result := candidate old j.edited formatted context
  refine ⟨⟨old,formatted,result,tools.objection z.verified j.edited.text result.text⟩,s',?_,rfl,rfl,?_⟩
  · change exec (match tools.objection z.verified j.edited.text result.text with
      | none => pure (Job.Outcome.accepted result,left)
      | some reason => pure (Job.Outcome.objected reason,left)) tools s' = _
    cases tools.objection z.verified j.edited.text result.text <;> rfl
  · refine ⟨content,⟨mode,text,answer,plain⟩,rfl,by rw [quiet.verified],by rw [verified,quiet.verified],?_,
      steadyTrans (undisturbedSteady quiet) steady⟩
    rw [recorded,undisturbedVerdicts quiet]
    rfl

def Blocked (tools : Tools) (j : Job) (options : Settings) (context : Nat) (s : Session) (f : Failure) : Prop :=
  (exec (contentAt j.path j.range.source j.root) tools s).1 = .error f ∨
  ∃ old, (exec (contentAt j.path j.range.source j.root) tools s).1 = .ok old ∧ ¬Skips j old context ∧
    (exec (Formatter.format j.file j.edited options) tools
      (exec (editedSince j.root j.range j.path j.edited context) tools s).2).1 = .error f

theorem blockedForeign {tools : Tools} {j : Job} {options : Settings} {context : Nat} {s : Session} {f : Failure}
    (h : Blocked tools j options context s f) : Foreign f := by
  rcases h with missing | ⟨_,_,_,failed⟩
  · exact (withinContentAt undisturbed _ _ _ tools s).2 f missing
  · exact (asksFormat _ _ options tools _).2 f failed

theorem blockedBusy {tools : Tools} {j : Job} {options : Settings} {context : Nat} {s : Session} {f : Failure}
    (h : Blocked tools j options context s f) {old : Document}
    (content : (exec (contentAt j.path j.range.source j.root) tools s).1 = .ok old) : ¬Skips j old context := by
  rcases h with missing | ⟨known,found,busy,_⟩
  · cases missing.symm.trans content
  · exact Except.ok.inj (found.symm.trans content) ▸ busy

theorem attemptCases (j : Job) (context : Nat) (options : Settings) (tools : Tools) (s : Session) :
    (∃ f s', exec (j.attempt context options) tools s = (.error f,s') ∧ Undisturbed s s' ∧
      Blocked tools j options context s f) ∨
    (∃ old s', exec (j.attempt context options) tools s = (.ok (.idle,options),s') ∧ Undisturbed s s' ∧
      (exec (contentAt j.path j.range.source j.root) tools s).1 = .ok old ∧ Skips j old context) ∨
    ∃ t left s', exec (j.attempt context options) tools s = (.ok (t.outcome,left),s') ∧
      Tries tools j context s t s' ∧ ¬Skips j t.old context ∧ left = Settings.erase options "config" := by
  rcases content : (exec (contentAt j.path j.range.source j.root) tools s).1 with f | old
  · have missing : exec (editedSince j.root j.range j.path j.edited context) tools s =
        (.error f,(exec (editedSince j.root j.range j.path j.edited context) tools s).2) :=
      Prod.ext (by rw [editedSinceContent,content]; rfl) rfl
    have kept := (withinError (withinEditedSince undisturbed _ _ _ _ _) missing).1
    exact .inl ⟨f,_,execBindError missing,kept,.inl content⟩
  have found := @editedSinceFound j.root j.range j.path j.edited context tools s old content
  have kept := withinEnds (withinEditedSince undisturbed _ _ _ _ _) found
  by_cases skips : Skips j old context
  · obtain ⟨v,run,told⟩ := execDebug .program s!"No changes in {j.file.render} after isort" tools
      (exec (editedSince j.root j.range j.path j.edited context) tools s).2
    refine .inr (.inl ⟨old,v,?_,undisturbedLasting.trans kept told,rfl,skips⟩)
    rw [Job.attempt,execBindOk found,if_pos ((skipsExact j old context).mpr skips),execBindOk run]
    rfl
  · rcases done : exec (Formatter.format j.file j.edited options) tools
      (exec (editedSince j.root j.range j.path j.edited context) tools s).2 with ⟨f | ⟨formatted,left⟩,v⟩
    · have kept' := (withinError (asksFormat _ _ _) done).1
      refine .inl ⟨f,v,?_,undisturbedLasting.trans kept kept',.inr ⟨old,content,skips,by rw [done]⟩⟩
      rw [Job.attempt,execBindOk found,if_neg (mt (skipsExact j old context).mp skips),execBindError done]
    · obtain ⟨t,s',run,same,_,tries⟩ := attemptJudges content skips done
      exact .inr (.inr ⟨t,left,s',run,tries,same ▸ skips,(execFormat done).1⟩)

theorem trialNotIdle (t : Trial) : t.outcome ≠ .idle := by
  unfold Trial.outcome
  split <;> simp

theorem attemptOptions {j : Job} {context : Nat} {options left : Settings} {tools : Tools} {s t : Session}
    {outcome : Job.Outcome} (run : exec (j.attempt context options) tools s = (.ok (outcome,left),t)) :
    (outcome = .idle ∧ left = options) ∨ (outcome ≠ .idle ∧ left = Settings.erase options "config") := by
  rcases attemptCases j context options tools s with
    ⟨f,_,failed,_⟩ | ⟨_,_,idle,_⟩ | ⟨trial,_,_,judged,_,_,erased⟩
  · cases run.symm.trans failed
  · cases run.symm.trans idle
    exact .inl ⟨rfl,rfl⟩
  · cases run.symm.trans judged
    exact .inr ⟨trialNotIdle trial,erased⟩

theorem attemptsOptions {j : Job} (n : Nat) {context : Nat} {options left : Settings} {tools : Tools} {s t : Session}
    {result : Option Document} (run : exec (j.attempts n context options) tools s = (.ok (result,left),t)) :
    left = Settings.erase options "config" ∨ (result = none ∧ left = options) := by
  rw [Job.attempts] at run
  rcases execBindCases run with ⟨f,_,impossible⟩ | ⟨⟨outcome,after⟩,u,tried,rest⟩
  · cases impossible
  rcases attemptOptions tried with ⟨rfl,rfl⟩ | ⟨busy,rfl⟩
  · cases rest
    exact .inr ⟨rfl,rfl⟩
  cases outcome with
  | idle => exact absurd rfl busy
  | accepted =>
    cases rest
    exact .inl rfl
  | objected =>
    cases n with
    | zero => cases rest
    | succ n =>
      obtain ⟨v,told,_⟩ := execDebug .program _ tools u
      rw [execBindOk told] at rest
      rcases attemptsOptions n rest with same | ⟨_,same⟩
      · exact .inl (by rw [same,Lookup.erasedTwice])
      · exact .inl same

def optionsLeft (options : Settings) (made : Nat) : Settings :=
  if made = 0 then options else Settings.erase options "config"

theorem optionsLeftAdd (options : Settings) (n m : Nat) :
    optionsLeft (optionsLeft options n) m = optionsLeft options (n + m) := by
  cases n with
  | zero => rw [Nat.zero_add]; rfl
  | succ n =>
    cases m with
    | zero => rfl
    | succ m => exact Lookup.erasedTwice options "config"

structure Judges (R : Session → Session → Prop) : Prop extends Serves R (fun _ => True) where
  judged : ∀ edited result chunks lines, Within R (fun _ => True) (objectionTo edited result chunks lines)

theorem addsJudges : Judges Adds where
  lasting := addsLasting
  noted _ _ _ := addsNothing rfl rfl
  asked _ root args := undisturbedAdds (undisturbed.asked _ root args)
  rooted _ _ _ := addsNothing rfl rfl
  foreign _ _ := trivial
  called _ e question := undisturbedAdds (undisturbedServes.called _ e question)
  configured _ _ := addsNothing rfl rfl
  judged edited result chunks lines tools s := by
    obtain ⟨s',run,counted,_,recorded,_⟩ := execObjection edited result chunks lines tools s
    rw [run]
    exact ⟨⟨_,recorded,counted⟩,fun _ _ => trivial⟩

theorem withinChoose {R : Session → Session → Prop} {F : Failure → Prop} (tolerant : Tolerates R F) (lines : List Int)
    (chunks : List Chunk) : Within R F (choose lines chunks) := by
  refine withinBind tolerant.lasting (withinForM tolerant.lasting _ (fun _ _ => withinDebug tolerant _ _)) (fun _ => ?_)
  exact withinPure tolerant.lasting _

section
variable {R : Session → Session → Prop} (judges : Judges R)
include judges

theorem withinAttempt (j : Job) (context : Nat) (options : Settings) :
    Within R (fun _ => True) (j.attempt context options) := by
  have lasting := judges.lasting
  have debug (message : String) := withinDebug judges.toTolerates .program message
  refine withinBind lasting (withinEditedSince judges.toTolerates _ _ _ _ _) (fun lines => ?_)
  split
  · exact withinBind lasting (debug _) (fun _ => withinPure lasting _)
  refine withinBind lasting (withinFormat judges.toServes _ _ _) (fun (formatted,left) => ?_)
  refine withinBind lasting (debug _) (fun _ => withinBind lasting (debug _) (fun _ => ?_))
  refine withinBind lasting (withinDiffDocuments judges.toTolerates _ _) (fun edits => ?_)
  refine withinBind lasting (withinOfOption lasting trivial _) (fun chunks => ?_)
  refine withinBind lasting (withinChoose judges.toTolerates _ _) (fun chosen => withinBind lasting (debug _) (fun _ => ?_))
  refine withinBind lasting (judges.judged _ _ _ _) (fun objection => ?_)
  cases objection <;> exact withinPure lasting _

theorem withinAttempts (j : Job) (n context : Nat) (options : Settings) :
    Within R (fun _ => True) (j.attempts n context options) := by
  have lasting := judges.lasting
  induction n generalizing context options with
  | zero =>
    rw [Job.attempts]
    refine withinBind lasting (withinAttempt judges _ _ _) (fun (outcome,left) => ?_)
    cases outcome with
    | idle => exact withinPure lasting _
    | accepted => exact withinPure lasting _
    | objected => exact withinFail lasting trivial
  | succ n ih =>
    rw [Job.attempts]
    refine withinBind lasting (withinAttempt judges _ _ _) (fun (outcome,left) => ?_)
    cases outcome with
    | idle => exact withinPure lasting _
    | accepted => exact withinPure lasting _
    | objected => exact withinBind lasting (withinDebug judges.toTolerates _ _) (fun _ => ih _ _)

end

inductive Trials (tools : Tools) (j : Job) : Nat → Session → List Trial → Session → Prop where
  | nil {context s} : Trials tools j context s [] s
  | cons {context s t u ts s'} (first : Tries tools j context s t u)
      (rest : Trials tools j (context+1) u ts s') : Trials tools j context s (t :: ts) s'

theorem triedAt {tools j context s trials s' t} (h : Trials tools j context s trials s') {k : Nat}
    (found : trials[k]? = some t) :
    ∃ a b, Tries tools j (context + k) a t b ∧ Steady s a ∧ a.verified = s.verified + k := by
  induction h generalizing k with
  | nil => simp at found
  | @cons context s t' u ts s' first rest ih =>
    cases k with
    | zero =>
      cases Option.some.inj found
      exact ⟨s,u,first,⟨rfl,rfl,rfl⟩,rfl⟩
    | succ k =>
      obtain ⟨a,b,tries,steady,counted⟩ := ih (by simpa using found)
      rw [Nat.add_assoc,Nat.add_comm 1 k] at tries
      rw [first.counted,Nat.add_assoc,Nat.add_comm 1 k] at counted
      exact ⟨a,b,tries,steadyTrans first.steady steady,counted⟩

theorem trialsRecorded {tools j context s trials s'} (h : Trials tools j context s trials s') :
    verdicts s' = verdicts s ++ trials.map Trial.verdict := by
  induction h with
  | nil => simp
  | cons first _ ih => rw [ih,first.recorded,List.map_cons,List.append_assoc,List.singleton_append]

inductive Ending where
  | skipped
  | passed (result : Document)
  | exhausted (reason : String)
  | failed (f : Failure)

def Ending.value (options : Settings) : Ending → Except Failure (Option Document × Settings)
  | .skipped => .ok (none,options)
  | .passed result => .ok (some result,options)
  | .exhausted reason => .error (.notEquivalent reason)
  | .failed f => .error f

inductive Ends (blocked : Failure → Prop) : Nat → List Trial → Ending → Prop where
  | failed {left f} (reason : blocked f) : Ends blocked left [] (.failed f)
  | passed {left t} (agreed : t.objection = none) : Ends blocked left [t] (.passed t.result)
  | exhausted {t reason} (refused : t.objection = some reason) : Ends blocked 0 [t] (.exhausted reason)
  | again {left t reason ts ending} (refused : t.objection = some reason) (rest : Ends blocked left ts ending) :
      Ends blocked (left+1) (t :: ts) ending

theorem triesThen {tools : Tools} {j : Job} {context : Nat} {s u s' : Session} {t : Trial}
    (h : Tries tools j context s t u) (quiet : Undisturbed u s') : Tries tools j context s t s' :=
  ⟨h.revision,h.formatted,h.built,h.objection,by rw [quiet.verified,h.counted],
    by rw [undisturbedVerdicts quiet,h.recorded],steadyTrans h.steady (undisturbedSteady quiet)⟩

theorem triesSteadyContent {tools : Tools} {j : Job} {context : Nat} {s s' : Session} {t : Trial}
    (h : Tries tools j context s t s') :
    (exec (contentAt j.path j.range.source j.root) tools s').1 =
      (exec (contentAt j.path j.range.source j.root) tools s).1 :=
  contentStable tools _ _ _ h.steady.tree h.steady.cwd

/- `live` says that the shortcut is out of the question; the revision's content is the same in every
round, so it stays out of the question. -/
theorem attemptsEnd {j : Job} {tools : Tools} (left context : Nat) (options : Settings) (s : Session)
    (live : ∀ old c, (exec (contentAt j.path j.range.source j.root) tools s).1 = .ok old → ¬Skips j old c) :
    ∃ trials ending u s', Trials tools j context s trials u ∧ Undisturbed u s' ∧
      (∀ R : Session → Session → Prop, Judges R → R s u) ∧
      Ends (Blocked tools j (optionsLeft options trials.length) (context + trials.length) u) left trials ending ∧
      exec (j.attempts left context options) tools s = (ending.value (optionsLeft options trials.length),s') := by
  rw [Job.attempts]
  rcases attemptCases j context options tools s with
    ⟨f,s',run,kept,blocked⟩ | ⟨old,_,_,_,content,skips⟩ | ⟨t,after,s',run,tries,_,erased⟩
  · exact ⟨[],.failed f,s,s',.nil,kept,fun _ judges => judges.lasting.refl s,.failed blocked,execBindError run⟩
  · exact absurd skips (live old context content)
  · have reached (R : Session → Session → Prop) (judges : Judges R) : R s s' :=
      withinEnds (withinAttempt judges j context options) run
    rw [execBindOk run]
    subst erased
    cases verdict : t.objection with
    | none =>
      refine ⟨[t],.passed t.result,s',s',.cons tries .nil,undisturbedLasting.refl s',reached,.passed verdict,?_⟩
      simp [Trial.outcome,verdict,Ending.value,optionsLeft]
    | some reason =>
      simp only [Trial.outcome,verdict]
      cases left with
      | zero =>
        exact ⟨[t],.exhausted reason,s',s',.cons tries .nil,undisturbedLasting.refl s',reached,.exhausted verdict,rfl⟩
      | succ left =>
        obtain ⟨u,told,quiet⟩ := execDebug .program _ tools s'
        rw [execBindOk told]
        have again := triesThen tries quiet
        have live' (old : Document) (c : Nat)
            (content : (exec (contentAt j.path j.range.source j.root) tools u).1 = .ok old) : ¬Skips j old c :=
          live old c (triesSteadyContent again ▸ content)
        obtain ⟨trials,ending,v,w,rest,still,later,ends,last⟩ :=
          attemptsEnd left (context+1) (optionsLeft options 1) u live'
        rw [optionsLeftAdd,Nat.add_comm 1] at ends last
        rw [Nat.add_assoc,Nat.add_comm 1] at ends
        refine ⟨t :: trials,ending,v,w,.cons again rest,still,?_,.again verdict ends,last⟩
        intro R judges
        have noted := withinEnds (withinDebug judges.toTolerates .program _) told
        exact judges.lasting.trans (reached R judges) (judges.lasting.trans noted (later R judges))

/- The same endings told by what stands in the list: at most `limit` candidates fail before the last,
only the last one can pass, and the search gives up exactly when all `limit + 1` of them failed. -/
structure Concluded (blocked : Failure → Prop) (limit : Nat) (trials : List Trial) (ending : Ending) : Prop where
  bounded : trials.length ≤ limit + 1
  refused : ∀ t ∈ trials.dropLast, t.objection.isSome
  skipped : ending = .skipped → trials = []
  passed : ∀ result, ending = .passed result ↔
    ∃ t, trials.getLast? = some t ∧ t.objection = none ∧ t.result = result
  exhausted : ∀ reason, ending = .exhausted reason ↔
    trials.length = limit + 1 ∧ ∃ t, trials.getLast? = some t ∧ t.objection = some reason
  failed : ∀ f, ending = .failed f → blocked f

theorem endsConcluded {blocked : Failure → Prop} {limit : Nat} {trials : List Trial} {ending : Ending}
    (h : Ends blocked limit trials ending) : Concluded blocked limit trials ending := by
  induction h with
  | failed reason =>
    refine ⟨by simp,by simp,by simp,by simp,by simp,?_⟩
    intro f same
    cases same
    exact reason
  | passed agreed => exact ⟨by simp,by simp,by simp,by simp [agreed],by simp [agreed],by simp⟩
  | exhausted refused => exact ⟨by simp,by simp,by simp,by simp [refused],by simp [refused],by simp⟩
  | @again left t reason ts ending refused rest ih =>
    cases ts with
    | nil =>
      cases rest with
      | failed reason =>
        refine ⟨by simp,by simp,by simp,by simp [refused],by simp,?_⟩
        intro f same
        cases same
        exact reason
    | cons t' ts =>
      refine ⟨?_,?_,?_,?_,?_,ih.failed⟩
      · have bounded := ih.bounded
        simp only [List.length_cons] at bounded ⊢
        omega
      · intro u member
        rw [List.dropLast_cons_cons] at member
        rcases List.mem_cons.mp member with rfl | later
        · simp [refused]
        · exact ih.refused u later
      · intro skipped
        have none := ih.skipped skipped
        contradiction
      · simpa only [List.getLast?_cons_cons] using ih.passed
      · intro reason
        rw [ih.exhausted reason,List.getLast?_cons_cons]
        simp

theorem endsNotSkipped {blocked : Failure → Prop} {limit : Nat} {trials : List Trial} {ending : Ending}
    (h : Ends blocked limit trials ending) : ending ≠ .skipped := by
  induction h with
  | failed => simp
  | passed => simp
  | exhausted => simp
  | again _ _ ih => exact ih

theorem skipsOnlyFirst {j : Job} {old : Document} {context : Nat} (h : Skips j old context) : Skips j old 0 := by
  refine ⟨h.1,?_,h.2.2⟩
  rw [List.eq_nil_iff_forall_not_mem]
  intro n member
  have later := EditedLines.editedLinesGrow (EditedLines.diffSpans _ _) (Int.le_refl _) (Int.natCast_nonneg context) member
  rw [h.2.1] at later
  contradiction

theorem searchConcludes (j : Job) (tools : Tools) (options : Settings) (s : Session) :
    ∃ trials ending u s', Trials tools j 0 s trials u ∧ Undisturbed u s' ∧
      (∀ R : Session → Session → Prop, Judges R → R s u) ∧
      Concluded (Blocked tools j (optionsLeft options trials.length) trials.length u) j.edited.lines.length trials ending ∧
      (ending = .skipped ↔ ∃ old, (exec (contentAt j.path j.range.source j.root) tools s).1 = .ok old ∧ Skips j old 0) ∧
      exec (j.attempts j.edited.lines.length 0 options) tools s = (ending.value (optionsLeft options trials.length),s') := by
  rcases attemptCases j 0 options tools s with
    ⟨f,s',run,kept,blocked⟩ | ⟨old,s',run,kept,content,skips⟩ | ⟨t,_,_,_,tries,busy,_⟩
  · refine ⟨[],.failed f,s,s',.nil,kept,fun _ judges => judges.lasting.refl s,endsConcluded (.failed blocked),?_,?_⟩
    · exact ⟨by simp,fun ⟨old,content,skips⟩ => absurd skips (blockedBusy blocked content)⟩
    · rw [Job.attempts,execBindError run]
      rfl
  · refine ⟨[],.skipped,s,s',.nil,kept,fun _ judges => judges.lasting.refl s,?_,
      ⟨fun _ => ⟨old,content,skips⟩,fun _ => rfl⟩,?_⟩
    · exact ⟨by simp,by simp,by simp,by simp,by simp,by simp⟩
    · rw [Job.attempts,execBindOk run]
      rfl
  · have live (old : Document) (c : Nat) (content : (exec (contentAt j.path j.range.source j.root) tools s).1 = .ok old) :
        ¬Skips j old c := by
      intro skips
      have same : t.old = old := Except.ok.inj (tries.revision.symm.trans content)
      exact busy (same ▸ skipsOnlyFirst skips)
    obtain ⟨trials,ending,u,s',made,quiet,reached,ends,run⟩ := attemptsEnd j.edited.lines.length 0 options s live
    rw [Nat.zero_add] at ends
    refine ⟨trials,ending,u,s',made,quiet,reached,endsConcluded ends,?_,run⟩
    exact ⟨fun skipped => absurd skipped (endsNotSkipped ends),fun ⟨old,content,skips⟩ => absurd skips (live old 0 content)⟩

theorem firstCandidatePasses {j : Job} {tools : Tools} {options left : Settings} {s u v : Session}
    {old formatted : Document} (unsorted : j.sorted = false)
    (content : exec (contentAt j.path j.range.source j.root) tools s = (.ok old,u))
    (done : exec (Formatter.format j.file j.edited options) tools (exec (diffDocuments old j.edited) tools u).2 =
      (.ok (formatted,left),v))
    (agreed : tools.objection s.verified j.edited.text (candidate old j.edited formatted 0).text = none) (n : Nat) :
    ∃ s', exec (j.attempts n 0 options) tools s = (.ok (some (candidate old j.edited formatted 0),left),s') ∧
      Steady s s' ∧ verdicts s' = verdicts s ++ [(true,(candidate old j.edited formatted 0).text)] := by
  have asked : (exec (editedSince j.root j.range j.path j.edited 0) tools s).2 =
      (exec (diffDocuments old j.edited) tools u).2 := by
    rw [editedSince,execBindOk content,execBindOk (show exec (diffDocuments old j.edited) tools u = (.ok _,_) from rfl),
      editedLinesOfDiff]
    rfl
  rw [← asked] at done
  obtain ⟨r,s',run,rfl,rfl,tries⟩ := @attemptJudges j 0 _ _ _ _ _ _ _ (by rw [content]) (by simp [Skips,unsorted]) done
  have passed : r.objection = none := by rw [tries.objection,tries.built,agreed]
  refine ⟨s',?_,tries.steady,by rw [tries.recorded,Trial.verdict,passed,← tries.built]; rfl⟩
  rw [Job.attempts,execBindOk run,Trial.outcome,passed,← tries.built]
  rfl

end Retouch.Candidates
