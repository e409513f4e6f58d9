import Retouch.Proofs.Candidates
import Retouch.Proofs.Choice

/-! Attempts with growing context. More context marks more lines, and more marked lines take more chunks from the
formatted text. Where anything was edited, as much context as the file has lines marks every line, so that no
further attempt could come to another candidate. -/
namespace Retouch.Escalation
open Execution Inquiry Candidates EditedLines
open Script (Leads Shaped)

theorem touchedGrow {lines wider : List Int} (grow : ∀ n ∈ lines, n ∈ wider) {c : Chunk}
    (touched : c.touched lines = true) : c.touched wider = true := by
  obtain ⟨n,member,inside⟩ := List.any_eq_true.mp touched
  exact List.any_eq_true.mpr ⟨n,grow n member,inside⟩

/- A step stands somewhere between the first line and the last, even if it only deletes, so as much context as there
are lines reaches them all from there. -/
theorem everyLineReached {oldLength newLength : Nat} {edits : List Edit} (h : Spans oldLength newLength 0 0 edits)
    (changed : ∃ e ∈ edits, e.isEqual = false) {context : Nat} (enough : newLength ≤ context) :
    editedLines edits context = intsFrom 1 (newLength + 1) := by
  obtain ⟨e,member,differs⟩ := changed
  have inside := spansInside h member
  refine ascendingSame (editedLinesAscend h (Int.natCast_nonneg context)) (intsFromAscend _ _) (fun n => ?_)
  rw [memEditedLines h (Int.natCast_nonneg context),memIntsFrom]
  constructor
  · rintro ⟨ge,le,_⟩
    exact ⟨ge,by omega⟩
  · rintro ⟨ge,lt⟩
    exact ⟨ge,by omega,e,member,differs,by omega,by omega⟩

theorem leadsStep {old new : List String} {i j : Nat} {edits : List Edit} (h : Leads old new i j edits) {e : Edit}
    (member : e ∈ edits) : ∃ kind, ∃ a a' b b' : Nat, e = ⟨kind,a,a',b,b'⟩ ∧ Shaped old new ⟨kind,a,a',b,b'⟩ ∧
      a' ≤ old.length ∧ b' ≤ new.length := by
  induction h with
  | done => cases member
  | step shaped tail ih =>
    rcases List.mem_cons.mp member with rfl | later
    · have bounds := Script.leadsBounds tail
      exact ⟨_,_,_,_,_,rfl,shaped,bounds.1,bounds.2⟩
    · exact ih later

theorem filledTouched {old new : List String} {edits : List Edit} (h : Leads old new 0 0 edits) {c : Chunk}
    (member : c ∈ edits.map (Chunk.ofEdit old new)) (filled : c.before ≠ []) :
    c.touched (intsFrom 1 (old.length + 1)) = true := by
  obtain ⟨e,found,rfl⟩ := List.mem_map.mp member
  obtain ⟨kind,a,a',b,b',rfl,shaped,inside,_⟩ := leadsStep h found
  have length : (slice old a a').length = a' - a := Script.sliceLength inside
  have some : 0 < (slice old a a').length := List.length_pos_iff.mpr filled
  rw [Choice.touchedSelects (Script.shapedForward shaped).1 inside]
  exact ⟨a + 1,memIntsFrom.mpr ⟨by omega,by omega⟩,by simp only; omega,by simp only; omega⟩

def Changed (old edited : Document) : Prop := ∃ e ∈ diffLines old.lines edited.lines, e.kind ≠ .equal

theorem changedStep {old edited : Document} (changed : Changed old edited) :
    ∃ e ∈ diffLines old.lines edited.lines, e.isEqual = false := by
  obtain ⟨e,member,differs⟩ := changed
  exact ⟨e,member,Script.changedStep differs⟩

structure Escalates (old edited formatted : Document) (numbers : Nat → List Int) (chunks : List Chunk) : Prop where
  counted : ∀ c : Nat, editedLines? (diffLines old.lines edited.lines) c = some (numbers c)
  divided : Chunk.ofEdits? edited.lines formatted.lines (diffLines edited.lines formatted.lines) = some chunks
  befores : chunks.flatMap Chunk.before = edited.lines
  afters : chunks.flatMap Chunk.after = formatted.lines
  built : ∀ c, candidate old edited formatted c = (Document.ofLines (chooseLines (numbers c) chunks)).keepText
  lines : ∀ c, (candidate old edited formatted c).lines =
    chunks.flatMap (fun chunk => if chunk.touched (numbers c) then chunk.after else chunk.before)
  moreLines : ∀ c c', c ≤ c' → ∀ n ∈ numbers c, n ∈ numbers c'
  moreChunks : ∀ c c', c ≤ c' → ∀ chunk ∈ chunks, chunk.touched (numbers c) = true → chunk.touched (numbers c') = true
  everyLine : Changed old edited → numbers edited.lines.length = intsFrom 1 (edited.lines.length + 1)
  everyChunk : Changed old edited → ∀ chunk ∈ chunks, chunk.before ≠ [] →
    chunk.touched (numbers edited.lines.length) = true
  settled : Changed old edited → ∀ c, edited.lines.length ≤ c → numbers c = numbers edited.lines.length ∧
    candidate old edited formatted c = candidate old edited formatted edited.lines.length

theorem documentsEscalate (old edited formatted : Document) :
    Escalates old edited formatted (fun c => editedLines (diffLines old.lines edited.lines) c)
      ((diffLines edited.lines formatted.lines).map (Chunk.ofEdit edited.lines formatted.lines)) := by
  have spans := diffSpans old.lines edited.lines
  have grow (c c' : Nat) (le : c ≤ c') :
      ∀ n ∈ editedLines (diffLines old.lines edited.lines) c, n ∈ editedLines (diffLines old.lines edited.lines) c' :=
    fun n member => editedLinesGrow spans (Int.natCast_nonneg c) (by omega) member
  have whole (changed : Changed old edited) {c : Nat} (enough : edited.lines.length ≤ c) :
      editedLines (diffLines old.lines edited.lines) c = intsFrom 1 (edited.lines.length + 1) :=
    everyLineReached spans (changedStep changed) enough
  have leads := Script.diffLeads edited.lines formatted.lines
  refine ⟨fun c => editedLinesOfDiff _ _ _,chunksOfDiff _ _,Script.chunksBefore leads,Script.chunksAfter leads,fun c => rfl,
    fun c => rfl,grow,?_,?_,?_,?_⟩
  · intro c c' le chunk _ touched
    exact touchedGrow (grow c c' le) touched
  · intro changed
    exact whole changed (Nat.le_refl _)
  · intro changed chunk member filled
    rw [whole changed (Nat.le_refl _)]
    exact filledTouched leads member filled
  · intro changed c enough
    have same := (whole changed enough).trans (whole changed (Nat.le_refl _)).symm
    exact ⟨same,by rw [candidate,same,candidate]⟩

def Compares (tools : Tools) (j : Job) (context : Nat) (s t : Session) : Prop :=
  ∃ old formatted passed, (exec (contentAt j.path j.range.source j.root) tools s).1 = .ok old ∧
    (∃ mode text, tools.format mode j.edited.text = .ok text ∧ formatted = Document.ofText text) ∧
    verdicts t = verdicts s ++ [(passed,(candidate old j.edited formatted context).text)]

theorem attemptCompares {j : Job} {context : Nat} {options left : Settings} {tools : Tools} {s t : Session}
    {outcome : Job.Outcome} (run : exec (j.attempt context options) tools s = (.ok (outcome,left),t))
    (busy : outcome ≠ .idle) : Compares tools j context s t := by
  rcases attemptCases j context options tools s with ⟨f,_,failed,_⟩ | ⟨_,_,idle,_⟩ | ⟨trial,_,_,judged,tries,_⟩
  · cases run.symm.trans failed
  · cases run.symm.trans idle
    exact absurd rfl busy
  · cases run.symm.trans judged
    exact ⟨trial.old,trial.formatted,_,tries.revision,tries.formatted,by rw [tries.recorded,Trial.verdict,tries.built]⟩

def Builds (tools : Tools) (j : Job) (context : Nat) (options : Settings) (s : Session) : Prop :=
  ∀ old formatted left u, (exec (contentAt j.path j.range.source j.root) tools s).1 = .ok old → ¬Skips j old context →
    exec (Formatter.format j.file j.edited options) tools
      (exec (editedSince j.root j.range j.path j.edited context) tools s).2 = (.ok (formatted,left),u) →
    ∃ (trial : Trial) (t : Session), exec (j.attempt context options) tools s = (.ok (trial.outcome,left),t) ∧
      trial.outcome ≠ .idle ∧
      trial.result = candidate old j.edited formatted context ∧
      trial.objection = tools.objection s.verified j.edited.text trial.result.text ∧
      verdicts t = verdicts s ++ [trial.verdict]

theorem attemptBuilds (j : Job) (context : Nat) (options : Settings) (tools : Tools) (s : Session) :
    Builds tools j context options s := by
  intro old formatted left u content busy done
  obtain ⟨trial,t,run,rfl,rfl,tries⟩ := attemptJudges content busy done
  exact ⟨trial,t,run,trialNotIdle trial,tries.built,tries.objection,tries.recorded⟩

theorem attemptsEscalate (old edited formatted : Document) :
    (∃ numbers chunks, Escalates old edited formatted numbers chunks) ∧
    (∀ (j : Job) (context : Nat) (options : Settings) (tools : Tools) (s : Session), Builds tools j context options s) ∧
    ∀ (j : Job) (context : Nat) (options left : Settings) (tools : Tools) (s t : Session) (outcome : Job.Outcome),
      exec (j.attempt context options) tools s = (.ok (outcome,left),t) → outcome ≠ .idle → Compares tools j context s t :=
  ⟨⟨_,_,documentsEscalate old edited formatted⟩,attemptBuilds,fun _ _ _ _ _ _ _ _ run busy => attemptCompares run busy⟩

end Retouch.Escalation
