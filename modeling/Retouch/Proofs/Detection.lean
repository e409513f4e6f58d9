import Retouch.Proofs.Choice
import Retouch.Proofs.EditedLines
import Retouch.Proofs.Inquiry
import Retouch.Proofs.Longest

/-! What counts as an edit. Lines that are not reported stand in the old revision too, in the same order; where
lines are replaced, none of the new ones was among the old; and a file that holds what the revision holds
has no edit, however much context is asked for. -/
namespace Retouch.Detection
open Execution Inquiry
open Script (Leads)

def unreported (reported : List Int) (lines : List String) : List String :=
  (lines.zipIdx.filter (fun p => !reported.contains ((p.2 : Int) + 1))).map Prod.fst

/- The induction carries the new lines from `j` on, numbered from `j`, and any test that fails inside every changed
step; an unchanged step has the same lines on both sides. -/
theorem keptFromOld {old new : List String} {i j : Nat} {edits : List Edit} (h : Leads old new i j edits)
    (keep : String × Nat → Bool)
    (outside : ∀ e ∈ edits, e.isEqual = false → ∀ p, e.newStart ≤ (p.2 : Nat) → (p.2 : Int) < e.newStop → keep p = false) :
    ((((new.drop j).zipIdx j).filter keep).map Prod.fst).Sublist (old.drop i) := by
  induction h with
  | done => simp
  | @step kind i i' j j' rest shaped tail ih =>
    have forward := Script.shapedForward shaped
    have bounds := Script.leadsBounds tail
    rw [Choice.zipIdxSlice forward.2 bounds.2,List.filter_append,List.map_append,← Script.sliceDrop forward.1]
    apply List.Sublist.append
    · by_cases equal : kind = .equal
      · subst equal
        rw [shaped.2.2]
        exact Choice.filterZipSublist _ _ _
      · have gone : ((slice new j j').zipIdx j).filter keep = [] := by
          rw [List.filter_eq_nil_iff]
          intro p member
          obtain ⟨lo,hi,_⟩ := List.mem_zipIdx member
          rw [Script.sliceLength bounds.2] at hi
          have lost := outside _ List.mem_cons_self (Script.changedStep equal) p (by simp only; omega) (by simp only; omega)
          simp [lost]
        rw [gone]
        exact List.nil_sublist _
    · exact ih (fun e member => outside e (List.mem_cons_of_mem _ member))

theorem memReported {old new : List String} {n : Int} : n ∈ editedLines (diffLines old new) 0 ↔
    ∃ e ∈ diffLines old new, e.isEqual = false ∧ e.newStart + 1 ≤ n ∧ n ≤ e.newStop := by
  have spans := EditedLines.diffSpans old new
  rw [EditedLines.memEditedLines spans (Int.le_refl 0)]
  constructor
  · rintro ⟨_,_,e,member,changed,lo,hi⟩
    exact ⟨e,member,changed,by omega,by omega⟩
  · rintro ⟨e,member,changed,lo,hi⟩
    have inside := EditedLines.spansInside spans member
    exact ⟨by omega,by omega,e,member,changed,by omega,by omega⟩

theorem unreportedFromOld (old new : List String) :
    (unreported (editedLines (diffLines old new) 0) new).Sublist old := by
  apply keptFromOld (Script.diffLeads old new)
  intro e member changed p lo hi
  have reported : (p.2 : Int) + 1 ∈ editedLines (diffLines old new) 0 :=
    memReported.mpr ⟨e,member,changed,by omega,by omega⟩
  simp [reported]

theorem unchangedUnedited (lines : List String) (context : Int) : editedLines (diffLines lines lines) context = [] := by
  rw [Longest.diffSelf]
  split
  · rfl
  · simp [editedLines,editedFrom,Script.unchangedStep]

theorem nothingChosen (old new : List String) :
    chooseLines [] ((diffLines old new).map (Chunk.ofEdit old new)) = old := by
  have leads := Script.diffLeads old new
  simpa using Choice.chosenWhereAgree leads (fun e _ _ => by simp [Choice.Selects])

structure Detected (old content : Document) (reported : List Int) : Prop where
  named : ∀ n, n ∈ reported ↔
    ∃ e ∈ diffLines old.lines content.lines, e.isEqual = false ∧ e.newStart + 1 ≤ n ∧ n ≤ e.newStop
  nothingMissed : (unreported reported content.lines).Sublist old.lines
  replacedDiffer : ∀ e ∈ diffLines old.lines content.lines, e.kind = .replace →
    ∀ line ∈ slice content.lines e.newStart e.newStop, line ∉ slice old.lines e.oldStart e.oldStop

theorem detected (old content : Document) : Detected old content (editedLines (diffLines old.lines content.lines) 0) where
  named _ := memReported
  nothingMissed := unreportedFromOld _ _
  replacedDiffer _ member changed := Longest.replacedForeign member changed

/- The revision may not be readable; then no context gives any numbers. -/
theorem editedSinceDetects (root : Path) (range : RevisionRange) (path : Path) (content : Document) (tools : Tools)
    (s : Session) :
    (∃ f, (exec (contentAt path range.source root) tools s).1 = .error f ∧
      ∀ context, (exec (editedSince root range path content context) tools s).1 = .error f) ∨
    ∃ old reported, (exec (contentAt path range.source root) tools s).1 = .ok old ∧
      (exec (editedSince root range path content 0) tools s).1 = .ok reported ∧ Detected old content reported ∧
      (old.lines = content.lines →
        (∀ context, (exec (editedSince root range path content context) tools s).1 = .ok []) ∧
        ∀ formatted : Document, ∃ chunks,
          Chunk.ofEdits? content.lines formatted.lines (diffLines content.lines formatted.lines) = some chunks ∧
          chooseLines reported chunks = content.lines) := by
  have counts := editedSinceContent root range path content
  cases found : (exec (contentAt path range.source root) tools s).1 with
  | error f =>
    refine .inl ⟨f,rfl,fun context => ?_⟩
    rw [counts,found]
    rfl
  | ok old =>
    have numbered (context : Int) : (exec (editedSince root range path content context) tools s).1 =
        .ok (editedLines (diffLines old.lines content.lines) context) := by
      rw [counts,found]
      rfl
    refine .inr ⟨old,_,rfl,numbered 0,detected old content,fun same => ?_⟩
    rw [same] at numbered ⊢
    simp only [unchangedUnedited] at numbered ⊢
    exact ⟨numbered,fun formatted => ⟨_,chunksOfDiff _ _,nothingChosen _ _⟩⟩

end Retouch.Detection
