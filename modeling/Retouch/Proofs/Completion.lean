import Retouch.Proofs.Detection
import Retouch.Proofs.Escalation
import Retouch.Proofs.Rewriting

/-! What is chosen when every line counts as edited. Every step that stands on a line is taken, but an insertion
behind the last line stands on a line that the text does not have: the formatted text comes out whole unless it
ends with such an insertion, and then without it. -/
namespace Retouch.Completion
open Execution Candidates EditedLines Escalation
open Script (Leads)

def reach (new : List String) (edits : List Edit) : Int :=
  match edits.getLast? with
  | some ⟨.insert,_,_,start,_⟩ => start
  | _ => new.length

def unappended (old new : List String) : List String := new.take (reach new (diffLines old new)).toNat

def Appends (old new : List String) : Prop := ∃ e, (diffLines old new).getLast? = some e ∧ e.kind = .insert

theorem reachTail (new : List String) (e f : Edit) (rest : List Edit) :
    reach new (e :: f :: rest) = reach new (f :: rest) := by
  rw [reach,reach,List.getLast?_cons_cons]

theorem reachAhead {old new : List String} {i j : Nat} {edits : List Edit} (h : Leads old new i j edits) :
    (j : Int) ≤ reach new edits := by
  have spans := leadsSpans h
  unfold reach
  split
  · rename_i last
    exact (spansInside spans (List.mem_of_getLast? last)).1
  · exact (spansEnd spans).2

/- Unchanged and changed steps take turns, so only the last step can stand behind the last line. -/
theorem earlierInside {old new : List String} {kind : EditKind} {i i' j j' : Nat} {f : Edit} {rest : List Edit}
    (shaped : Script.Shaped old new ⟨kind,i,i',j,j'⟩) (tail : Leads old new i' j' (f :: rest))
    (turns : Edit.alternating (⟨kind,i,i',j,j'⟩ :: f :: rest) = true) : i < old.length := by
  have forward := (Script.shapedForward shaped).1
  have bound := (Script.leadsBounds tail).1
  by_cases equal : kind = .equal
  · subst equal
    have filled := shaped.1
    simp only at filled
    omega
  · have differ := ((Script.alternatingPair _ _ _).mp turns).1
    rw [Script.changedStep equal] at differ
    cases tail with
    | @step kind' _ i'' _ _ _ shaped' tail' =>
      have bound' := (Script.leadsBounds tail').1
      by_cases equal' : kind' = .equal
      · subst equal'
        have filled := shaped'.1
        simp only at filled
        omega
      · exact absurd (Script.changedStep equal').symm differ

section
variable {old new : List String} {lines : List Int} (all : ∀ n, n ∈ lines ↔ 1 ≤ n ∧ n ≤ old.length)
include all

theorem insideSelected {kind : EditKind} {i i' j j' : Nat} (inside : i < old.length) :
    Choice.Selects lines ⟨kind,i,i',j,j'⟩ :=
  ⟨i + 1,(all _).mpr ⟨by omega,by omega⟩,by simp only; omega,by simp only; omega⟩

theorem behindUnselected {kind : EditKind} {i' j j' : Nat} : ¬Choice.Selects lines ⟨kind,old.length,i',j,j'⟩ := by
  rintro ⟨n,member,lo,_⟩
  have bound := ((all n).mp member).2
  simp only at lo
  omega

theorem lastReach {kind : EditKind} {i j : Nat} (shaped : Script.Shaped old new ⟨kind,i,old.length,j,new.length⟩) :
    (if Choice.Selects lines ⟨kind,i,old.length,j,new.length⟩ then slice new j new.length else slice old i old.length) =
      slice new j (reach new [⟨kind,i,old.length,j,new.length⟩]) := by
  cases kind with
  | insert =>
    obtain rfl : i = old.length := by
      have same := shaped.1
      simp only at same
      omega
    rw [if_neg (behindUnselected all)]
    simp [reach,Script.sliceNat]
  | other => exact shaped.elim
  | _ =>
    have filled := shaped.1
    simp only at filled
    rw [if_pos (insideSelected all (by omega))]
    rfl

theorem chosenReach {i j : Nat} {edits : List Edit} (h : Leads old new i j edits) (turns : Edit.alternating edits = true) :
    chooseLines lines (edits.map (Chunk.ofEdit old new)) = slice new j (reach new edits) := by
  induction h with
  | done => simp [chooseLines,reach,Script.sliceNat]
  | @step kind i i' j j' rest shaped tail ih =>
    rw [Choice.chosenCons lines shaped tail]
    cases rest with
    | nil =>
      cases tail
      rw [lastReach all shaped]
      exact List.append_nil _
    | cons f rest =>
      have later := ((Script.alternatingPair _ _ _).mp turns).2
      rw [if_pos (insideSelected all (earlierInside shaped tail turns)),ih later,reachTail]
      have bound := reachAhead tail
      obtain ⟨stop,whole⟩ := Int.eq_ofNat_of_zero_le (Int.le_trans (Int.natCast_nonneg j') bound)
      rw [whole] at bound ⊢
      exact Choice.sliceAppend (Script.shapedForward shaped).2 (Int.ofNat_le.mp bound)

theorem chosenUnappended :
    chooseLines lines ((diffLines old new).map (Chunk.ofEdit old new)) = unappended old new := by
  have leads := Script.diffLeads old new
  obtain ⟨stop,whole⟩ := Int.eq_ofNat_of_zero_le (reachAhead leads)
  rw [chosenReach all leads (Script.diffAlternating old new),unappended,whole,Int.toNat_natCast]
  exact (Script.sliceNat new 0 stop).trans List.drop_zero

end

theorem unappendedIff (old new : List String) : unappended old new = new ↔ ¬Appends old new := by
  rw [unappended,List.take_eq_self_iff]
  unfold reach Appends
  split
  · rename_i last
    refine iff_of_false ?_ (fun none => none ⟨_,last,rfl⟩)
    obtain ⟨_,_,_,_,_,same,shaped,_,inside⟩ := leadsStep (Script.diffLeads old new) (List.mem_of_getLast? last)
    cases same
    have filled := shaped.2
    simp only at filled
    omega
  · rename_i other
    refine iff_of_true (Nat.le_of_eq (Int.toNat_natCast _).symm) ?_
    rintro ⟨⟨_,_,_,_,_⟩,last,rfl⟩
    exact other _ _ _ _ last

theorem newFileCounted {old new : List String} (none : old = []) (context : Nat) (n : Int) :
    n ∈ editedLines (diffLines old new) context ↔ 1 ≤ n ∧ n ≤ new.length := by
  have spans := diffSpans old new
  refine ⟨fun member => ?_,fun ⟨ge,le⟩ => ?_⟩
  · obtain ⟨ge,le,_⟩ := (memEditedLines spans (Int.natCast_nonneg context) n).mp member
    exact ⟨ge,le⟩
  · refine editedLinesGrow spans (Int.le_refl 0) (Int.natCast_nonneg context) ?_
    have nothing := Detection.unreportedFromOld old new
    rw [none,List.sublist_nil,Detection.unreported,List.map_eq_nil_iff,List.filter_eq_nil_iff] at nothing
    obtain ⟨k,rfl⟩ : ∃ k : Nat, n = k + 1 := ⟨(n - 1).toNat,by omega⟩
    have small : k < new.length := by omega
    have counted := nothing (new[k],k) (List.mk_mem_zipIdx_iff_getElem?.mpr (List.getElem?_eq_getElem small))
    simpa [none] using counted

theorem allCountedTakesUnappended (edited formatted : Document) :
    (unappended edited.lines formatted.lines = formatted.lines ↔ ¬Appends edited.lines formatted.lines) ∧
    (∃ chunks, Chunk.ofEdits? edited.lines formatted.lines (diffLines edited.lines formatted.lines) = some chunks ∧
      ∀ lines : List Int, (∀ n, n ∈ lines ↔ 1 ≤ n ∧ n ≤ edited.lines.length) →
        chooseLines lines chunks = unappended edited.lines formatted.lines) ∧
    (∀ old : Document, old.lines = [] → ∀ context,
      (candidate old edited formatted context).lines = unappended edited.lines formatted.lines) ∧
    ∀ old : Document, Changed old edited →
      (candidate old edited formatted edited.lines.length).lines = unappended edited.lines formatted.lines := by
  refine ⟨unappendedIff _ _,⟨_,Inquiry.chunksOfDiff _ _,fun lines all => chosenUnappended all⟩,?_,?_⟩
  · intro old new context
    exact chosenUnappended (newFileCounted new context)
  · intro old changed
    refine chosenUnappended (fun n => ?_)
    rw [everyLineReached (diffSpans _ _) (changedStep changed) (Nat.le_refl _),memIntsFrom]
    omega

/- Two calls on three lines, of which the formatter makes six. The line that closes both calls is found again at the
end of the first, so the second call is inserted behind the last line and never taken. -/
theorem secondCallNeverTaken :
    let edited := Document.ofText "f(1,\n); f(2,\n)\n"
    let formatted := Document.ofText "f(\n    1,\n)\nf(\n    2,\n)\n"
    edited.lines.length = 3 ∧ formatted.lines = ["f(","    1,",")","f(","    2,",")"] ∧
    ∃ chunks, Chunk.ofEdits? edited.lines formatted.lines (diffLines edited.lines formatted.lines) = some chunks ∧
      chooseLines [1,2,3] chunks = ["f(","    1,",")"] :=
  ⟨by cbv,by cbv,_,Inquiry.chunksOfDiff _ _,by cbv⟩

end Retouch.Completion
