import Retouch.Document
import Retouch.Proofs.Script
import Retouch.Selection

/-! The choice between original and formatted lines. Choosing chunk by chunk is the same as replacing,
in the original lines, the ranges of the selected steps and nothing else. -/
namespace Retouch.Choice
open Script (Leads Shaped)

def Selects (edited : List Int) (e : Edit) : Prop :=
  ∃ n ∈ edited, e.oldStart + 1 ≤ n ∧ n ≤ max e.oldStop (e.oldStart + 1)
instance (edited e) : Decidable (Selects edited e) := by
  unfold Selects; infer_instance

def replaced (old new : List String) : Int → List Edit → List String
  | i, [] => slice old i old.length
  | i, e :: rest => slice old i e.oldStart ++ slice new e.newStart e.newStop ++ replaced old new e.oldStop rest

def Covers (e : Edit) (k : Nat) : Prop := e.oldStart ≤ k ∧ (k : Int) < e.oldStop
instance (e k) : Decidable (Covers e k) := by
  unfold Covers; infer_instance

/- The list need not be the lines themselves: what belongs to the lines one by one is spared with them. -/
def spared (edits : List Edit) (xs : List α) : List α :=
  (xs.zipIdx.filter (fun p => ∀ e ∈ edits, ¬Covers e p.2)).map Prod.fst

theorem touchedSelects {old : List String} {i i' : Nat} (forward : i ≤ i') (le : i' ≤ old.length)
    (new : List String) (kind : EditKind) (j j' : Nat) (edited : List Int) :
    (Chunk.ofEdit old new ⟨kind,i,i',j,j'⟩).touched edited = true ↔ Selects edited ⟨kind,i,i',j,j'⟩ := by
  have length := Script.sliceLength (a := i) le
  have last : lastLine (i + 1) ((i' - i : Nat) : Int) = max (i' : Int) (i + 1) := by
    unfold lastLine
    split
    · rename_i zero
      have zero : ((i' - i : Nat) : Int) = 0 := by simpa using zero
      omega
    · rename_i some
      have some : ((i' - i : Nat) : Int) ≠ 0 := by simpa using some
      omega
  rw [Chunk.touched,touches,Chunk.ofEdit,length,last]
  simp [Selects]

theorem chosenCons {old new : List String} {kind} {i i' j j' : Nat} {rest : List Edit} (edited : List Int)
    (shaped : Shaped old new ⟨kind,i,i',j,j'⟩) (tail : Leads old new i' j' rest) :
    chooseLines edited ((⟨kind,i,i',j,j'⟩ :: rest).map (Chunk.ofEdit old new)) =
      (if Selects edited ⟨kind,i,i',j,j'⟩ then slice new j j' else slice old i i') ++
        chooseLines edited (rest.map (Chunk.ofEdit old new)) := by
  have touched := touchedSelects (Script.shapedForward shaped).1 (Script.leadsBounds tail).1 new kind j j' edited
  rw [chooseLines,List.map_cons,List.flatMap_cons,Chunk.chosen]
  by_cases selected : Selects edited ⟨kind,i,i',j,j'⟩
  · rw [if_pos (touched.mpr selected),if_pos selected]; rfl
  · rw [if_neg (fun h => selected (touched.mp h)),if_neg selected]; rfl

theorem sliceAppend {xs : List α} {a b c : Nat} (ab : a ≤ b) (bc : b ≤ c) :
    slice xs a b ++ slice xs b c = slice xs a c := by
  simp only [Script.sliceNat]
  have front : (xs.take b).drop a = ((xs.take c).take b).drop a := by rw [List.take_take,Nat.min_eq_left bc]
  have joined := @Script.sliceDrop _ (xs.take c) _ _ ab
  rw [Script.sliceNat] at joined
  rw [front]
  exact joined

theorem replacedSplit {old new : List String} {i i' j' : Nat} {rest : List Edit} (up : i ≤ i')
    (tail : Leads old new i' j' rest) (p : Edit → Bool) :
    replaced old new i (rest.filter p) = slice old i i' ++ replaced old new i' (rest.filter p) := by
  induction tail generalizing i with
  | done =>
    rw [List.filter_nil,replaced,replaced,sliceAppend up (Nat.le_refl _)]
  | @step kind a a' b b' rest shaped tail ih =>
    have forward := (Script.shapedForward shaped).1
    cases chosen : p ⟨kind,a,a',b,b'⟩ with
    | true =>
      rw [List.filter_cons_of_pos chosen,replaced,replaced,← List.append_assoc,← List.append_assoc,
        sliceAppend up (Nat.le_refl _)]
    | false =>
      have skip : (Edit.mk kind a a' b b' :: rest).filter p = rest.filter p :=
        List.filter_cons_of_neg (by simp [chosen])
      rw [skip,ih (show i ≤ a' by omega),ih (show a ≤ a' by omega),← List.append_assoc,
        sliceAppend up forward]

theorem chosenReplaced {old new : List String} {i j : Nat} {edits : List Edit} (edited : List Int)
    (h : Leads old new i j edits) :
    chooseLines edited (edits.map (Chunk.ofEdit old new)) =
      replaced old new i (edits.filter (Selects edited)) := by
  induction h with
  | done => simp [chooseLines,replaced,Script.sliceNat]
  | @step kind i i' j j' rest shaped tail ih =>
    rw [chosenCons edited shaped tail,ih]
    by_cases selected : Selects edited ⟨kind,i,i',j,j'⟩
    · rw [if_pos selected,List.filter_cons_of_pos (by simpa using selected),replaced]
      simp [Script.sliceNat]
    · rw [if_neg selected,List.filter_cons_of_neg (by simpa using selected),
        replacedSplit (Script.shapedForward shaped).1 tail]

theorem chosenWhereAgree {old new : List String} {i j : Nat} {edits : List Edit} {edited : List Int}
    (h : Leads old new i j edits) (none : ∀ e ∈ edits, e.kind ≠ .equal → ¬Selects edited e) :
    chooseLines edited (edits.map (Chunk.ofEdit old new)) = old.drop i := by
  induction h with
  | done => simp [chooseLines]
  | @step kind i i' j j' rest shaped tail ih =>
    rw [chosenCons edited shaped tail,ih (fun e member => none e (List.mem_cons_of_mem _ member))]
    have slices : (if Selects edited ⟨kind,i,i',j,j'⟩ then slice new j j' else slice old i i') = slice old i i' := by
      by_cases equal : kind = .equal
      · subst kind
        rw [← shaped.2.2]
        split <;> rfl
      · exact if_neg (none _ (by simp) equal)
    rw [slices]
    exact Script.sliceDrop (Script.shapedForward shaped).1

theorem chosenWhereDiffer {old new : List String} {i j : Nat} {edits : List Edit} {edited : List Int}
    (h : Leads old new i j edits) (all : ∀ e ∈ edits, e.kind ≠ .equal → Selects edited e) :
    chooseLines edited (edits.map (Chunk.ofEdit old new)) = new.drop j := by
  induction h with
  | done => simp [chooseLines]
  | @step kind i i' j j' rest shaped tail ih =>
    rw [chosenCons edited shaped tail,ih (fun e member => all e (List.mem_cons_of_mem _ member))]
    have slices : (if Selects edited ⟨kind,i,i',j,j'⟩ then slice new j j' else slice old i i') = slice new j j' := by
      by_cases equal : kind = .equal
      · subst kind
        rw [shaped.2.2]
        split <;> rfl
      · exact if_pos (all _ (by simp) equal)
    rw [slices]
    exact Script.sliceDrop (Script.shapedForward shaped).2

theorem zipIdxSlice {xs : List α} {i i' : Nat} (up : i ≤ i') (le : i' ≤ xs.length) :
    (xs.drop i).zipIdx i = (slice xs i i').zipIdx i ++ (xs.drop i').zipIdx i' := by
  rw [← Script.sliceDrop up,List.zipIdx_append,Script.sliceLength le,Nat.add_sub_cancel' up]

theorem filterZipSublist (xs : List α) (i : Nat) (p : α × Nat → Bool) :
    (((xs.zipIdx i).filter p).map Prod.fst).Sublist xs := by
  have h := (@List.filter_sublist _ p (xs.zipIdx i)).map Prod.fst
  rwa [List.zipIdx_map_fst] at h

/- The positions are those of the whole list, so the induction carries the list from `i` on, numbered
from `i`, and any test that fails on every selected range. -/
theorem keptSublist {old new : List String} {i j : Nat} {edits : List Edit} {edited : List Int}
    (h : Leads old new i j edits) (keep : String × Nat → Bool)
    (outside : ∀ e ∈ edits, Selects edited e → ∀ p, Covers e p.2 → keep p = false) :
    ((((old.drop i).zipIdx i).filter keep).map Prod.fst).Sublist
      (chooseLines edited (edits.map (Chunk.ofEdit old new))) := by
  induction h with
  | done => simp
  | @step kind i i' j j' rest shaped tail ih =>
    rw [zipIdxSlice (Script.shapedForward shaped).1 (Script.leadsBounds tail).1,List.filter_append,
      List.map_append,chosenCons edited shaped tail]
    apply List.Sublist.append
    · by_cases selected : Selects edited ⟨kind,i,i',j,j'⟩
      · have gone : ((slice old i i').zipIdx i).filter keep = [] := by
          rw [List.filter_eq_nil_iff]
          intro p member
          obtain ⟨lo,hi,_⟩ := List.mem_zipIdx member
          rw [Script.sliceLength (Script.leadsBounds tail).1] at hi
          have lost := outside _ (by simp) selected p ⟨by simp only; omega,by simp only; omega⟩
          simp [lost]
        rw [gone]
        exact List.nil_sublist _
      · rw [if_neg selected]
        exact filterZipSublist _ _ _
    · exact ih (fun e member => outside e (List.mem_cons_of_mem _ member))

theorem sparedSublist {old new : List String} {edits : List Edit} (edited : List Int)
    (h : Leads old new 0 0 edits) :
    (spared (edits.filter (Selects edited)) old).Sublist
      (chooseLines edited (edits.map (Chunk.ofEdit old new))) := by
  apply keptSublist h
  intro e member selected p covers
  apply decide_eq_false
  intro outside
  exact outside e (List.mem_filter.mpr ⟨member,by simpa using selected⟩) covers

theorem chosenReplacesSelected (edited formatted : Document) (lines : List Int) :
    ∃ chunks, Chunk.ofEdits? edited.lines formatted.lines (diffLines edited.lines formatted.lines) = some chunks ∧
      chooseLines lines chunks = replaced edited.lines formatted.lines 0
        ((diffLines edited.lines formatted.lines).filter (Selects lines)) ∧
      (spared ((diffLines edited.lines formatted.lines).filter (Selects lines)) edited.lines).Sublist
        (chooseLines lines chunks) ∧
      ((∀ e ∈ diffLines edited.lines formatted.lines, e.kind ≠ .equal → ¬Selects lines e) →
        chooseLines lines chunks = edited.lines) ∧
      ((∀ e ∈ diffLines edited.lines formatted.lines, e.kind ≠ .equal → Selects lines e) →
        chooseLines lines chunks = formatted.lines) := by
  have leads := Script.diffLeads edited.lines formatted.lines
  refine ⟨_,if_pos (Script.diffAlternating _ _),?_,?_,?_,?_⟩
  · exact chosenReplaced lines leads
  · exact sparedSublist lines leads
  · intro none
    simpa using chosenWhereAgree leads none
  · intro all
    simpa using chosenWhereDiffer leads all

end Retouch.Choice
