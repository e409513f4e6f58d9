import Retouch.Proofs.Hunks
import Retouch.Proofs.Longest

/-! A list of lines beside itself, where popular lines are skipped. Runs start from other lines only, so the first longest
run may be short; but it lies on the diagonal, since a run beside it was met before on the diagonal with no line less. From
there it grows over everything, so equal lists have an empty diff however often their lines occur. -/
namespace Retouch.Diagonal
open Matching Longest

structure Mirror (m : Matcher) : Prop where
  same : m.old = m.new
  indexed : Indexed m
  ascending : ∀ line, (m.index.getD line []).Pairwise (· < ·)
  fair : ∀ line j k, j ∈ m.index.getD line [] → m.new[k]? = some line → k ∈ m.index.getD line []

theorem popularMirror (lines : List String) : Mirror (Matcher.skippingPopular lines lines) := by
  obtain ⟨old,new⟩ := Hunks.popularSame lines lines
  have index (line : String) : (Matcher.skippingPopular lines lines).index.getD line [] =
        (Matcher.positions lines).getD line [] ∨ (Matcher.skippingPopular lines lines).index.getD line [] = [] := by
    unfold Matcher.skippingPopular
    dsimp only
    split
    · exact .inl rfl
    · rw [Std.HashMap.getD_filter',Std.HashMap.getD_eq_getD_getElem?]
      cases (Matcher.positions lines)[line]? with
      | none => exact .inl rfl
      | some js =>
        rw [Option.filter_some]
        split
        · exact .inl rfl
        · exact .inr rfl
  refine ⟨by rw [old,new],Hunks.popularIndexed lines lines,fun line => ?_,fun line j k member found => ?_⟩
  · rcases index line with all | none
    · rw [all]
      exact enlistedAscending lines 0 line
    · rw [none]
      exact .nil
  · rcases index line with all | none
    · rw [all]
      rw [new] at found
      have listed := @enlistedAll lines 0 line k (by simpa using found)
      rw [Nat.zero_add] at listed
      exact listed
    · rw [none] at member
      cases member

def Passable (m : Matcher) (j : Nat) : Prop := ∃ line, m.new[j]? = some line ∧ j ∈ m.index.getD line []

def Solid (m : Matcher) (a b : Nat) : Prop := ∀ j, a ≤ j → j < b → Passable m j

theorem solidSucc {m : Matcher} {a b : Nat} (solid : Solid m a b) (passable : Passable m b) : Solid m a (b + 1) := by
  intro j lo hi
  by_cases last : j = b
  · rw [last]
    exact passable
  · exact solid j lo (by omega)

theorem solidOne {m : Matcher} {b : Nat} (passable : Passable m b) : Solid m b (b + 1) :=
  solidSucc (fun _ _ _ => by omega) passable

theorem lengthenSource {js : List Nat} {runs : List (Nat × Nat)} {j size : Nat}
    (member : (j,size) ∈ Matcher.lengthen js runs) :
    j ∈ js ∧ (size = 1 ∨ ∃ k n, (k,n) ∈ runs ∧ k + 1 = j ∧ size = n + 1) := by
  induction js generalizing runs with
  | nil => cases member
  | cons first js ih =>
    rw [Matcher.lengthen] at member
    rcases List.mem_cons.mp member with here | later
    · cases here
      refine ⟨by simp,?_⟩
      split
      · rename_i k n rest head
        split
        · rename_i next
          exact .inr ⟨k,n,(List.dropWhile_sublist _).mem (by rw [head]; simp),next,rfl⟩
        · exact .inl rfl
      · exact .inl rfl
    · obtain ⟨inside,source⟩ := ih later
      refine ⟨by simp [inside],source.imp_right ?_⟩
      rintro ⟨k,n,left,next,longer⟩
      exact ⟨k,n,(List.dropWhile_sublist _).mem left,next,longer⟩

theorem betterFirst (i : Nat) (runs : List (Nat × Nat)) (best : Block) :
    runs.foldl (Matcher.better i) best = best ∨ ∃ before run after, runs = before ++ run :: after ∧
      runs.foldl (Matcher.better i) best = ⟨i + 1 - run.2,run.1 + 1 - run.2,run.2⟩ ∧ best.size < run.2 ∧
      ∀ other ∈ before, other.2 < run.2 := by
  induction runs generalizing best with
  | nil => exact .inl rfl
  | cons first runs ih =>
    rw [List.foldl_cons]
    rcases ih (Matcher.better i best first) with kept | ⟨before,run,after,split,found,longer,shorter⟩
    · rw [kept,Matcher.better]
      split
      · rename_i longer
        exact .inr ⟨[],first,runs,rfl,rfl,longer,by simp⟩
      · exact .inl rfl
    · obtain ⟨grows,covers⟩ := betterGrows i [first] best
      rw [List.foldl_cons,List.foldl_nil] at grows covers
      have least := covers first (by simp)
      refine .inr ⟨first :: before,run,after,by rw [split,List.cons_append],found,by omega,?_⟩
      simpa using ⟨by omega,fun j n member => shorter (j,n) member⟩

/- What holds in front of row `i`: each run passes through passable lines only, in both lists; of the runs that end with the
row above, the one on the diagonal is among the longest; and the best run lies on the diagonal. -/
structure Centred (m : Matcher) (i : Nat) (state : List (Nat × Nat) × Block) : Prop where
  ordered : Ordered state.1
  solid : ∀ j k, (j,k) ∈ state.1 → k ≤ i ∧ k ≤ j + 1 ∧ Solid m (i - k) i ∧ Solid m (j + 1 - k) (j + 1)
  reached : ∀ a < i, Solid m a i → ∃ k, (i - 1,k) ∈ state.1 ∧ i - a ≤ k
  diagonal : state.2.old = state.2.new
  covers : ∀ a b, Solid m a b → b ≤ i → b - a ≤ state.2.size

section
variable {m : Matcher} (mirror : Mirror m)
include mirror

theorem occurrencePassable {w : Window} {i j : Nat} (member : j ∈ m.occurrences w i) : Passable m i ∧ Passable m j := by
  unfold Matcher.occurrences at member
  split at member
  · cases member
  · rename_i line found
    have listed := (List.mem_filter.mp member).1
    rw [mirror.same] at found
    exact ⟨⟨line,found,mirror.fair line j i listed found⟩,⟨line,mirror.indexed line j listed,listed⟩⟩

theorem passableOccurs {i : Nat} (passable : Passable m i) {n : Nat} (small : i < n) : i ∈ m.occurrences ⟨0,n,0,n⟩ i := by
  obtain ⟨line,found,listed⟩ := passable
  unfold Matcher.occurrences
  rw [mirror.same,found]
  exact List.mem_filter.mpr ⟨listed,by simpa using small⟩

theorem occurrencesOrdered (w : Window) (i : Nat) : (m.occurrences w i).Pairwise (· < ·) := by
  unfold Matcher.occurrences
  split
  · exact .nil
  · exact (mirror.ascending _).filter _

theorem rowSolid {n i : Nat} {state : List (Nat × Nat) × Block} (centred : Centred m i state) {j k : Nat}
    (member : (j,k) ∈ Matcher.lengthen (m.occurrences ⟨0,n,0,n⟩ i) state.1) :
    k ≤ i + 1 ∧ k ≤ j + 1 ∧ Solid m (i + 1 - k) (i + 1) ∧ Solid m (j + 1 - k) (j + 1) := by
  obtain ⟨occurs,source⟩ := lengthenSource member
  obtain ⟨passable,passable'⟩ := occurrencePassable mirror occurs
  rcases source with rfl | ⟨j',k',above,rfl,rfl⟩
  · exact ⟨by omega,by omega,solidOne passable,solidOne passable'⟩
  · obtain ⟨le,le',straight,straight'⟩ := centred.solid j' k' above
    refine ⟨by omega,by omega,?_,?_⟩
    · rw [Nat.add_sub_add_right]
      exact solidSucc straight passable
    · rw [Nat.add_sub_add_right]
      exact solidSucc straight' passable'

theorem rowReached {n i : Nat} (small : i < n) {state : List (Nat × Nat) × Block} (centred : Centred m i state) {a : Nat}
    (lt : a < i + 1) (straight : Solid m a (i + 1)) :
    ∃ k, (i,k) ∈ Matcher.lengthen (m.occurrences ⟨0,n,0,n⟩ i) state.1 ∧ i + 1 - a ≤ k := by
  have passable := straight i (by omega) (by omega)
  obtain ⟨k,listed,positive,continues⟩ :=
    lengthenContinues (occurrencesOrdered mirror ⟨0,n,0,n⟩ i) centred.ordered (passableOccurs mirror passable small)
  refine ⟨k,listed,?_⟩
  by_cases first : a = i
  · omega
  · obtain ⟨k',above,long⟩ := centred.reached a (by omega) (fun j lo hi => straight j lo (by omega))
    have longer := continues (i - 1) k' above (by omega)
    omega

theorem rowOrdered {n i : Nat} {runs : List (Nat × Nat)} : Ordered (Matcher.lengthen (m.occurrences ⟨0,n,0,n⟩ i) runs) := by
  have ascending := occurrencesOrdered mirror ⟨0,n,0,n⟩ i
  rw [← lengthenPositions (m.occurrences ⟨0,n,0,n⟩ i) runs] at ascending
  exact List.pairwise_map.mp ascending

/- A better run to the left was met in an earlier row, and one to the right is met in this row before. -/
theorem rowDiagonal {n i : Nat} (small : i < n) {state : List (Nat × Nat) × Block} (centred : Centred m i state) :
    (m.scanRow ⟨0,n,0,n⟩ state i).2.old = (m.scanRow ⟨0,n,0,n⟩ state i).2.new := by
  rcases betterFirst i (Matcher.lengthen (m.occurrences ⟨0,n,0,n⟩ i) state.1) state.2 with
    kept | ⟨before,⟨j,k⟩,after,split,found,longer,shorter⟩
  · exact (congrArg Block.old kept).trans (centred.diagonal.trans (congrArg Block.new kept).symm)
  · obtain ⟨_,_,straight,straight'⟩ := rowSolid mirror centred (show (j,k) ∈ _ by rw [split]; simp)
    simp only at longer shorter
    have right : ¬j < i := by
      intro left
      have met := centred.covers _ _ straight' (by omega)
      omega
    have left : ¬i < j := by
      intro right
      obtain ⟨k',listed,long⟩ := rowReached mirror small centred (by omega) straight
      have ordered := @rowOrdered m mirror n i state.1
      rw [split] at listed ordered
      have earlier : (i,k') ∈ before := by
        rcases List.mem_append.mp listed with inside | behind
        · exact inside
        · obtain ⟨_,rest,_⟩ := List.pairwise_append.mp ordered
          rcases List.mem_cons.mp behind with same | later
          · cases same
            omega
          · have after := (List.pairwise_cons.mp rest).1 _ later
            simp only at after
            omega
      have less := shorter _ earlier
      simp only at less
      omega
    obtain rfl : i = j := by omega
    exact (congrArg Block.old found).trans (congrArg Block.new found).symm

theorem centredRow {n i : Nat} (small : i < n) {state : List (Nat × Nat) × Block} (centred : Centred m i state) :
    Centred m (i + 1) (m.scanRow ⟨0,n,0,n⟩ state i) := by
  obtain ⟨grows,covers⟩ := betterGrows i (Matcher.lengthen (m.occurrences ⟨0,n,0,n⟩ i) state.1) state.2
  refine ⟨rowOrdered mirror,fun j k => rowSolid mirror centred,fun a => rowReached mirror small centred,
    rowDiagonal mirror small centred,fun a b straight le => ?_⟩
  by_cases last : b = i + 1
  · subst last
    by_cases empty : a < i + 1
    · obtain ⟨k,listed,long⟩ := rowReached mirror small centred empty straight
      exact Nat.le_trans long (covers _ listed)
    · omega
  · exact Nat.le_trans (centred.covers a b straight (by omega)) grows

theorem scanCentred {n : Nat} : (m.scan ⟨0,n,0,n⟩).old = (m.scan ⟨0,n,0,n⟩).new := by
  have rows (k i : Nat) (inside : i + k ≤ n) (state : List (Nat × Nat) × Block) (centred : Centred m i state) :
      Centred m (i + k) ((List.range' i k).foldl (m.scanRow ⟨0,n,0,n⟩) state) := by
    induction k generalizing i state with
    | zero => exact centred
    | succ k ih =>
      rw [List.range'_succ,List.foldl_cons]
      have next := ih (i + 1) (by omega) _ (centredRow mirror (show i < n by omega) centred)
      rwa [Nat.add_assoc,Nat.add_comm 1 k] at next
  have start : Centred m 0 ([],⟨0,0,0⟩) :=
    ⟨.nil,nofun,nofun,rfl,fun a b _ le => by omega⟩
  exact (rows n 0 (by omega) _ start).diagonal

theorem agreeDiagonal (i : Nat) : m.agree i i = true := by
  rw [agreeEq,mirror.same]

theorem growBackDiagonal (n a k : Nat) : m.growBack ⟨0,n,0,n⟩ a a k = ⟨0,0,a + k⟩ := by
  induction a generalizing k with
  | zero =>
    rw [Matcher.growBack]
    · simp
    · simp
  | succ a ih =>
    rw [Matcher.growBack,if_pos (by simp [agreeDiagonal mirror]),ih]
    simp only [Block.mk.injEq,true_and]
    omega

theorem aheadDiagonal (i room : Nat) : m.ahead i i room = room := by
  induction room generalizing i with
  | zero => rfl
  | succ room ih => rw [Matcher.ahead,if_pos (agreeDiagonal mirror i),ih]

theorem longestDiagonal (n : Nat) : m.longest ⟨0,n,0,n⟩ = ⟨0,0,n⟩ := by
  have fits := scanFits mirror.indexed (w := ⟨0,n,0,n⟩) (Nat.zero_le _) (Nat.zero_le _)
  have inside := fits.oldHi
  simp only at inside
  unfold Matcher.longest
  dsimp only
  rw [← scanCentred mirror,growBackDiagonal mirror,Matcher.growAhead]
  simp only [Nat.zero_add,Nat.min_self,aheadDiagonal mirror,Block.mk.injEq,true_and]
  omega

end

theorem linesSelf (name : String) (lines : List String) : Unified.lines name lines lines = [] := by
  have mirror := popularMirror lines
  obtain ⟨old,new⟩ := Hunks.popularSame lines lines
  have script := editsWhole (by rw [old]; rfl) (by rw [new]; rfl) (longestDiagonal mirror lines.length)
  have idle : Unified.groups (Matcher.skippingPopular lines lines).edits = [] := by
    rw [script]
    split
    · rfl
    · have short : ¬(2 * Unified.context <
          min (lines.length : Int) (max 0 (lines.length - Unified.context) + Unified.context) -
            max 0 (lines.length - Unified.context)) := by
        unfold Unified.context
        omega
      simp [Unified.groups,Unified.trimFirst,Unified.trimLast,Unified.cutTail,Unified.split,Unified.dropIdle,
        Edit.isEqual,short]
  unfold Unified.lines
  rw [idle]

end Retouch.Diagonal
