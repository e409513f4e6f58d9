import Retouch.Proofs.Script

/-! The run that is found in a window is a longest one, as long as the index names every position of every
line. So a window without a run has no line in common, what lies between the runs of two lists is
foreign to each other, and two equal lists are one run. -/
namespace Retouch.Longest
open Matching

structure Complete (m : Matcher) : Prop where
  listed : ∀ line j, m.new[j]? = some line → j ∈ m.index.getD line []
  ascending : ∀ line, (m.index.getD line []).Pairwise (· < ·)

theorem enlistedAll (new : List String) (first : Nat) {line : String} {k : Nat} (found : new[k]? = some line) :
    first + k ∈ ((new.zipIdx first).foldr enlist ∅).getD line [] := by
  induction new generalizing first k with
  | nil => simp at found
  | cons head tail ih =>
    rw [List.zipIdx_cons,List.foldr_cons,enlist,Std.HashMap.getD_insert]
    cases k with
    | zero =>
      cases Option.some.inj found
      simp
    | succ k =>
      have later := ih (first+1) (by simpa using found)
      have shift : first + 1 + k = first + (k + 1) := by omega
      rw [shift] at later
      split
      · rename_i same
        rw [← beq_iff_eq.mp same] at later
        exact List.mem_cons_of_mem _ later
      · exact later

theorem enlistedAscending (new : List String) (first : Nat) (line : String) :
    (((new.zipIdx first).foldr enlist ∅).getD line []).Pairwise (· < ·) := by
  induction new generalizing first with
  | nil => simp
  | cons head tail ih =>
    rw [List.zipIdx_cons,List.foldr_cons,enlist,Std.HashMap.getD_insert]
    split
    · rename_i same
      rw [beq_iff_eq.mp same]
      refine List.pairwise_cons.mpr ⟨fun j member => ?_,ih (first+1)⟩
      have bound := (enlistedHolds tail (first+1) line j member).1
      omega
    · exact ih (first+1)

theorem ofLinesComplete (old new : List String) : Complete (Matcher.ofLines old new) where
  listed line j found := by
    have member := @enlistedAll new 0 line j (by simpa [Matcher.ofLines] using found)
    rw [Nat.zero_add] at member
    exact member
  ascending line := enlistedAscending new 0 line

theorem memDropWhile {p : α → Bool} {xs : List α} {x : α} (member : x ∈ xs) (stays : p x = false) :
    x ∈ xs.dropWhile p := by
  induction xs with
  | nil => cases member
  | cons y ys ih =>
    rw [List.dropWhile_cons]
    split
    · rename_i dropped
      rcases List.mem_cons.mp member with rfl | later
      · rw [stays] at dropped
        cases dropped
      · exact ih later
    · exact member

def Ordered (runs : List (Nat × Nat)) : Prop := runs.Pairwise (fun run next => run.1 < next.1)

theorem lengthenPositions (js : List Nat) (runs : List (Nat × Nat)) :
    (Matcher.lengthen js runs).map Prod.fst = js := by
  induction js generalizing runs with
  | nil => rfl
  | cons j js ih => rw [Matcher.lengthen,List.map_cons,ih]

/- Both lists ascend, so a run that is dropped on the way to a position cannot be continued at a later one. -/
theorem lengthenContinues {js : List Nat} {runs : List (Nat × Nat)} (ascending : js.Pairwise (· < ·))
    (ordered : Ordered runs) {j : Nat} (member : j ∈ js) :
    ∃ size, (j,size) ∈ Matcher.lengthen js runs ∧ 1 ≤ size ∧ ∀ k n, (k,n) ∈ runs → k + 1 = j → n + 1 ≤ size := by
  induction js generalizing runs with
  | nil => cases member
  | cons j' js ih =>
    obtain ⟨before,ascending⟩ := List.pairwise_cons.mp ascending
    have kept : Ordered (runs.dropWhile (fun run => run.1 + 1 < j')) := ordered.sublist (List.dropWhile_sublist _)
    rw [Matcher.lengthen]
    rcases List.mem_cons.mp member with rfl | later
    · refine ⟨_,List.mem_cons_self,?_,?_⟩
      · split
        · split <;> omega
        · exact Nat.le_refl 1
      · intro k n inside next
        have left := memDropWhile (p := fun run => run.1 + 1 < j) inside (by simp only [decide_eq_false_iff_not]; omega)
        have stopped := List.head?_dropWhile_not (fun run : Nat × Nat => decide (run.1 + 1 < j)) runs
        cases rest : runs.dropWhile (fun run => run.1 + 1 < j) with
        | nil =>
          rw [rest] at left
          cases left
        | cons first others =>
          rw [rest] at left stopped kept
          have reach : ¬first.1 + 1 < j := by simpa using stopped
          have head : first = (k,n) := by
            rcases List.mem_cons.mp left with same | other
            · exact same.symm
            · have below : first.1 < k := (List.pairwise_cons.mp kept).1 _ other
              omega
          subst head
          simp [next]
    · obtain ⟨size,found,positive,continues⟩ := ih ascending kept later
      refine ⟨size,List.mem_cons_of_mem _ found,positive,fun k n inside next => ?_⟩
      have between := before j later
      exact continues k n (memDropWhile inside (by simp only [decide_eq_false_iff_not]; omega)) next

structure Reached (m : Matcher) (w : Window) (i : Nat) (runs : List (Nat × Nat)) : Prop where
  ordered : Ordered runs
  longest : ∀ a b k, Fits m w ⟨a,b,k+1⟩ → a + (k+1) = i → ∃ n, (b + k,n) ∈ runs ∧ k + 1 ≤ n

theorem fitsShorter {m : Matcher} {w : Window} {a b k : Nat} (fits : Fits m w ⟨a,b,k+1⟩) : Fits m w ⟨a,b,k⟩ := by
  have old := fits.oldHi
  have new := fits.newHi
  simp only at old new
  exact ⟨fits.oldLo,by simp only; omega,fits.newLo,by simp only; omega,
    fun l small => fits.same l (by simp only at small ⊢; omega)⟩

theorem lastOccurs {m : Matcher} (complete : Complete m) {w : Window} (inside : w.oldHi ≤ m.old.size) {a b k : Nat}
    (fits : Fits m w ⟨a,b,k+1⟩) : b + k ∈ m.occurrences w (a + k) := by
  have old := fits.oldHi
  have new := fits.newHi
  have start := fits.newLo
  simp only at old new start
  have line : m.old[a + k]? = some m.old[a + k] := Array.getElem?_eq_getElem (by omega)
  have same := fits.same k (by simp only; omega)
  rw [Matcher.occurrences,line]
  refine List.mem_filter.mpr ⟨complete.listed _ _ (same.symm.trans line),?_⟩
  simp only [Bool.and_eq_true,decide_eq_true_eq]
  omega

theorem occurrencesAscend {m : Matcher} (complete : Complete m) (w : Window) (i : Nat) :
    (m.occurrences w i).Pairwise (· < ·) := by
  unfold Matcher.occurrences
  split
  · exact List.Pairwise.nil
  · exact (complete.ascending _).filter _

theorem reachedRow {m : Matcher} (complete : Complete m) {w : Window} (inside : w.oldHi ≤ m.old.size) {i : Nat}
    {runs : List (Nat × Nat)} (reached : Reached m w i runs) :
    Reached m w (i+1) (Matcher.lengthen (m.occurrences w i) runs) := by
  have ascending := occurrencesAscend complete w i
  refine ⟨?_,fun a b k fits ends => ?_⟩
  · have positions := lengthenPositions (m.occurrences w i) runs
    rw [← positions] at ascending
    exact List.pairwise_map.mp ascending
  · have here : a + k = i := by omega
    have occurs := lastOccurs complete inside fits
    rw [here] at occurs
    obtain ⟨size,found,positive,continues⟩ := lengthenContinues ascending reached.ordered occurs
    refine ⟨size,found,?_⟩
    cases k with
    | zero => exact positive
    | succ k =>
      obtain ⟨n,listed,long⟩ := reached.longest a b k (fitsShorter fits) here
      have longer := continues (b + k) n listed rfl
      omega

theorem betterGrows (i : Nat) (runs : List (Nat × Nat)) (best : Block) :
    best.size ≤ (runs.foldl (Matcher.better i) best).size ∧
      ∀ run ∈ runs, run.2 ≤ (runs.foldl (Matcher.better i) best).size := by
  induction runs generalizing best with
  | nil => simp
  | cons run runs ih =>
    obtain ⟨grows,covers⟩ := ih (Matcher.better i best run)
    have step : best.size ≤ (Matcher.better i best run).size ∧ run.2 ≤ (Matcher.better i best run).size := by
      unfold Matcher.better
      split
      · simp only
        omega
      · omega
    rw [List.foldl_cons]
    refine ⟨by omega,fun other member => ?_⟩
    rcases List.mem_cons.mp member with rfl | later
    · omega
    · exact covers other later

/- Before each row: the runs that reach it, and no run above it longer than the best. -/
theorem scanRowsLongest {m : Matcher} (complete : Complete m) {w : Window} (inside : w.oldHi ≤ m.old.size) (n i : Nat)
    (state : List (Nat × Nat) × Block) (reached : Reached m w i state.1)
    (best : ∀ b, Fits m w b → b.old + b.size ≤ i → b.size ≤ state.2.size) {b : Block} (fits : Fits m w b)
    (above : b.old + b.size ≤ i + n) : b.size ≤ ((List.range' i n).foldl (m.scanRow w) state).2.size := by
  induction n generalizing i state with
  | zero => exact best b fits above
  | succ n ih =>
    rw [List.range'_succ,List.foldl_cons]
    have next := reachedRow complete inside reached
    obtain ⟨grows,covers⟩ := betterGrows i (Matcher.lengthen (m.occurrences w i) state.1) state.2
    refine ih (i+1) (m.scanRow w state i) next ?_ (by omega)
    rintro ⟨a,c,size⟩ other ends
    by_cases earlier : a + size ≤ i
    · exact Nat.le_trans (best _ other earlier) grows
    · cases size with
      | zero => exact Nat.zero_le _
      | succ k =>
        obtain ⟨longest,listed,long⟩ := next.longest a c k other (by simp only at ends; omega)
        exact Nat.le_trans long (covers _ listed)

theorem scanLongest {m : Matcher} (complete : Complete m) {w : Window} (inside : w.oldHi ≤ m.old.size) {b : Block}
    (fits : Fits m w b) : b.size ≤ (m.scan w).size := by
  have lo := fits.oldLo
  have hi := fits.oldHi
  refine scanRowsLongest complete inside (w.oldHi - w.oldLo) w.oldLo ([],⟨w.oldLo,w.newLo,0⟩) ⟨List.Pairwise.nil,?_⟩ ?_ fits
    (by omega)
  · intro a c k other ends
    have start := other.oldLo
    simp only at start ends
    omega
  · intro other fits' ends
    have start := fits'.oldLo
    simp only
    omega

theorem growBackGrows (m : Matcher) (w : Window) (i j n : Nat) : n ≤ (m.growBack w i j n).size := by
  fun_induction Matcher.growBack m w i j n with
  | case1 i j n more ih => omega
  | case2 => exact Nat.le_refl _
  | case3 => exact Nat.le_refl _

theorem longestMaximal {m : Matcher} (complete : Complete m) {w : Window} (inside : w.oldHi ≤ m.old.size) {b : Block}
    (fits : Fits m w b) : b.size ≤ (m.longest w).size :=
  calc b.size ≤ (m.scan w).size := scanLongest complete inside fits
    _ ≤ (m.growBack w (m.scan w).old (m.scan w).new (m.scan w).size).size := growBackGrows ..
    _ ≤ (m.longest w).size := Nat.le_add_right ..

def Foreign (m : Matcher) (i i' j j' : Nat) : Prop :=
  ∀ a b, i ≤ a → a < i' → j ≤ b → b < j' → m.old[a]? ≠ m.new[b]?

inductive Spaced (m : Matcher) : Nat → Nat → List Block → Nat → Nat → Prop where
  | nil {i j i' j'} (gap : Foreign m i i' j j') : Spaced m i j [] i' j'
  | cons {i j b rest i' j'} (gap : Foreign m i b.old j b.new)
      (tail : Spaced m (b.old + b.size) (b.new + b.size) rest i' j') : Spaced m i j (b :: rest) i' j'

theorem spacedAround {m : Matcher} {i j i' j' : Nat} {b : Block} {xs ys : List Block}
    (left : Spaced m i j xs b.old b.new) (right : Spaced m (b.old + b.size) (b.new + b.size) ys i' j') :
    Spaced m i j (xs ++ b :: ys) i' j' := by
  generalize old : b.old = stop at left
  generalize new : b.new = stop' at left
  induction left with
  | nil gap =>
    subst old new
    exact .cons gap right
  | cons gap _ ih => exact .cons gap (ih old new)

theorem blocksSpaced {m : Matcher} (indexed : Indexed m) (complete : Complete m) (w : Window)
    (inside : w.oldHi ≤ m.old.size) (old : w.oldLo ≤ w.oldHi) (new : w.newLo ≤ w.newHi) :
    Spaced m w.oldLo w.newLo (m.blocks w) w.oldHi w.newHi := by
  fun_induction Matcher.blocks m w with
  | case1 w i j n found guard left right =>
    have fits := longestFits indexed old new
    rw [found] at fits
    refine spacedAround (left ?_ fits.oldLo fits.newLo) (right inside fits.oldHi fits.newHi)
    have stop := fits.oldHi
    simp only at stop ⊢
    omega
  | case2 w i j n found guard =>
    have fits := longestFits indexed old new
    rw [found] at fits
    refine .nil (fun a b lo hi lo' hi' same => ?_)
    have single : Fits m w ⟨a,b,1⟩ := by
      refine ⟨lo,by simp only; omega,lo',by simp only; omega,fun k small => ?_⟩
      have zero : k = 0 := by simp only at small; omega
      subst zero
      simpa using same
    have long := longestMaximal complete inside single
    rw [found] at long
    exact guard ⟨long,fits.oldLo,fits.oldHi⟩

theorem joinFromSpaced {m : Matcher} {i j i' j' : Nat} {b : Block} {rest : List Block}
    (h : Spaced m i j (b :: rest) i' j') : Spaced m i j (Block.joinFrom b rest) i' j' := by
  induction rest generalizing i j b with
  | nil => exact h
  | cons c rest ih =>
    obtain _ | ⟨gap,tail⟩ := h
    rw [Block.joinFrom]
    split
    · rename_i touch
      obtain _ | ⟨_,tail⟩ := tail
      refine ih (.cons gap ?_)
      simpa only [← touch.1,← touch.2,Nat.add_assoc] using tail
    · exact .cons gap (ih tail)

theorem joinTouchingSpaced {m : Matcher} {i j i' j' : Nat} {runs : List Block} (h : Spaced m i j runs i' j') :
    Spaced m i j (Block.joinTouching runs) i' j' := by
  cases runs with
  | nil => exact h
  | cons b rest => exact joinFromSpaced h

theorem editsFromForeign {m : Matcher} {i j i' j' : Nat} {runs : List Block} (h : Spaced m i j runs i' j') {e : Edit}
    (member : e ∈ Block.editsFrom i' j' i j runs) (changed : e.kind = .replace) :
    ∃ a a' b b' : Nat, e = ⟨.replace,a,a',b,b'⟩ ∧ Foreign m a a' b b' := by
  have between {a a' b b' : Nat} (gap : Foreign m a a' b b') (inside : e ∈ Block.gap a a' b b') :
      ∃ a a' b b' : Nat, e = ⟨.replace,a,a',b,b'⟩ ∧ Foreign m a a' b b' := by
    rcases Script.gapCases a a' b b' with ⟨none,_⟩ | ⟨kind,_,one⟩
    · rw [none] at inside
      cases inside
    · rw [one,List.mem_singleton] at inside
      subst inside
      cases changed
      exact ⟨a,a',b,b',rfl,gap⟩
  induction h with
  | nil gap => exact between gap member
  | cons gap tail ih =>
    rw [Block.editsFrom] at member
    rcases List.mem_append.mp member with front | behind
    · exact between gap front
    · rcases List.mem_cons.mp behind with rfl | later
      · cases changed
      · exact ih later

theorem replacedForeign {old new : List String} {e : Edit} (member : e ∈ diffLines old new) (changed : e.kind = .replace) :
    ∀ line ∈ slice new e.newStart e.newStop, line ∉ slice old e.oldStart e.oldStop := by
  have whole := blocksSpaced (ofLinesIndexed old new) (ofLinesComplete old new) ⟨0,old.length,0,new.length⟩
    (by simp [Matcher.ofLines]) (Nat.zero_le _) (Nat.zero_le _)
  obtain ⟨a,a',b,b',rfl,foreign⟩ := editsFromForeign (joinTouchingSpaced whole)
    (by simpa [diffLines,Matcher.edits,Matcher.ofLines] using member) changed
  have within {xs : List String} {lo hi : Nat} {line : String} (inside : line ∈ slice xs lo hi) :
      ∃ k, lo ≤ k ∧ k < hi ∧ xs[k]? = some line := by
    rw [Script.sliceNat] at inside
    obtain ⟨k,found⟩ := List.mem_iff_getElem?.mp inside
    rw [List.getElem?_drop,List.getElem?_take] at found
    split at found
    · exact ⟨lo + k,by omega,by omega,found⟩
    · cases found
  intro line inside inside'
  obtain ⟨k,lo,hi,found⟩ := within inside
  obtain ⟨k',lo',hi',found'⟩ := within inside'
  exact foreign k' k lo' hi' lo hi (by simp [Matcher.ofLines,found,found'])

theorem blocksNothing (m : Matcher) {w : Window} (empty : w.oldHi ≤ w.oldLo) : m.blocks w = [] := by
  rw [Matcher.blocks]
  exact if_neg (by omega)

theorem longestWhole {m : Matcher} (indexed : Indexed m) (complete : Complete m) {w : Window}
    (inside : w.oldHi ≤ m.old.size) (fits : Fits m w ⟨w.oldLo,w.newLo,w.oldHi - w.oldLo⟩)
    (square : w.newHi - w.newLo = w.oldHi - w.oldLo) : m.longest w = ⟨w.oldLo,w.newLo,w.oldHi - w.oldLo⟩ := by
  have long := longestMaximal complete inside fits
  have stop := fits.oldHi
  have stop' := fits.newHi
  simp only at stop stop' long
  have found := longestFits indexed (w := w) (by omega) (by omega)
  have lo := found.oldLo
  have hi := found.oldHi
  have lo' := found.newLo
  have hi' := found.newHi
  rcases eq : m.longest w with ⟨i,j,n⟩
  simp only [eq] at lo hi lo' hi' long
  simp only [Block.mk.injEq]
  omega

theorem editsWhole {m : Matcher} {n : Nat} (old : m.old.size = n) (new : m.new.size = n)
    (whole : m.longest ⟨0,n,0,n⟩ = ⟨0,0,n⟩) : m.edits = if n = 0 then [] else [⟨.equal,0,n,0,n⟩] := by
  have runs : m.blocks ⟨0,n,0,n⟩ = if n = 0 then [] else [⟨0,0,n⟩] := by
    rw [Matcher.blocks,whole]
    dsimp only
    by_cases empty : n = 0
    · simp [empty]
    · rw [if_pos ⟨by omega,by omega,by omega⟩,if_neg empty,blocksNothing m (Nat.le_refl _),blocksNothing m (by simp)]
      simp
  rw [Matcher.edits,old,new,runs]
  by_cases empty : n = 0
  · simp [empty,Block.joinTouching,Block.editsFrom,Block.gap]
  · simp [empty,Block.joinTouching,Block.joinFrom,Block.editsFrom,Block.gap]

theorem diffSelf (lines : List String) :
    diffLines lines lines = if lines = [] then [] else [⟨.equal,0,lines.length,0,lines.length⟩] := by
  have whole : (Matcher.ofLines lines lines).longest ⟨0,lines.length,0,lines.length⟩ = ⟨0,0,lines.length⟩ := by
    refine longestWhole (ofLinesIndexed _ _) (ofLinesComplete _ _) (by simp [Matcher.ofLines]) ?_ rfl
    exact ⟨Nat.le_refl _,by simp,Nat.le_refl _,by simp,fun k _ => rfl⟩
  simpa [diffLines] using editsWhole (by simp [Matcher.ofLines]) (by simp [Matcher.ofLines]) whole

end Retouch.Longest
