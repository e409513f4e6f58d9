import Retouch.Diff.Match

/-! Runs of equal lines. Whatever the matcher finds in a window lies in that window and pairs equal
lines, so the runs of the whole lists follow each other in both lists and never overlap. Nothing here
depends on a run being the longest, only on the index naming true positions. -/
namespace Retouch.Matching

def Indexed (m : Matcher) : Prop :=
  ∀ line j, j ∈ m.index.getD line [] → m.new[j]? = some line

structure Fits (m : Matcher) (w : Window) (b : Block) : Prop where
  oldLo : w.oldLo ≤ b.old
  oldHi : b.old + b.size ≤ w.oldHi
  newLo : w.newLo ≤ b.new
  newHi : b.new + b.size ≤ w.newHi
  same : ∀ k < b.size, m.old[b.old + k]? = m.new[b.new + k]?

/- Runs that end in front of old line `i`. Each is kept as its last new line and its length; the start
is recovered by counting back, so the relation names it. -/
def RunsTo (m : Matcher) (w : Window) (i : Nat) (runs : List (Nat × Nat)) : Prop :=
  ∀ run ∈ runs, ∃ a b, a + run.2 = i ∧ b + run.2 = run.1 + 1 ∧ Fits m w ⟨a,b,run.2⟩

def enlist (entry : String × Nat) (index : Std.HashMap String (List Nat)) : Std.HashMap String (List Nat) :=
  index.insert entry.1 (entry.2 :: index.getD entry.1 [])

theorem enlistedHolds (new : List String) (first : Nat) (line : String) (j : Nat)
    (member : j ∈ ((new.zipIdx first).foldr enlist ∅).getD line []) :
    first ≤ j ∧ new[j - first]? = some line := by
  induction new generalizing first with
  | nil => simp at member
  | cons head tail ih =>
    rw [List.zipIdx_cons,List.foldr_cons,enlist,Std.HashMap.getD_insert] at member
    have later (h : j ∈ ((tail.zipIdx (first+1)).foldr enlist ∅).getD line []) :
        first ≤ j ∧ (head :: tail)[j - first]? = some line := by
      obtain ⟨le,found⟩ := ih (first+1) h
      have shift : j - first = (j - (first+1)) + 1 := by omega
      exact ⟨by omega,by rw [shift,List.getElem?_cons_succ]; exact found⟩
    split at member
    · rename_i same
      have same := beq_iff_eq.mp same
      subst line
      rcases List.mem_cons.mp member with rfl | member
      · simp
      · exact later member
    · exact later member

theorem ofLinesIndexed (old new : List String) : Indexed (Matcher.ofLines old new) := by
  intro line j member
  have found := (enlistedHolds new 0 line j member).2
  simpa [Matcher.ofLines] using found

theorem occurrenceAgrees {m : Matcher} (indexed : Indexed m) {w : Window} {i j : Nat}
    (member : j ∈ m.occurrences w i) : w.newLo ≤ j ∧ j < w.newHi ∧ m.old[i]? = m.new[j]? := by
  unfold Matcher.occurrences at member
  split at member
  · simp at member
  · rename_i line found
    obtain ⟨listed,bounds⟩ := List.mem_filter.mp member
    have bounds : w.newLo ≤ j ∧ j < w.newHi := by simpa using bounds
    exact ⟨bounds.1,bounds.2,found.trans (indexed line j listed).symm⟩

theorem fitsSucc {m : Matcher} {w : Window} {b : Block} (fits : Fits m w b)
    (old : b.old + b.size < w.oldHi) (new : b.new + b.size < w.newHi)
    (agree : m.old[b.old + b.size]? = m.new[b.new + b.size]?) :
    Fits m w ⟨b.old,b.new,b.size+1⟩ := by
  refine ⟨fits.oldLo,by simp only; omega,fits.newLo,by simp only; omega,?_⟩
  intro k small
  by_cases last : k = b.size
  · subst k; exact agree
  · exact fits.same k (by simp only at small; omega)

theorem lengthenRuns {m : Matcher} {w : Window} {i : Nat} {js : List Nat} {runs : List (Nat × Nat)}
    (lo : w.oldLo ≤ i) (hi : i < w.oldHi)
    (agree : ∀ j ∈ js, w.newLo ≤ j ∧ j < w.newHi ∧ m.old[i]? = m.new[j]?)
    (before : RunsTo m w i runs) : RunsTo m w (i+1) (Matcher.lengthen js runs) := by
  induction js generalizing runs with
  | nil => simp [Matcher.lengthen,RunsTo]
  | cons j js ih =>
    have kept : RunsTo m w i (runs.dropWhile (fun run => run.1 + 1 < j)) :=
      fun run member => before run ((List.dropWhile_sublist _).mem member)
    obtain ⟨ge,lt,equal⟩ := agree j (by simp)
    -- a run of one line, for a position that continues no earlier run
    have single : ∃ a b, a + 1 = i + 1 ∧ b + 1 = j + 1 ∧ Fits m w ⟨a,b,1⟩ := by
      refine ⟨i,j,rfl,rfl,lo,by simp only; omega,ge,by simp only; omega,?_⟩
      intro k small
      have zero : k = 0 := by simp only at small; omega
      subst k
      simpa using equal
    intro run member
    rw [Matcher.lengthen] at member
    rcases List.mem_cons.mp member with rfl | member
    · dsimp only
      split
      · rename_i k n rest head
        split
        · rename_i next
          obtain ⟨a,b,ha,hb,fits⟩ := kept (k,n) (by rw [head]; simp)
          refine ⟨a,b,by simp only at ha; omega,by simp only at hb; omega,?_⟩
          simp only at ha hb fits
          exact fitsSucc fits (by simp only; omega) (by simp only; omega)
            (by simp only; rw [ha,hb,next]; exact equal)
        · exact single
      · exact single
    · exact ih (fun j member => agree j (List.mem_cons_of_mem _ member)) kept run member

theorem betterFits {m : Matcher} {w : Window} {i : Nat} {runs : List (Nat × Nat)} {best : Block}
    (ended : RunsTo m w (i+1) runs) (fits : Fits m w best) :
    Fits m w (runs.foldl (Matcher.better i) best) := by
  apply List.foldlRecOn (motive := fun best => Fits m w best) runs _ fits
  intro best fits run member
  obtain ⟨a,b,ha,hb,found⟩ := ended run member
  unfold Matcher.better
  split
  · have ea : i + 1 - run.2 = a := by omega
    have eb : run.1 + 1 - run.2 = b := by omega
    rw [ea,eb]
    exact found
  · exact fits

theorem scanRows {m : Matcher} (indexed : Indexed m) {w : Window} (n i : Nat)
    (state : List (Nat × Nat) × Block) (lo : w.oldLo ≤ i) (hi : i + n ≤ w.oldHi)
    (runs : RunsTo m w i state.1) (best : Fits m w state.2) :
    Fits m w ((List.range' i n).foldl (m.scanRow w) state).2 := by
  induction n generalizing i state with
  | zero => exact best
  | succ n ih =>
    rw [List.range'_succ,List.foldl_cons]
    have longer : RunsTo m w (i+1) (m.scanRow w state i).1 :=
      lengthenRuns lo (by omega) (fun _ member => occurrenceAgrees indexed member) runs
    exact ih (i+1) _ (by omega) (by omega) longer (betterFits longer best)

theorem scanFits {m : Matcher} (indexed : Indexed m) {w : Window}
    (old : w.oldLo ≤ w.oldHi) (new : w.newLo ≤ w.newHi) : Fits m w (m.scan w) := by
  apply scanRows indexed _ _ _ (Nat.le_refl _) (by omega)
  · simp [RunsTo]
  · exact ⟨Nat.le_refl _,old,Nat.le_refl _,new,by simp⟩

theorem agreeEq {m : Matcher} {i j : Nat} : m.agree i j = true ↔ m.old[i]? = m.new[j]? := by
  simp [Matcher.agree]

theorem growBackFits {m : Matcher} {w : Window} (i j n : Nat) (fits : Fits m w ⟨i,j,n⟩) :
    Fits m w (m.growBack w i j n) := by
  fun_induction Matcher.growBack m w i j n with
  | case1 i j n more ih =>
    simp only [Bool.and_eq_true,decide_eq_true_eq,agreeEq] at more
    obtain ⟨⟨lo,lo'⟩,equal⟩ := more
    have stop := fits.oldHi
    have stop' := fits.newHi
    simp only at stop stop'
    refine ih ⟨lo,by simp only; omega,lo',by simp only; omega,?_⟩
    intro k small
    cases k with
    | zero => simpa using equal
    | succ k =>
      have h := fits.same k (by simp only at small ⊢; omega)
      simpa only [Nat.succ_eq_add_one,Nat.add_assoc,Nat.add_comm 1 k] using h
  | case2 => exact fits
  | case3 => exact fits

theorem aheadAgrees (m : Matcher) (i j room : Nat) :
    m.ahead i j room ≤ room ∧ ∀ k < m.ahead i j room, m.old[i+k]? = m.new[j+k]? := by
  induction room generalizing i j with
  | zero => simp [Matcher.ahead]
  | succ room ih =>
    rw [Matcher.ahead]
    split
    · rename_i equal
      obtain ⟨le,same⟩ := ih (i+1) (j+1)
      refine ⟨by omega,?_⟩
      intro k small
      cases k with
      | zero => simpa using agreeEq.mp equal
      | succ k =>
        have h := same k (by omega)
        simpa only [Nat.add_assoc,Nat.add_comm 1 k] using h
    · simp

theorem growAheadFits {m : Matcher} {w : Window} {b : Block} (fits : Fits m w b) :
    Fits m w (m.growAhead w b) := by
  obtain ⟨le,same⟩ := aheadAgrees m (b.old + b.size) (b.new + b.size)
    (min (w.oldHi - (b.old + b.size)) (w.newHi - (b.new + b.size)))
  have stop := fits.oldHi
  have stop' := fits.newHi
  refine ⟨fits.oldLo,?_,fits.newLo,?_,?_⟩
  · simp only [Matcher.growAhead]; omega
  · simp only [Matcher.growAhead]; omega
  · intro k small
    simp only [Matcher.growAhead] at small ⊢
    by_cases inside : k < b.size
    · exact fits.same k inside
    · have h := same (k - b.size) (by omega)
      have e : b.size + (k - b.size) = k := by omega
      simpa only [Nat.add_assoc,e] using h

theorem longestFits {m : Matcher} (indexed : Indexed m) {w : Window}
    (old : w.oldLo ≤ w.oldHi) (new : w.newLo ≤ w.newHi) : Fits m w (m.longest w) :=
  growAheadFits (growBackFits _ _ _ (scanFits indexed old new))

inductive Follow (m : Matcher) : Nat → Nat → List Block → Nat → Nat → Prop where
  | nil {i j i' j'} (old : i ≤ i') (new : j ≤ j') : Follow m i j [] i' j'
  | cons {i j b rest i' j'} (old : i ≤ b.old) (new : j ≤ b.new) (filled : 0 < b.size)
      (same : ∀ k < b.size, m.old[b.old + k]? = m.new[b.new + k]?)
      (tail : Follow m (b.old + b.size) (b.new + b.size) rest i' j') : Follow m i j (b :: rest) i' j'

theorem followFrom {m : Matcher} {i j a b i' j' : Nat} {runs : List Block} (old : a ≤ i) (new : b ≤ j)
    (h : Follow m i j runs i' j') : Follow m a b runs i' j' := by
  cases h with
  | nil old' new' => exact .nil (by omega) (by omega)
  | cons old' new' filled same tail => exact .cons (by omega) (by omega) filled same tail

theorem followAppend {m : Matcher} {i j i' j' i'' j'' : Nat} {xs ys : List Block}
    (h : Follow m i j xs i' j') (tail : Follow m i' j' ys i'' j'') : Follow m i j (xs ++ ys) i'' j'' := by
  induction h with
  | nil old new => exact followFrom old new tail
  | cons old new filled same _ ih => exact .cons old new filled same (ih tail)

theorem blocksFollow {m : Matcher} (indexed : Indexed m) (w : Window)
    (old : w.oldLo ≤ w.oldHi) (new : w.newLo ≤ w.newHi) :
    Follow m w.oldLo w.newLo (m.blocks w) w.oldHi w.newHi := by
  fun_induction Matcher.blocks m w with
  | case1 w i j n found guard left right =>
    have fits := longestFits indexed old new
    rw [found] at fits
    exact followAppend (left fits.oldLo fits.newLo)
      (.cons (Nat.le_refl _) (Nat.le_refl _) guard.1 fits.same (right fits.oldHi fits.newHi))
  | case2 => exact .nil old new

def Touch (b c : Block) : Prop := b.old + b.size = c.old ∧ b.new + b.size = c.new

def Apart : List Block → Prop
  | b :: c :: rest => ¬Touch b c ∧ Apart (c :: rest)
  | _ => True

theorem joinFromFollow {m : Matcher} {i j i' j' : Nat} {b : Block} {rest : List Block}
    (h : Follow m i j (b :: rest) i' j') :
    Follow m i j (Block.joinFrom b rest) i' j' ∧ Apart (Block.joinFrom b rest) ∧
      ∃ size tail, Block.joinFrom b rest = ⟨b.old,b.new,size⟩ :: tail := by
  induction rest generalizing i j b with
  | nil => exact ⟨h,trivial,b.size,[],rfl⟩
  | cons c rest ih =>
    obtain _ | ⟨old,new,filled,same,tail⟩ := h
    obtain _ | ⟨old',new',filled',same',tail'⟩ := tail
    rw [Block.joinFrom]
    split
    · rename_i touch
      -- the second run continues the first, so both are one run from the first start
      apply ih
      refine .cons old new (by simp only; omega) ?_ ?_
      · intro k small
        by_cases inside : k < b.size
        · exact same k inside
        · have h := same' (k - b.size) (by simp only at small; omega)
          have e : b.size + (k - b.size) = k := by omega
          simpa only [← touch.1,← touch.2,Nat.add_assoc,e] using h
      · simpa only [← touch.1,← touch.2,Nat.add_assoc] using tail'
    · rename_i apart
      obtain ⟨joined,separate,size,more,eq⟩ := ih (.cons old' new' filled' same' tail')
      refine ⟨.cons old new filled same joined,?_,b.size,_,rfl⟩
      rw [eq] at separate ⊢
      exact ⟨apart,separate⟩

theorem joinTouchingFollow {m : Matcher} {i j i' j' : Nat} {runs : List Block}
    (h : Follow m i j runs i' j') :
    Follow m i j (Block.joinTouching runs) i' j' ∧ Apart (Block.joinTouching runs) := by
  cases runs with
  | nil => exact ⟨h,trivial⟩
  | cons b rest =>
    obtain ⟨follow,apart,_⟩ := joinFromFollow h
    exact ⟨follow,apart⟩

end Retouch.Matching
