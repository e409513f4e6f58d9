import Retouch.Proofs.Hunks

/-! The groups of a unified diff as stretches of both lists. Each group leads from one place to a later one; before the
first group, between two of them and behind the last one both lists have the same lines, and two groups never touch. -/
namespace Retouch.Stretches
open Script

inductive Steps (old new : List String) : Nat → Nat → List Edit → Nat → Nat → Prop where
  | nil {i j} (inside : i ≤ old.length) (inside' : j ≤ new.length) : Steps old new i j [] i j
  | cons {kind i k j l rest i' j'} (shaped : Shaped old new ⟨kind,(i : Nat),(k : Nat),(j : Nat),(l : Nat)⟩)
      (tail : Steps old new k l rest i' j') : Steps old new i j (⟨kind,i,k,j,l⟩ :: rest) i' j'

inductive Covers (old new : List String) : Nat → Nat → Nat → List (List Edit) → Prop where
  | done {gap i j : Nat} (same : old.drop i = new.drop j) : Covers old new gap i j []
  | group {gap i j a b a' b' : Nat} {group rest} (away : i + gap ≤ a) (away' : j + gap ≤ b)
      (skipped : slice old i a = slice new j b) (filled : group ≠ []) (steps : Steps old new a b group a' b')
      (later : Covers old new 1 a' b' rest) :
      Covers old new gap i j (group :: rest)

variable {old new : List String}

theorem leadsSteps {i j : Nat} {edits : List Edit} (h : Leads old new i j edits) :
    Steps old new i j edits old.length new.length := by
  induction h with
  | done => exact .nil (Nat.le_refl _) (Nat.le_refl _)
  | step shaped _ ih => exact .cons shaped ih

theorem stepsBounds {i j i' j' : Nat} {edits : List Edit} (h : Steps old new i j edits i' j') :
    i ≤ i' ∧ j ≤ j' ∧ i' ≤ old.length ∧ j' ≤ new.length := by
  induction h with
  | nil inside inside' => exact ⟨Nat.le_refl _,Nat.le_refl _,inside,inside'⟩
  | cons shaped _ ih =>
    have forward := shapedForward shaped
    omega

theorem stepsAppend {i j k l i' j' : Nat} {xs ys : List Edit} (h : Steps old new i j xs k l)
    (tail : Steps old new k l ys i' j') :
    Steps old new i j (xs ++ ys) i' j' := by
  induction h with
  | nil => exact tail
  | cons shaped _ ih => exact .cons shaped (ih tail)

theorem slicePart (xs : List α) {i n p q : Nat} (inside : q ≤ n) :
    slice xs (i + p : Nat) (i + q : Nat) = ((slice xs i (i + n : Nat)).take q).drop p := by
  simp only [sliceNat,List.drop_take,List.take_take,List.drop_drop,Nat.add_sub_add_left,Nat.add_sub_cancel_left,
    Nat.min_eq_left inside]

theorem sliceJoin {xs : List α} {a b c : Nat} (le : a ≤ b) (le' : b ≤ c) :
    slice xs a b ++ slice xs b c = slice xs a c := by
  have whole : slice xs a b ++ slice xs b c ++ xs.drop c = slice xs a c ++ xs.drop c := by
    rw [List.append_assoc,sliceDrop le',sliceDrop le,sliceDrop (Nat.le_trans le le')]
  exact List.append_cancel_right whole

theorem equalSpan {i k j l i' j' : Nat} {rest : List Edit} (shaped : Shaped old new ⟨.equal,i,k,j,l⟩)
    (tail : Steps old new k l rest i' j') : ∃ n, 0 < n ∧ k = i + n ∧ l = j + n := by
  obtain ⟨_,_,inside,inside'⟩ := stepsBounds tail
  obtain ⟨up,up'⟩ := shapedForward shaped
  obtain ⟨filled,_,same⟩ := shaped
  have sizes := congrArg List.length same
  rw [sliceLength (by omega),sliceLength (by omega)] at sizes
  simp only at filled
  exact ⟨k - i,by omega,by omega,by omega⟩

theorem equalPart {i j n p q : Nat} (shaped : Shaped old new ⟨.equal,i,(i + n : Nat),j,(j + n : Nat)⟩) (inside : q ≤ n) :
    slice old (i + p : Nat) (i + q : Nat) = slice new (j + p : Nat) (j + q : Nat) := by
  have same : slice old i (i + n : Nat) = slice new j (j + n : Nat) := shaped.2.2
  rw [slicePart old inside,slicePart new inside,same]

theorem equalShaped {i j n p q : Nat} (shaped : Shaped old new ⟨.equal,i,(i + n : Nat),j,(j + n : Nat)⟩) (inside : q ≤ n)
    (filled : p < q) : Shaped old new ⟨.equal,(i + p : Nat),(i + q : Nat),(j + p : Nat),(j + q : Nat)⟩ :=
  ⟨by simp only; omega,by simp only; omega,equalPart shaped inside⟩

def cutFront (e : Edit) : Edit :=
  { e with oldStart := max e.oldStart (e.oldStop - Unified.context),
           newStart := max e.newStart (e.newStop - Unified.context) }

theorem cutFrontEqual (i j n : Nat) : cutFront ⟨.equal,i,(i + n : Nat),j,(j + n : Nat)⟩ =
    ⟨.equal,(i + (n - 3) : Nat),(i + n : Nat),(j + (n - 3) : Nat),(j + n : Nat)⟩ := by
  simp only [cutFront,Unified.context,Edit.mk.injEq,true_and,and_true]
  omega

theorem cutTailEqual (i j n : Nat) : Unified.cutTail ⟨.equal,i,(i + n : Nat),j,(j + n : Nat)⟩ =
    ⟨.equal,i,(i + min n 3 : Nat),j,(j + min n 3 : Nat)⟩ := by
  simp only [Unified.cutTail,Unified.context,Edit.mk.injEq,true_and]
  omega

theorem isEqualKind {e : Edit} : e.isEqual = true ↔ e.kind = .equal := beq_iff_eq

theorem trimFirstSteps {i j i' j' : Nat} {edits : List Edit} (h : Steps old new i j edits i' j') :
    ∃ a b, i ≤ a ∧ j ≤ b ∧ slice old i a = slice new j b ∧ Steps old new a b (Unified.trimFirst edits) i' j' := by
  have unmoved (steps : Steps old new i j edits i' j') (kept : Unified.trimFirst edits = edits) :
      ∃ a b, i ≤ a ∧ j ≤ b ∧ slice old i a = slice new j b ∧ Steps old new a b (Unified.trimFirst edits) i' j' :=
    ⟨i,j,Nat.le_refl _,Nat.le_refl _,by simp [sliceNat],by rw [kept]; exact steps⟩
  cases h with
  | nil inside inside' => exact unmoved (.nil inside inside') rfl
  | @cons kind _ k _ l rest _ _ shaped tail =>
    by_cases equal : kind = .equal
    · subst equal
      obtain ⟨n,filled,rfl,rfl⟩ := equalSpan shaped tail
      have cut : Unified.trimFirst (⟨.equal,i,(i + n : Nat),j,(j + n : Nat)⟩ :: rest) =
          ⟨.equal,(i + (n - 3) : Nat),(i + n : Nat),(j + (n - 3) : Nat),(j + n : Nat)⟩ :: rest := by
        rw [← cutFrontEqual]
        rfl
      refine ⟨i + (n - 3),j + (n - 3),by omega,by omega,?_,?_⟩
      · simpa using equalPart (p := 0) shaped (show n - 3 ≤ n by omega)
      · rw [cut]
        exact .cons (equalShaped shaped (Nat.le_refl _) (by omega)) tail
    · refine unmoved (.cons shaped tail) ?_
      rw [Unified.trimFirst,if_neg (by rw [isEqualKind]; exact equal)]

theorem trimLastSteps {i j i' j' : Nat} {edits : List Edit} (h : Steps old new i j edits i' j') :
    ∃ c d, c ≤ i' ∧ d ≤ j' ∧ slice old c i' = slice new d j' ∧ Steps old new i j (Unified.trimLast edits) c d := by
  induction h with
  | @nil i j inside inside' => exact ⟨i,j,Nat.le_refl _,Nat.le_refl _,by simp [sliceNat],.nil inside inside'⟩
  | @cons kind i k j l rest i' j' shaped tail ih =>
    cases rest with
    | nil =>
      by_cases equal : kind = .equal
      · subst equal
        obtain ⟨n,filled,rfl,rfl⟩ := equalSpan shaped tail
        cases tail with
        | nil inside inside' =>
        have cut : Unified.trimLast [⟨.equal,i,(i + n : Nat),j,(j + n : Nat)⟩] =
            [⟨.equal,i,(i + min n 3 : Nat),j,(j + min n 3 : Nat)⟩] := by
          rw [← cutTailEqual]
          rfl
        refine ⟨i + min n 3,j + min n 3,by omega,by omega,equalPart shaped (Nat.le_refl _),?_⟩
        rw [cut]
        have part := equalShaped (p := 0) (q := min n 3) shaped (by omega) (by omega)
        exact .cons (by simpa using part) (.nil (by omega) (by omega))
      · have kept : Unified.trimLast [⟨kind,i,k,j,l⟩] = [⟨kind,i,k,j,l⟩] := by
          rw [Unified.trimLast,if_neg (by rw [isEqualKind]; exact equal)]
        obtain ⟨c,d,le,le',same,steps⟩ := ih
        exact ⟨c,d,le,le',same,by rw [kept]; exact .cons shaped steps⟩
    | cons f rest =>
      obtain ⟨c,d,le,le',same,steps⟩ := ih
      exact ⟨c,d,le,le',same,.cons shaped steps⟩

/- Splitting goes on with the group in hand, which leads up to where the rest of the script starts. -/
theorem splitCovers {group edits : List Edit} {gap i j a b k l i' j' : Nat} (away : i + gap ≤ a) (away' : j + gap ≤ b)
    (skipped : slice old i a = slice new j b) (steps : Steps old new a b group.reverse k l)
    (ahead : Steps old new k l edits i' j') (filled : group ≠ [] ∨ edits ≠ []) (same : old.drop i' = new.drop j') :
    Covers old new gap i j (Unified.split group edits) := by
  induction ahead generalizing group gap i j a b with
  | nil =>
    rw [Unified.split]
    exact .group away away' skipped (by simpa using filled) steps (.done same)
  | @cons kind k k' l l' rest i' j' shaped tail ih =>
    rw [Unified.split]
    split
    · rename_i long
      simp only [Bool.and_eq_true,isEqualKind,decide_eq_true_eq] at long
      obtain ⟨equal,long⟩ := long
      subst equal
      obtain ⟨n,_,rfl,rfl⟩ := equalSpan shaped tail
      unfold Unified.context at long
      have short : min n 3 = 3 := by omega
      have front : Steps old new k l [Unified.cutTail ⟨.equal,k,(k + n : Nat),l,(l + n : Nat)⟩] (k + 3) (l + 3) := by
        rw [cutTailEqual,short]
        have bounds := stepsBounds tail
        have part := equalShaped (p := 0) (q := 3) shaped (by omega) (by omega)
        exact .cons (by simpa using part) (.nil (by omega) (by omega))
      have back : Steps old new (k + (n - 3)) (l + (n - 3)) [cutFront ⟨.equal,k,(k + n : Nat),l,(l + n : Nat)⟩]
          (k + n) (l + n) := by
        rw [cutFrontEqual]
        have bounds := stepsBounds tail
        exact .cons (equalShaped shaped (Nat.le_refl _) (by omega)) (.nil (by omega) (by omega))
      refine .group away away' skipped (by simp) (by rw [List.reverse_cons]; exact stepsAppend steps front) ?_
      exact ih (by omega) (by omega) (equalPart shaped (by omega)) back (.inl (by simp)) same
    · refine ih away away' skipped ?_ (.inl (by simp)) same
      rw [List.reverse_cons]
      have bounds := stepsBounds tail
      exact stepsAppend steps (.cons shaped (.nil (by omega) (by omega)))

theorem trimFirstLength (edits : List Edit) : (Unified.trimFirst edits).length = edits.length := by
  cases edits with
  | nil => rfl
  | cons e rest =>
    rw [Unified.trimFirst]
    split <;> rfl

theorem trimLastLength (edits : List Edit) : (Unified.trimLast edits).length = edits.length := by
  fun_induction Unified.trimLast edits with
  | case1 => rfl
  | case2 => rfl
  | case3 => rfl
  | case4 e rest more ih => rw [List.length_cons,List.length_cons,ih]

theorem dropIdleCons {group : List Edit} {rest : List (List Edit)} (more : rest ≠ []) :
    Unified.dropIdle (group :: rest) = group :: Unified.dropIdle rest := by
  unfold Unified.dropIdle
  rw [List.getLast?_cons_of_ne_nil more,List.dropLast_cons_of_ne_nil more]
  split
  · rfl
  · split <;> rfl
  · rfl

theorem dropIdleCovers {gap i j : Nat} {groups : List (List Edit)} (covers : Covers old new gap i j groups) :
    Covers old new gap i j (Unified.dropIdle groups) := by
  induction covers with
  | done same => exact .done same
  | @group gap i j a b a' b' group rest away away' skipped filled steps later ih =>
    by_cases last : rest = []
    · subst last
      obtain ⟨same⟩ := later
      have kept : Covers old new gap i j [group] := .group away away' skipped filled steps (.done same)
      unfold Unified.dropIdle
      rw [List.getLast?_singleton]
      split
      · rename_i empty
        exact absurd (Option.some.inj empty) filled
      · rename_i e only
        split
        · rename_i equal
          cases Option.some.inj only
          cases steps with
          | @cons kind _ k _ l _ _ _ shaped tail =>
          obtain rfl : kind = .equal := isEqualKind.mp equal
          cases tail with
          | nil inside inside' =>
          have unchanged : slice old a a' = slice new b b' := shaped.2.2
          have forward := shapedForward shaped
          refine .done ?_
          rw [← sliceDrop (show i ≤ a by omega),← sliceDrop (show j ≤ b by omega),← sliceDrop forward.1,
            ← sliceDrop forward.2,skipped,unchanged,same]
        · exact kept
      · exact kept
    · rw [dropIdleCons last]
      exact .group away away' skipped filled steps ih

theorem groupsCover {edits : List Edit} (leads : Leads old new 0 0 edits) :
    Covers old new 0 0 0 (Unified.groups edits) := by
  obtain ⟨a,b,_,_,skipped,steps⟩ := trimFirstSteps (leadsSteps leads)
  obtain ⟨c,d,_,_,left,steps⟩ := trimLastSteps steps
  have bounds := stepsBounds steps
  have same : old.drop c = new.drop d := by simpa [sliceNat] using left
  by_cases empty : edits = []
  · subst empty
    obtain ⟨ends,ends'⟩ : c = a ∧ d = b := by
      cases steps
      exact ⟨rfl,rfl⟩
    subst ends ends'
    refine .done ?_
    rw [← sliceDrop (Nat.zero_le c),← sliceDrop (Nat.zero_le d),skipped,same]
  · have filled : Unified.trimLast (Unified.trimFirst edits) ≠ [] := by
      rw [← List.length_pos_iff,trimLastLength,trimFirstLength,List.length_pos_iff]
      exact empty
    exact dropIdleCovers (splitCovers (by omega) (by omega) skipped (.nil (by omega) (by omega)) steps (.inr filled) same)

end Retouch.Stretches
