import Retouch.Diff.Edit
import Retouch.Proofs.Matching

/-! Edit scripts. The steps of a diff tile both lists: each begins where the one before it ends, the
last one ends with the lists, and unchanged and changed steps take turns. The chunks of such a script
put together either list again. -/
namespace Retouch.Script

def Shaped (old new : List String) (e : Edit) : Prop :=
  match e.kind with
  | .equal => e.oldStart < e.oldStop ∧ e.newStart < e.newStop ∧
      slice old e.oldStart e.oldStop = slice new e.newStart e.newStop
  | .replace => e.oldStart < e.oldStop ∧ e.newStart < e.newStop
  | .delete => e.oldStart < e.oldStop ∧ e.newStart = e.newStop
  | .insert => e.oldStart = e.oldStop ∧ e.newStart < e.newStop
  | .other _ => False

/- Steps that lead from line `i` of `old` and line `j` of `new` to the ends of both lists. Positions are
natural here, so a script that satisfies this never counts from the end of a list. -/
inductive Leads (old new : List String) : Nat → Nat → List Edit → Prop where
  | done : Leads old new old.length new.length []
  | step {kind i i' j j' rest} (shaped : Shaped old new ⟨kind,(i : Nat),(i' : Nat),(j : Nat),(j' : Nat)⟩)
      (tail : Leads old new i' j' rest) : Leads old new i j (⟨kind,i,i',j,j'⟩ :: rest)

theorem shapedForward {old new kind} {i i' j j' : Nat} (h : Shaped old new ⟨kind,i,i',j,j'⟩) :
    i ≤ i' ∧ j ≤ j' := by
  cases kind <;> simp only [Shaped] at h <;> omega

theorem leadsBounds {old new i j edits} (h : Leads old new i j edits) :
    i ≤ old.length ∧ j ≤ new.length := by
  induction h with
  | done => exact ⟨Nat.le_refl _,Nat.le_refl _⟩
  | step shaped tail ih =>
    have forward := shapedForward shaped
    omega

theorem sliceNat (xs : List α) (a b : Nat) : slice xs a b = (xs.take b).drop a := by
  have natural (n : Nat) : ¬(n : Int) < 0 := by omega
  simp only [slice,if_neg (natural _),Int.toNat_natCast]

theorem sliceLength {xs : List α} {a b : Nat} (le : b ≤ xs.length) : (slice xs a b).length = b - a := by
  simp [sliceNat,le]

theorem sliceDrop {xs : List α} {a b : Nat} (le : a ≤ b) : slice xs a b ++ xs.drop b = xs.drop a := by
  rw [sliceNat,List.drop_take]
  have e : xs.drop b = (xs.drop a).drop (b - a) := by rw [List.drop_drop]; congr 1; omega
  rw [e,List.take_append_drop]

theorem runSlices {m : Matcher} {b : Block} (same : ∀ k < b.size, m.old[b.old + k]? = m.new[b.new + k]?) :
    slice m.old.toList b.old (b.old + b.size : Nat) = slice m.new.toList b.new (b.new + b.size : Nat) := by
  simp only [sliceNat,List.drop_take,Nat.add_sub_cancel_left]
  apply List.ext_getElem?
  intro k
  simp only [List.getElem?_take,List.getElem?_drop,Array.getElem?_toList]
  split
  · exact same k ‹_›
  · rfl

theorem gapCases (i i' j j' : Nat) :
    (Block.gap i i' j j' = [] ∧ i' ≤ i ∧ j' ≤ j) ∨
      ∃ kind, kind ≠ .equal ∧ Block.gap i i' j j' = [⟨kind,i,i',j,j'⟩] := by
  unfold Block.gap
  split
  · exact .inr ⟨.replace,by simp,rfl⟩
  · split
    · exact .inr ⟨.delete,by simp,rfl⟩
    · split
      · exact .inr ⟨.insert,by simp,rfl⟩
      · exact .inl ⟨rfl,by omega,by omega⟩

theorem gapLeads {old new rest} {i i' j j' : Nat} (up : i ≤ i') (up' : j ≤ j')
    (tail : Leads old new i' j' rest) : Leads old new i j (Block.gap i i' j j' ++ rest) := by
  unfold Block.gap
  split
  · exact .step (by simp only [Shaped]; omega) tail
  · split
    · exact .step (by simp only [Shaped]; omega) tail
    · split
      · exact .step (by simp only [Shaped]; omega) tail
      · have ei : i = i' := by omega
        have ej : j = j' := by omega
        subst i j
        exact tail

theorem editsFromLeads {m : Matcher} {i j : Nat} {runs : List Block}
    (follow : Matching.Follow m i j runs m.old.size m.new.size) :
    Leads m.old.toList m.new.toList i j (Block.editsFrom m.old.size m.new.size i j runs) := by
  induction runs generalizing i j with
  | nil =>
    obtain ⟨old,new⟩ := follow
    have last : Leads m.old.toList m.new.toList m.old.size m.new.size [] := by
      simpa using @Leads.done m.old.toList m.new.toList
    simpa [Block.editsFrom] using gapLeads old new last
  | cons b rest ih =>
    obtain _ | ⟨old,new,filled,same,tail⟩ := follow
    apply gapLeads old new
    refine .step ⟨?_,?_,runSlices same⟩ (ih tail)
    · simp only; omega
    · simp only; omega

theorem alternatingPair (e f : Edit) (rest : List Edit) :
    Edit.alternating (e :: f :: rest) = true ↔
      e.isEqual ≠ f.isEqual ∧ Edit.alternating (f :: rest) = true := by
  simp [Edit.alternating]

theorem changedStep {kind i i' j j'} (h : kind ≠ .equal) : Edit.isEqual ⟨kind,i,i',j,j'⟩ = false := by
  simpa [Edit.isEqual] using h

theorem unchangedStep {i i' j j'} : Edit.isEqual ⟨.equal,i,i',j,j'⟩ = true := rfl

theorem alternatingBehind {m : Matcher} {oldLength newLength i j : Nat} {b : Block} {rest : List Block}
    (follow : Matching.Follow m i j (b :: rest) oldLength newLength) (apart : Matching.Apart (b :: rest)) :
    Edit.alternating (⟨.equal,b.old,(b.old + b.size : Nat),b.new,(b.new + b.size : Nat)⟩ ::
      Block.editsFrom oldLength newLength (b.old + b.size) (b.new + b.size) rest) = true := by
  induction rest generalizing i j b with
  | nil =>
    rw [Block.editsFrom]
    rcases gapCases (b.old + b.size) oldLength (b.new + b.size) newLength with ⟨none,_⟩ | ⟨kind,changed,one⟩
    · rw [none]; rfl
    · rw [one,alternatingPair,changedStep changed,unchangedStep]
      exact ⟨by decide,rfl⟩
  | cons c rest ih =>
    obtain _ | ⟨_,_,_,_,tail⟩ := follow
    have below := tail
    obtain _ | ⟨old,new,_,_,_⟩ := below
    rw [Block.editsFrom]
    rcases gapCases (b.old + b.size) c.old (b.new + b.size) c.new with ⟨_,ge,ge'⟩ | ⟨kind,changed,one⟩
    · exact absurd ⟨by omega,by omega⟩ apart.1
    · rw [one,List.singleton_append,alternatingPair,alternatingPair,changedStep changed,
        unchangedStep,unchangedStep]
      exact ⟨by decide,by decide,ih tail apart.2⟩

theorem editsFromAlternating {m : Matcher} {oldLength newLength i j : Nat} {runs : List Block}
    (follow : Matching.Follow m i j runs oldLength newLength) (apart : Matching.Apart runs) :
    Edit.alternating (Block.editsFrom oldLength newLength i j runs) = true := by
  cases runs with
  | nil =>
    rw [Block.editsFrom]
    rcases gapCases i oldLength j newLength with ⟨none,_⟩ | ⟨kind,_,one⟩
    · rw [none]; rfl
    · rw [one]; rfl
  | cons b rest =>
    have behind := alternatingBehind follow apart
    rw [Block.editsFrom]
    rcases gapCases i b.old j b.new with ⟨none,_⟩ | ⟨kind,changed,one⟩
    · rw [none]; exact behind
    · rw [one,List.singleton_append,alternatingPair,changedStep changed,unchangedStep]
      exact ⟨by decide,behind⟩

theorem matcherLeads {m : Matcher} (indexed : Matching.Indexed m) :
    Leads m.old.toList m.new.toList 0 0 m.edits ∧ Edit.alternating m.edits = true := by
  have found := Matching.blocksFollow indexed ⟨0,m.old.size,0,m.new.size⟩ (Nat.zero_le _) (Nat.zero_le _)
  obtain ⟨follow,apart⟩ := Matching.joinTouchingFollow found
  exact ⟨editsFromLeads follow,editsFromAlternating follow apart⟩

theorem diffLeads (old new : List String) : Leads old new 0 0 (diffLines old new) := by
  simpa [diffLines,Matcher.ofLines] using (matcherLeads (Matching.ofLinesIndexed old new)).1

theorem diffAlternating (old new : List String) : Edit.alternating (diffLines old new) = true :=
  (matcherLeads (Matching.ofLinesIndexed old new)).2

theorem chunksBefore {old new i j edits} (h : Leads old new i j edits) :
    (edits.map (Chunk.ofEdit old new)).flatMap Chunk.before = old.drop i := by
  induction h with
  | done => simp
  | step shaped tail ih =>
    rw [List.map_cons,List.flatMap_cons,ih]
    exact sliceDrop (shapedForward shaped).1

theorem chunksAfter {old new i j edits} (h : Leads old new i j edits) :
    (edits.map (Chunk.ofEdit old new)).flatMap Chunk.after = new.drop j := by
  induction h with
  | done => simp
  | step shaped tail ih =>
    rw [List.map_cons,List.flatMap_cons,ih]
    exact sliceDrop (shapedForward shaped).2

theorem chunkStart {old new i j edits} (h : Leads old new i j edits) {n : Nat} {c : Chunk}
    (found : (edits.map (Chunk.ofEdit old new))[n]? = some c) :
    c.start = i + 1 + (((edits.map (Chunk.ofEdit old new)).take n).flatMap Chunk.before).length := by
  induction h generalizing n with
  | done => simp at found
  | @step kind i i' j j' rest shaped tail ih =>
    cases n with
    | zero =>
      rw [List.map_cons,List.getElem?_cons_zero] at found
      cases Option.some.inj found
      simp [Chunk.ofEdit]
    | succ n =>
      rw [List.map_cons,List.getElem?_cons_succ] at found
      have later := ih found
      have length := sliceLength (a := i) (leadsBounds tail).1
      have forward := (shapedForward shaped).1
      rw [later,List.map_cons,List.take_succ_cons,List.flatMap_cons,List.length_append,Chunk.ofEdit,length]
      omega

end Retouch.Script
