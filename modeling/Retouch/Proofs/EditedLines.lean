import Retouch.Proofs.Script

/-! Edited lines by intervals. A line counts as edited when it lies within the context of some changed
step; the running start, which keeps ranges from being repeated, loses no line. -/
namespace Retouch.EditedLines
open Script (Leads)

theorem memIntsFrom {lo hi n : Int} : n ∈ intsFrom lo hi ↔ lo ≤ n ∧ n < hi := by
  simp only [intsFrom,List.mem_map,List.mem_range]
  constructor
  · rintro ⟨k,small,rfl⟩
    omega
  · rintro ⟨ge,lt⟩
    exact ⟨(n - lo).toNat,by omega,by omega⟩

theorem intsFromAscend (lo hi : Int) : (intsFrom lo hi).Pairwise (· < ·) := by
  refine List.Pairwise.map _ (fun k l lt => ?_) List.pairwise_lt_range
  omega

theorem ascendingSame {xs ys : List Int} (ascend : xs.Pairwise (· < ·)) (ascend' : ys.Pairwise (· < ·))
    (same : ∀ n, n ∈ xs ↔ n ∈ ys) : xs = ys := by
  have distinct {zs : List Int} (ascend : zs.Pairwise (· < ·)) : zs.Nodup := ascend.imp (fun lt => by omega)
  refine List.Perm.eq_of_pairwise (fun a b _ _ ab ba => by omega) ascend ascend' ?_
  exact (List.perm_ext_iff_of_nodup (distinct ascend) (distinct ascend')).mpr same

def Spans (oldLength newLength : Nat) : Int → Int → List Edit → Prop
  | i,j,[] => i = oldLength ∧ j = newLength
  | i,j,e :: rest => e.oldStart = i ∧ e.newStart = j ∧ i ≤ e.oldStop ∧ j ≤ e.newStop ∧
    Spans oldLength newLength e.oldStop e.newStop rest

instance decideSpans (oldLength newLength : Nat) (i j : Int) (edits : List Edit) :
    Decidable (Spans oldLength newLength i j edits) :=
  match edits with
  | [] => inferInstanceAs (Decidable (i = oldLength ∧ j = newLength))
  | e :: rest =>
    have := decideSpans oldLength newLength e.oldStop e.newStop rest
    inferInstanceAs (Decidable (e.oldStart = i ∧ e.newStart = j ∧ i ≤ e.oldStop ∧ j ≤ e.newStop ∧
      Spans oldLength newLength e.oldStop e.newStop rest))

theorem leadsSpans {old new i j edits} (h : Leads old new i j edits) : Spans old.length new.length i j edits := by
  induction h with
  | done => exact ⟨rfl,rfl⟩
  | step shaped tail ih =>
    have forward := Script.shapedForward shaped
    exact ⟨rfl,rfl,by simpa using forward.1,by simpa using forward.2,ih⟩

theorem diffSpans (old new : List String) : Spans old.length new.length 0 0 (diffLines old new) :=
  leadsSpans (Script.diffLeads old new)

section
variable {oldLength newLength : Nat} {edits : List Edit}

theorem spansEnd {i j : Int} (h : Spans oldLength newLength i j edits) : i ≤ oldLength ∧ j ≤ newLength := by
  induction edits generalizing i j with
  | nil =>
    obtain ⟨rfl,rfl⟩ := h
    exact ⟨Int.le_refl _,Int.le_refl _⟩
  | cons e rest ih =>
    obtain ⟨_,_,up,up',tail⟩ := h
    have bounds := ih tail
    omega

theorem spansInside {i j : Int} (h : Spans oldLength newLength i j edits) {e : Edit} (member : e ∈ edits) :
    j ≤ e.newStart ∧ e.newStart ≤ e.newStop ∧ e.newStop ≤ newLength := by
  induction edits generalizing i j with
  | nil => simp at member
  | cons f rest ih =>
    obtain ⟨_,start,_,up,tail⟩ := h
    rcases List.mem_cons.mp member with rfl | later
    · have bound := (spansEnd tail).2
      omega
    · have inside := ih tail later
      omega

theorem spansLast {i j : Int} (h : Spans oldLength newLength i j edits) {e : Edit}
    (last : edits.getLast? = some e) : e.oldStop = oldLength ∧ e.newStop = newLength := by
  induction edits generalizing i j with
  | nil => simp at last
  | cons f rest ih =>
    obtain ⟨_,_,_,_,tail⟩ := h
    cases rest with
    | nil =>
      cases Option.some.inj last
      exact tail
    | cons g rest =>
      rw [List.getLast?_cons_cons] at last
      exact ih tail last

def Reaches (context : Int) (e : Edit) (n : Int) : Prop :=
  e.isEqual = false ∧ e.newStart + 1 - context ≤ n ∧ n ≤ e.newStop + context
instance (context e n) : Decidable (Reaches context e n) := by
  unfold Reaches; infer_instance

/- `first` is where the range before stopped, so it lies within the context of line `j`: a line below
it that a later step reaches was reached by an earlier one too. -/
theorem memEditedFrom {i j : Int} (h : Spans oldLength newLength i j edits) {context first : Int}
    (start : first ≤ j + 1 + context) (inside : first ≤ newLength + 1) (n : Int) :
    n ∈ editedFrom context newLength first edits ↔
      first ≤ n ∧ n ≤ newLength ∧ ∃ e ∈ edits, Reaches context e n := by
  induction edits generalizing i j first with
  | nil => simp [editedFrom]
  | cons e rest ih =>
    obtain ⟨_,begins,_,forward,tail⟩ := h
    rw [editedFrom]
    cases equal : e.isEqual with
    | true =>
      rw [if_pos rfl,ih tail (by omega) inside]
      simp [Reaches,equal]
    | false =>
      rw [if_neg (by simp)]
      simp only [List.mem_append,memIntsFrom]
      rw [ih tail (by omega) (by omega)]
      constructor
      · rintro (⟨ge,lt⟩ | ⟨ge,le,f,member,reaches⟩)
        · exact ⟨by omega,by omega,e,by simp,equal,by omega,by omega⟩
        · exact ⟨by omega,le,f,by simp [member],reaches⟩
      · rintro ⟨ge,le,f,member,reaches⟩
        rcases List.mem_cons.mp member with rfl | later
        · have near := reaches.2
          exact .inl ⟨by omega,by omega⟩
        · by_cases below : n < min (e.newStop + 1 + context) (newLength + 1)
          · have bound := (spansInside tail later).1
            have near := reaches.2
            exact .inl ⟨by omega,below⟩
          · exact .inr ⟨by omega,le,f,later,reaches⟩

/- Every range ends where the next one may begin, so nothing is repeated where they meet. -/
theorem editedFromAscend {i j : Int} (h : Spans oldLength newLength i j edits) {context first : Int}
    (start : first ≤ j + 1 + context) (inside : first ≤ newLength + 1) :
    (editedFrom context newLength first edits).Pairwise (· < ·) := by
  induction edits generalizing i j first with
  | nil => simp [editedFrom]
  | cons e rest ih =>
    obtain ⟨_,begins,_,forward,tail⟩ := h
    rw [editedFrom]
    cases e.isEqual with
    | true =>
      rw [if_pos rfl]
      exact ih tail (by omega) inside
    | false =>
      rw [if_neg (by simp)]
      refine List.pairwise_append.mpr ⟨intsFromAscend _ _,ih tail (by omega) (by omega),fun n member m later => ?_⟩
      have below := (memIntsFrom.mp member).2
      have beyond := ((memEditedFrom tail (by omega) (by omega) m).mp later).1
      omega

theorem editedLinesFrom (h : Spans oldLength newLength 0 0 edits) (context : Int) :
    editedLines edits context = editedFrom context newLength 1 edits := by
  unfold editedLines
  cases last : edits.getLast? with
  | none => simp [List.getLast?_eq_none_iff.mp last,editedFrom]
  | some e => simp only [(spansLast h last).2]

theorem memEditedLines (h : Spans oldLength newLength 0 0 edits) {context : Int} (natural : 0 ≤ context) (n : Int) :
    n ∈ editedLines edits context ↔ 1 ≤ n ∧ n ≤ newLength ∧ ∃ e ∈ edits, Reaches context e n := by
  rw [editedLinesFrom h]
  exact memEditedFrom h (by omega) (by omega) n

theorem editedLinesAscend (h : Spans oldLength newLength 0 0 edits) {context : Int} (natural : 0 ≤ context) :
    (editedLines edits context).Pairwise (· < ·) := by
  rw [editedLinesFrom h]
  exact editedFromAscend h (by omega) (by omega)

theorem editedLinesGrow (h : Spans oldLength newLength 0 0 edits) {context wider : Int} (natural : 0 ≤ context)
    (le : context ≤ wider) {n : Int} (member : n ∈ editedLines edits context) : n ∈ editedLines edits wider := by
  obtain ⟨ge,inside,e,found,changed,lo,hi⟩ := (memEditedLines h natural n).mp member
  exact (memEditedLines h (by omega) n).mpr ⟨ge,inside,e,found,changed,by omega,by omega⟩

/- A step that only deletes has no line of its own: it marks the last lines before it and the first ones behind it, as far
as there are any. -/
structure Marks (newLength : Nat) (edits : List Edit) (context : Nat) (lines : List Int) : Prop where
  ascending : lines.Pairwise (· < ·)
  reached : ∀ n, n ∈ lines ↔ 1 ≤ n ∧ n ≤ newLength ∧ ∃ e ∈ edits, Reaches context e n
  deletion : ∀ e ∈ edits, e.isEqual = false → e.newStart = e.newStop →
    lines.filter (Reaches context e) = intsFrom (max 1 (e.newStart + 1 - context)) (e.newStart + 1) ++
      intsFrom (e.newStart + 1) (min (newLength : Int) (e.newStart + context) + 1)
  bare : context = 0 → ∀ e ∈ edits, e.newStart = e.newStop → lines.filter (Reaches context e) = []

theorem editedLinesMark (h : Spans oldLength newLength 0 0 edits) (context : Nat) :
    Marks newLength edits context (editedLines edits context) where
  ascending := editedLinesAscend h (Int.natCast_nonneg context)
  reached := memEditedLines h (Int.natCast_nonneg context)
  deletion e member changed narrow := by
    have inside := spansInside h member
    refine ascendingSame ((editedLinesAscend h (Int.natCast_nonneg context)).filter _) ?_ (fun n => ?_)
    · refine List.pairwise_append.mpr ⟨intsFromAscend _ _,intsFromAscend _ _,fun n left m right => ?_⟩
      have before := (memIntsFrom.mp left).2
      have behind := (memIntsFrom.mp right).1
      omega
    · simp only [List.mem_filter,List.mem_append,memIntsFrom,decide_eq_true_eq,
        memEditedLines h (Int.natCast_nonneg context)]
      constructor
      · rintro ⟨⟨ge,le,_⟩,_,lo,hi⟩
        omega
      · intro near
        have reaches : Reaches context e n := ⟨changed,by omega,by omega⟩
        exact ⟨⟨by omega,by omega,e,member,reaches⟩,reaches⟩
  bare none e member narrow := by
    refine List.filter_eq_nil_iff.mpr (fun n _ reaches => ?_)
    obtain ⟨_,lo,hi⟩ := of_decide_eq_true reaches
    omega

theorem editedLinesExact (spans : Spans oldLength newLength 0 0 edits) (turns : Edit.alternating edits = true)
    (context : Nat) : ∃ lines, editedLines? edits context = some lines ∧ Marks newLength edits context lines :=
  ⟨_,if_pos turns,editedLinesMark spans context⟩

end

def scatteredEdits : List Edit :=
  [⟨.replace,0,4,0,1⟩,⟨.equal,4,6,1,3⟩,⟨.insert,6,6,3,5⟩,⟨.equal,6,7,5,6⟩,⟨.delete,7,9,6,6⟩,⟨.equal,9,12,6,9⟩]

theorem scatteredExact : Spans 12 9 0 0 scatteredEdits ∧ Edit.alternating scatteredEdits = true ∧
    editedLines? scatteredEdits 1 = some [1,2,3,4,5,6,7] ∧
    ∃ lines, editedLines? scatteredEdits 1 = some lines ∧ Marks 9 scatteredEdits 1 lines :=
  ⟨by decide,by decide,by decide,@editedLinesExact 12 9 scatteredEdits (by decide) (by decide) 1⟩

end Retouch.EditedLines
