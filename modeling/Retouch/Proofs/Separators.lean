import Mathlib

/-! Texts that are parted at separators. A separator of two characters parts a text once, at its first place; a single
character parts it wherever it stands. -/
namespace Retouch.Separators
open String (ofList utf8Len)

structure FirstPair (a b : Char) (cs before after : List Char) : Prop where
  whole : cs = before ++ a :: b :: after
  first : ¬ [a,b] <:+: before ++ [a]

theorem firstPairNil {a b : Char} {before after : List Char} : ¬ FirstPair a b [] before after :=
  fun split => by simpa using split.whole

theorem firstPairHere {a b : Char} {rest before after : List Char} :
    FirstPair a b (a :: b :: rest) before after ↔ before = [] ∧ after = rest := by
  constructor
  · rintro ⟨whole,first⟩
    cases before with
    | nil =>
      cases whole
      exact ⟨rfl,rfl⟩
    | cons c inner =>
      obtain ⟨rfl,behind⟩ := List.cons.inj whole
      refine (first ?_).elim
      cases inner with
      | nil =>
        rw [(List.cons.inj behind).1]
        exact List.infix_rfl
      | cons d inner =>
        rw [(List.cons.inj behind).1]
        exact (List.prefix_append [a,d] (inner ++ [a])).isInfix
  · rintro ⟨rfl,rfl⟩
    exact ⟨rfl,fun inside => by simpa using inside.length_le⟩

theorem firstPairLater {a b c : Char} {rest before after : List Char}
    (other : ∀ more, c = a → rest = b :: more → False) :
    FirstPair a b (c :: rest) before after ↔ ∃ inner, before = c :: inner ∧ FirstPair a b rest inner after := by
  constructor
  · rintro ⟨whole,first⟩
    cases before with
    | nil =>
      cases whole
      exact (other after rfl rfl).elim
    | cons d inner =>
      cases whole
      exact ⟨inner,rfl,rfl,fun inside => first (inside.trans (List.suffix_cons _ _).isInfix)⟩
  · rintro ⟨inner,rfl,rfl,first⟩
    refine ⟨rfl,fun inside => ?_⟩
    rw [List.cons_append,List.infix_cons_iff,List.cons_prefix_cons] at inside
    rcases inside with ⟨rfl,starts⟩ | later
    · cases inner <;> exact other _ rfl (by rw [(List.cons_prefix_cons.mp starts).1]; rfl)
    · exact first later

theorem pairLater {a b c : Char} {rest : List Char} (other : ∀ more, c = a → rest = b :: more → False) :
    [a,b] <:+: c :: rest ↔ [a,b] <:+: rest := by
  rw [List.infix_cons_iff,List.cons_prefix_cons]
  refine ⟨fun inside => inside.resolve_left ?_,.inr⟩
  rintro ⟨rfl,more,rfl⟩
  exact other more rfl rfl

theorem firstPairBehind {a b : Char} {clean rest before after : List Char} (absent : a ∉ clean) :
    FirstPair a b (clean ++ rest) before after ↔
      ∃ inner, before = clean ++ inner ∧ FirstPair a b rest inner after := by
  induction clean generalizing before with
  | nil => simp
  | cons c clean ih =>
    obtain ⟨apart,absent⟩ := not_or.mp (List.mem_cons.not.mp absent)
    rw [List.cons_append,firstPairLater (fun _ same _ => apart same.symm)]
    simp only [ih absent]
    constructor
    · rintro ⟨_,rfl,inner,rfl,split⟩
      exact ⟨inner,rfl,split⟩
    · rintro ⟨inner,rfl,split⟩
      exact ⟨_,rfl,inner,rfl,split⟩

/- The pieces between a single character, `m` being read of the piece in hand. -/
theorem splitOnFrom (c : Char) (l m r : List Char) (pieces : List String) :
    (ofList (l ++ m ++ r)).splitOnAux (ofList [c]) ⟨utf8Len l⟩ ⟨utf8Len l + utf8Len m⟩ 0 pieces =
      pieces.reverse ++ (List.splitOnPPrepend (· == c) r m.reverse).map ofList := by
  have head : String.Pos.Raw.get (ofList [c]) 0 = c := by simpa using String.get_of_valid [] [c]
  have tail : String.Pos.Raw.next (ofList [c]) 0 = ⟨c.utf8Size⟩ := by simpa using String.next_of_valid [] c []
  have ended : String.Pos.Raw.atEnd (ofList [c]) ⟨c.utf8Size⟩ = true := by
    rw [String.atEnd_iff,String.rawEndPos_ofList]
    simp
  induction r generalizing l m pieces with
  | nil =>
    have last : String.Pos.Raw.atEnd (ofList (l ++ m ++ [])) ⟨utf8Len l + utf8Len m⟩ = true := by
      rw [String.atEnd_iff,String.rawEndPos_ofList]
      simp
    rw [String.splitOnAux.eq_def,if_pos last,String.extract_of_valid]
    simp
  | cons d r ih =>
    have here := String.get_of_valid (l ++ m) (d :: r)
    have next := String.next_of_valid (l ++ m) d r
    have within : String.Pos.Raw.atEnd (ofList (l ++ m ++ d :: r)) ⟨utf8Len l + utf8Len m⟩ = false := by
      have wide := Char.utf8Size_pos d
      rw [Bool.eq_false_iff,ne_eq,String.atEnd_iff,String.rawEndPos_ofList,String.Pos.Raw.mk_le_mk]
      simp only [String.utf8Len_append,String.utf8Len_cons]
      omega
    simp only [String.utf8Len_append,List.headD_cons] at here next
    rw [String.splitOnAux.eq_def,within,here,head,tail,next]
    simp only [Bool.false_eq_true,if_false,ended,if_true]
    by_cases same : d = c
    · subst same
      have back : (⟨utf8Len l + utf8Len m + d.utf8Size⟩ : String.Pos.Raw).unoffsetBy ⟨d.utf8Size⟩ =
          ⟨utf8Len l + utf8Len m⟩ := by simp [String.Pos.Raw.unoffsetBy]
      have later := ih (l ++ m ++ [d]) [] (ofList m :: pieces)
      rw [back,String.extract_of_valid,List.splitOnPPrepend_cons_eq_if]
      simpa [-String.ofList_append,Nat.add_assoc] using later
    · have stay : (⟨utf8Len l + utf8Len m⟩ : String.Pos.Raw).unoffsetBy 0 = ⟨utf8Len l + utf8Len m⟩ := rfl
      have later := ih l (m ++ [d]) pieces
      rw [stay,next,List.splitOnPPrepend_cons_eq_if]
      simpa [-String.ofList_append,same,Nat.add_assoc] using later

theorem splitOnAbsent {c : Char} (more : List Char) {cs : List Char} (absent : c ∉ cs) :
    (ofList cs).splitOn (ofList (c :: more)) = [ofList cs] := by
  have head : String.Pos.Raw.get (ofList (c :: more)) 0 = c := by simpa using String.get_of_valid [] (c :: more)
  have follow (l r : List Char) (clean : c ∉ r) :
      (ofList (l ++ r)).splitOnAux (ofList (c :: more)) 0 ⟨utf8Len l⟩ 0 [] = [ofList (l ++ r)] := by
    induction r generalizing l with
    | nil =>
      have last : String.Pos.Raw.atEnd (ofList (l ++ [])) ⟨utf8Len l⟩ = true := by
        rw [String.atEnd_iff,String.rawEndPos_ofList]
        simp
      have whole := String.extract_of_valid [] l []
      rw [String.splitOnAux.eq_def,if_pos last]
      simpa using whole
    | cons d r ih =>
      have here := String.get_of_valid l (d :: r)
      have next := String.next_of_valid l d r
      have within : String.Pos.Raw.atEnd (ofList (l ++ d :: r)) ⟨utf8Len l⟩ = false := by
        have wide := Char.utf8Size_pos d
        rw [Bool.eq_false_iff,ne_eq,String.atEnd_iff,String.rawEndPos_ofList,String.Pos.Raw.mk_le_mk]
        simp only [String.utf8Len_append,String.utf8Len_cons]
        omega
      have other : (d == c) = false := by simpa using fun same => clean (by simp [same])
      have stay : (⟨utf8Len l⟩ : String.Pos.Raw).unoffsetBy 0 = ⟨utf8Len l⟩ := rfl
      have later := ih (l ++ [d]) (fun inside => clean (by simp [inside]))
      simp only [List.headD_cons] at here
      rw [String.splitOnAux.eq_def,within,here,head,other,stay,next]
      simpa [-String.ofList_append] using later
  have filled : (ofList (c :: more) == "") = false := by simp
  rw [String.splitOn,filled]
  exact follow [] cs absent

theorem splitOnClean (c : Char) (cs : List Char) : ∀ piece ∈ cs.splitOn c, c ∉ piece := by
  induction cs with
  | nil => simp
  | cons d cs ih =>
    rw [List.splitOn_cons_eq_if_modifyHead]
    cases pieces : cs.splitOn c with
    | nil => exact absurd pieces (List.splitOn_ne_nil c cs)
    | cons first others =>
      rw [pieces] at ih
      by_cases same : d = c
      · simpa [same] using ih
      · simpa [same,Ne.symm same] using ih

theorem splitOnChar (c : Char) (cs : List Char) : (ofList cs).splitOn (ofList [c]) = (cs.splitOn c).map ofList := by
  have filled : (ofList [c] == "") = false := by simp
  rw [String.splitOn,filled,List.splitOn,List.splitOnP_eq_splitOnPPrepend]
  exact splitOnFrom c [] [] cs []

theorem splitOnPieces {c : Char} {cs : List Char} {pieces : List String} : (ofList cs).splitOn (ofList [c]) = pieces ↔
    pieces ≠ [] ∧ (∀ piece ∈ pieces, c ∉ piece.toList) ∧ cs = ((ofList [c]).intercalate pieces).toList := by
  rw [splitOnChar,String.toList_intercalate,String.toList_ofList]
  constructor
  · rintro rfl
    refine ⟨by simp,?_,?_⟩
    · intro piece member
      obtain ⟨inner,split,rfl⟩ := List.mem_map.mp member
      simpa using splitOnClean c cs inner split
    · simp [List.map_map,Function.comp_def,List.intercalate_splitOn]
  · rintro ⟨filled,clean,rfl⟩
    rw [List.splitOn_intercalate c (by simpa using clean) (by simpa using filled)]
    simp [List.map_map,Function.comp_def]

end Retouch.Separators
