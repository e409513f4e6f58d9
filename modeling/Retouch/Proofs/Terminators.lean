import Retouch.Proofs.Choice

/-! Lines with what ends them. Cutting a text into such pieces loses nothing, and the lines are the ones
that splitting gives, before and after breaks are unified; joining ends every line with a line feed. So a
line that is left alone comes back as it was exactly when a line feed ended it. -/
namespace Retouch.Terminators

def piecesAfter (line : List Char) : List Char → List (String × String)
  | [] => if line.isEmpty then [] else [(String.ofList line.reverse,"")]
  | '\r' :: '\n' :: rest => (String.ofList line.reverse,"\r\n") :: piecesAfter [] rest
  | c :: rest =>
    if isLineBreak c then (String.ofList line.reverse,String.singleton c) :: piecesAfter [] rest
    else piecesAfter (c :: line) rest

def pieces (text : String) : List (String × String) := piecesAfter [] text.toList

theorem piecesLines (text : String) : (pieces text).map Prod.fst = splitLines text := by
  have follow (line cs : List Char) : (piecesAfter line cs).map Prod.fst = linesAfter line cs := by
    fun_induction piecesAfter line cs with
    | case1 line empty => simp [linesAfter,empty]
    | case2 line some => simp [linesAfter,some]
    | case3 line rest ih => simp [linesAfter,ih]
    | case4 line c rest alone broken ih => simp [linesAfter,broken,ih]
    | case5 line c rest alone inside ih => simp [linesAfter,inside,ih]
  exact follow [] text.toList

theorem piecesWhole (text : String) : String.join ((pieces text).map (fun p => p.1 ++ p.2)) = text := by
  have follow (line cs : List Char) :
      (String.join ((piecesAfter line cs).map (fun p => p.1 ++ p.2))).toList = line.reverse ++ cs := by
    fun_induction piecesAfter line cs with
    | case1 line empty => simp [List.isEmpty_iff.mp empty]
    | case2 line some => simp
    | case3 line rest ih => simp [String.join_cons,ih]
    | case4 line c rest alone broken ih => simp [String.join_cons,ih]
    | case5 line c rest alone inside ih => simp [ih]
  rw [← String.toList_inj,pieces,follow]
  rfl

/- What was read before does not matter; the induction is on the reading from an empty start. -/
theorem unifyBreaksApart (cs acc : List Char) : unifyBreaks acc cs = acc.reverse ++ unifyBreaks [] cs := by
  have any (start : List Char) : ∀ acc, unifyBreaks acc cs = acc.reverse ++ unifyBreaks [] cs := by
    induction start, cs using unifyBreaks.induct with
    | case1 => simp [unifyBreaks]
    | case2 start rest ih =>
      intro acc
      rw [unifyBreaks,unifyBreaks,ih ('\n' :: acc),ih ['\n']]
      simp
    | case3 start rest alone ih =>
      intro acc
      rw [unifyBreaks,unifyBreaks,ih ('\n' :: acc),ih ['\n']]
      · simp
      · exact alone
      · exact alone
    | case4 start c rest pair single ih =>
      intro acc
      rw [unifyBreaks,unifyBreaks,ih (c :: acc),ih [c]]
      · simp
      · exact pair
      · exact single
      · exact pair
      · exact single
  exact any [] acc

theorem unifyBreaksPlain {cs acc : List Char} (plain : '\r' ∉ cs) : unifyBreaks acc cs = acc.reverse ++ cs := by
  fun_induction unifyBreaks acc cs with
  | case1 => simp
  | case2 => simp at plain
  | case3 => simp at plain
  | case4 acc c rest _ _ ih =>
    simp only [List.mem_cons,not_or] at plain
    simpa using ih plain.2

theorem readBreaksPlain {text : String} (plain : '\r' ∉ text.toList) : readBreaks text = text := by
  rw [readBreaks,unifyBreaksPlain plain]
  simp

theorem linesAfterStep {c : Char} {rest : List Char} (pair : ∀ more, c = '\r' → rest = '\n' :: more → False)
    (line : List Char) : linesAfter line (c :: rest) =
      if isLineBreak c then String.ofList line.reverse :: linesAfter [] rest else linesAfter (c :: line) rest := by
  rw [linesAfter]
  exact pair

theorem splitReadBreaks (text : String) : splitLines (readBreaks text) = splitLines text := by
  have follow (start cs line : List Char) : linesAfter line (unifyBreaks [] cs) = linesAfter line cs := by
    induction start, cs using unifyBreaks.induct generalizing line with
    | case1 => rfl
    | case2 start rest ih =>
      rw [unifyBreaks,unifyBreaksApart]
      simp [linesAfter,isLineBreak,ih]
    | case3 start rest alone ih =>
      rw [unifyBreaks,unifyBreaksApart]
      · rw [linesAfterStep (fun more _ => alone more)]
        simp [linesAfter,isLineBreak,ih]
      · exact alone
    | case4 start c rest pair single ih =>
      rw [unifyBreaks,unifyBreaksApart]
      · rw [linesAfterStep pair]
        change linesAfter line (c :: unifyBreaks [] rest) = _
        rw [linesAfterStep (fun _ other _ => single other),ih,ih]
      · exact pair
      · exact single
  rw [splitLines,readBreaks,String.toList_ofList]
  exact follow [] text.toList []

def Unbroken (line : String) : Prop := ∀ c ∈ line.toList, isLineBreak c = false

theorem splitUnbroken (text : String) : ∀ line ∈ splitLines text, Unbroken line := by
  have follow (line cs : List Char) (plain : ∀ c ∈ line, isLineBreak c = false) :
      ∀ out ∈ linesAfter line cs, Unbroken out := by
    fun_induction linesAfter line cs with
    | case1 line empty => simp
    | case2 line some => simpa [Unbroken] using plain
    | case3 line rest ih => simpa [Unbroken] using ⟨plain,ih (by simp)⟩
    | case4 line c rest alone broken ih => simpa [Unbroken] using ⟨plain,ih (by simp)⟩
    | case5 line c rest alone inside ih => exact ih (by simpa using ⟨by simpa using inside,plain⟩)
  exact follow [] text.toList (by simp)

theorem piecesJoined {lines : List String} (unbroken : ∀ line ∈ lines, Unbroken line) :
    pieces (joinLines lines) = lines.map (fun line => (line,"\n")) := by
  have through (line cs : List Char) (rest : List Char) (plain : ∀ c ∈ cs, isLineBreak c = false) :
      piecesAfter line (cs ++ '\n' :: rest) =
        (String.ofList (line.reverse ++ cs),"\n") :: piecesAfter [] rest := by
    induction cs generalizing line with
    | nil =>
      rw [List.nil_append,piecesAfter]
      · simp [isLineBreak]
      · simp
    | cons c cs ih =>
      have inside : isLineBreak c = false := plain c (by simp)
      rw [List.cons_append,piecesAfter]
      · rw [if_neg (by simp [inside]),ih (c :: line) (fun d member => plain d (by simp [member]))]
        simp
      · rintro more rfl
        cases inside
  induction lines with
  | nil => rfl
  | cons line lines ih =>
    have text : (joinLines (line :: lines)).toList = line.toList ++ '\n' :: (joinLines lines).toList := by
      simp [joinLines,String.join_cons]
    rw [pieces,text,through [] line.toList _ (unbroken line (by simp))]
    simp only [List.map_cons]
    rw [← ih (fun other member => unbroken other (by simp [member]))]
    simp [pieces]

theorem sparedMap (edits : List Edit) (f : α → β) (xs : List α) :
    Choice.spared edits (xs.map f) = (Choice.spared edits xs).map f := by
  simp only [Choice.spared,List.zipIdx_map,List.filter_map,List.map_map]
  rfl

theorem chosenFrom {old new : List String} {edits : List Edit} {edited : List Int} {line : String}
    (member : line ∈ chooseLines edited (edits.map (Chunk.ofEdit old new))) : line ∈ old ∨ line ∈ new := by
  have inside {xs : List String} {lo hi : Int} (found : line ∈ slice xs lo hi) : line ∈ xs :=
    List.mem_of_mem_take (List.mem_of_mem_drop found)
  obtain ⟨chunk,made,found⟩ := List.mem_flatMap.mp member
  obtain ⟨e,_,rfl⟩ := List.mem_map.mp made
  unfold Chunk.chosen at found
  split at found
  · exact .inr (inside found)
  · exact .inl (inside found)

/- What is left alone comes back byte for byte exactly when line feeds alone ended it: the written lines
all end that way, whatever ended the lines that were read. -/
theorem sparedComeBack (text : String) {formatted : List String} {edits : List Edit} (edited : List Int)
    (unbroken : ∀ line ∈ formatted, Unbroken line) (leads : Script.Leads (splitLines text) formatted 0 0 edits) :
    (Choice.spared (edits.filter (Choice.Selects edited)) (pieces text)).Sublist
        (pieces (joinLines (chooseLines edited (edits.map (Chunk.ofEdit (splitLines text) formatted))))) ↔
      ∀ p ∈ Choice.spared (edits.filter (Choice.Selects edited)) (pieces text), p.2 = "\n" := by
  have whole : ∀ line ∈ chooseLines edited (edits.map (Chunk.ofEdit (splitLines text) formatted)), Unbroken line := by
    intro line member
    rcases chosenFrom member with original | new
    · exact splitUnbroken text line original
    · exact unbroken line new
  rw [piecesJoined whole]
  constructor
  · intro found p member
    obtain ⟨line,_,rfl⟩ := List.mem_map.mp (found.subset member)
    rfl
  · intro ended
    have lines := Choice.sparedSublist edited leads
    have cut : Choice.spared (edits.filter (Choice.Selects edited)) (splitLines text) =
        (Choice.spared (edits.filter (Choice.Selects edited)) (pieces text)).map Prod.fst := by
      rw [← sparedMap,piecesLines]
    rw [cut] at lines
    generalize Choice.spared (edits.filter (Choice.Selects edited)) (pieces text) = left at ended lines ⊢
    have fed : left = (left.map Prod.fst).map (fun line => (line,"\n")) := by
      calc
        left = left.map id := (List.map_id left).symm
        _ = left.map (fun p => (p.1,"\n")) := List.map_congr_left (fun p member => Prod.ext rfl (ended p member))
        _ = (left.map Prod.fst).map (fun line => (line,"\n")) := by rw [List.map_map]; rfl
    rw [fed]
    exact lines.map _

end Retouch.Terminators
