import Mathlib.Data.List.Induction
import Retouch.Buffer
import Retouch.Proofs.Inquiry

/-! Reading lines with a way back. A buffer holds bytes that are left to read and those that were left at each attempt. Both
stand for places among the lines of what it was made from: whatever is read, peeked at or taken back, and whether or not a
line can be decoded, it answers as a cursor over lines does that remembers where it was. -/
namespace Retouch.Rewinding
open Buffer

def pieces : List UInt8 → List (List UInt8)
  | [] => []
  | b :: rest =>
    if b = lineFeed then [b] :: pieces rest
    else match pieces rest with
      | [] => [[b]]
      | piece :: more => (b :: piece) :: more

def feedless (piece : List UInt8) : List UInt8 := piece.filter (fun b => b != lineFeed)

def lines (bytes : List UInt8) : List (List UInt8) := (pieces bytes).map feedless

example : lines [97,10,10,98] = [[97],[],[98]] := rfl

def ahead (bytes : List UInt8) (place : Nat) : List UInt8 := ((pieces bytes).drop place).flatten

def encoded (text : String) : List UInt8 := text.toUTF8.data.toList

theorem piecesWhole (bytes : List UInt8) : (pieces bytes).flatten = bytes := by
  fun_induction pieces bytes with
  | case1 => rfl
  | case2 rest ih => simp [ih]
  | case3 b rest other none ih =>
    rw [none] at ih
    simp [← ih]
  | case4 b rest other piece more found ih =>
    rw [found] at ih
    simp [← ih]

theorem piecesBehind {bytes piece : List UInt8} {more : List (List UInt8)} (split : pieces bytes = piece :: more) :
    pieces more.flatten = more := by
  fun_induction pieces bytes generalizing piece with
  | case1 => cases split
  | case2 rest ih =>
    obtain ⟨_,rfl⟩ := List.cons.inj split
    rw [piecesWhole]
  | case3 b rest other none ih =>
    obtain ⟨_,rfl⟩ := List.cons.inj split
    rfl
  | case4 b rest other head tail found ih =>
    obtain ⟨_,rfl⟩ := List.cons.inj split
    exact ih found

theorem piecesAhead (bytes : List UInt8) (place : Nat) : pieces (ahead bytes place) = (pieces bytes).drop place := by
  induction place generalizing bytes with
  | zero => simp [ahead,piecesWhole]
  | succ place ih =>
    unfold ahead
    cases split : pieces bytes with
    | nil => rfl
    | cons piece more =>
      have later := ih more.flatten
      rw [ahead,piecesBehind split] at later
      exact later

theorem cutPieces {bytes piece : List UInt8} {more : List (List UInt8)} (split : pieces bytes = piece :: more) :
    Buffer.cut bytes = (feedless piece,more.flatten) := by
  fun_induction pieces bytes generalizing piece with
  | case1 => cases split
  | case2 rest ih =>
    obtain ⟨rfl,rfl⟩ := List.cons.inj split
    simp [Buffer.cut,feedless,piecesWhole]
  | case3 b rest other none ih =>
    obtain ⟨rfl,rfl⟩ := List.cons.inj split
    have last : rest = [] := by rw [← piecesWhole rest,none]; rfl
    simp [Buffer.cut,feedless,other,last]
  | case4 b rest other head tail found ih =>
    obtain ⟨rfl,rfl⟩ := List.cons.inj split
    simp [Buffer.cut,ih found,feedless,other]

theorem cutAhead {bytes line : List UInt8} {place : Nat} (here : (lines bytes)[place]? = some line) :
    ahead bytes place ≠ [] ∧ Buffer.cut (ahead bytes place) = (line,ahead bytes (place + 1)) := by
  rw [lines,List.getElem?_map] at here
  obtain ⟨piece,found,rfl⟩ := Option.map_eq_some_iff.mp here
  obtain ⟨inside,rfl⟩ := List.getElem?_eq_some_iff.mp found
  have split := (piecesAhead bytes place).trans (List.drop_eq_getElem_cons inside)
  refine ⟨fun none => ?_,cutPieces split⟩
  rw [none] at split
  cases split

theorem aheadEnd {bytes : List UInt8} {place : Nat} (beyond : (lines bytes).length ≤ place) : ahead bytes place = [] := by
  rw [lines,List.length_map] at beyond
  rw [ahead,List.drop_eq_nil_of_le beyond]
  rfl

theorem decodeEncoded (text : String) : decode (encoded text) = .ok text := by
  have bytes : ByteArray.mk (encoded text).toArray = text.toUTF8 := by
    unfold encoded
    rw [Array.toArray_toList]
  rw [decode,bytes,Inquiry.textDecoded]

theorem decodeGarbled {line : List UInt8} (never : ∀ text, encoded text ≠ line) : decode line = .error .undecodable := by
  unfold decode
  cases read : String.fromUTF8? (ByteArray.mk line.toArray) with
  | none => rfl
  | some text =>
    have bytes := Inquiry.decodedBytes read
    exact absurd (by rw [encoded,← bytes]) (never text)

structure Cursor where
  place : Nat
  past : List Nat

inductive Use where
  | next
  | seek (delta : Int)
  | peek (starts : List String)

inductive Answer where
  | line (read : Except Fault String)
  | moved (done : Except Fault Unit)
  | started (found : Except Fault Bool)

inductive Step (lines : List (List UInt8)) (c : Cursor) : Use → Answer → Cursor → Prop where
  | read {text : String} (here : lines[c.place]? = some (encoded text)) :
      Step lines c .next (.line (.ok text)) ⟨c.place + 1,c.place :: c.past⟩
  | garbled {line : List UInt8} (here : lines[c.place]? = some line) (never : ∀ text, encoded text ≠ line) :
      Step lines c .next (.line (.error .undecodable)) ⟨c.place + 1,c.place :: c.past⟩
  | ended (beyond : lines.length ≤ c.place) : Step lines c .next (.line (.error .ended)) ⟨c.place,c.place :: c.past⟩
  | back {popped left : List Nat} (stack : c.past = popped ++ left) :
      Step lines c (.seek (-popped.length)) (.moved (.ok ())) ⟨popped.getLastD c.place,left⟩
  | exhausted {k : Nat} (far : c.past.length < k) :
      Step lines c (.seek (-k)) (.moved (.error .noHistory)) ⟨c.past.getLastD c.place,[]⟩
  | forward {delta : Int} (on : 0 < delta) : Step lines c (.seek delta) (.moved (.error .forward)) c
  | peeked {text : String} {starts : List String} {found : Bool} (here : lines[c.place]? = some (encoded text))
      (exact : found = true ↔ ∃ start ∈ starts, start.toList <+: text.toList) :
      Step lines c (.peek starts) (.started (.ok found)) c
  | peekedGarbled {line : List UInt8} {starts : List String} (here : lines[c.place]? = some line)
      (never : ∀ text, encoded text ≠ line) : Step lines c (.peek starts) (.started (.error .undecodable)) c
  | peekedEnd {starts : List String} (beyond : lines.length ≤ c.place) :
      Step lines c (.peek starts) (.started (.ok false)) c

theorem placeCases (lines : List (List UInt8)) (place : Nat) :
    lines.length ≤ place ∨ (∃ text, lines[place]? = some (encoded text)) ∨
      ∃ line, lines[place]? = some line ∧ ∀ text, encoded text ≠ line := by
  cases here : lines[place]? with
  | none => exact .inl (List.getElem?_eq_none_iff.mp here)
  | some line =>
    by_cases readable : ∃ text, encoded text = line
    · obtain ⟨text,rfl⟩ := readable
      exact .inr (.inl ⟨text,rfl⟩)
    · exact .inr (.inr ⟨line,rfl,fun text same => readable ⟨text,same⟩⟩)

theorem stepExists (lines : List (List UInt8)) (c : Cursor) (use : Use) : ∃ answer c', Step lines c use answer c' := by
  cases use with
  | next =>
    rcases placeCases lines c.place with beyond | ⟨text,here⟩ | ⟨line,here,never⟩
    · exact ⟨_,_,.ended beyond⟩
    · exact ⟨_,_,.read here⟩
    · exact ⟨_,_,.garbled here never⟩
  | seek delta =>
    by_cases on : 0 < delta
    · exact ⟨_,_,.forward on⟩
    · obtain ⟨k,rfl⟩ : ∃ k : Nat, delta = -k := ⟨delta.natAbs,by omega⟩
      by_cases far : c.past.length < k
      · exact ⟨_,_,.exhausted far⟩
      · have taken : (c.past.take k).length = k := List.length_take_of_le (Nat.le_of_not_lt far)
        refine ⟨.moved (.ok ()),⟨(c.past.take k).getLastD c.place,c.past.drop k⟩,?_⟩
        have step : Step lines c (.seek (-(c.past.take k).length)) _ _ := .back (List.take_append_drop k c.past).symm
        rwa [taken] at step
  | peek starts =>
    rcases placeCases lines c.place with beyond | ⟨text,here⟩ | ⟨line,here,never⟩
    · exact ⟨_,_,.peekedEnd beyond⟩
    · refine ⟨.started (.ok (starts.any (fun start => start.toList.isPrefixOf text.toList))),_,.peeked here ?_⟩
      simp
    · exact ⟨_,_,.peekedGarbled here never⟩

def Cursor.onto (bytes : List UInt8) (c : Cursor) : Buffer := ⟨ahead bytes c.place,c.past.map (ahead bytes)⟩

def ago (b : Buffer) (k : Nat) : Buffer := ⟨(b.history.take k).getLastD b.rest,b.history.drop k⟩

theorem stepBackExact (k : Nat) (b : Buffer) :
    b.stepBack k = (if k ≤ b.history.length then .ok () else .error .noHistory,ago b k) := by
  induction k generalizing b with
  | zero => rfl
  | succ k ih =>
    obtain ⟨rest,history⟩ := b
    cases history with
    | nil => rfl
    | cons entry history =>
      change stepBack k ⟨entry,history⟩ = _
      simp only [ih,ago,List.length_cons,Nat.add_le_add_iff_right,List.take_succ_cons,List.getLastD_cons,List.drop_succ_cons]

theorem agoOnto (bytes : List UInt8) (c : Cursor) (k : Nat) :
    ago (c.onto bytes) k = Cursor.onto bytes ⟨(c.past.take k).getLastD c.place,c.past.drop k⟩ := by
  simp only [ago,Cursor.onto,← List.map_take,← List.map_drop,List.getLastD_map]

theorem nextFilled {b : Buffer} (filled : b.rest ≠ []) :
    b.next = (decode (Buffer.cut b.rest).1,⟨(Buffer.cut b.rest).2,b.rest :: b.history⟩) := by
  unfold next
  split
  · exact absurd ‹_› filled
  · rfl

theorem nextEnded {b : Buffer} (none : b.rest = []) : b.next = (.error .ended,⟨[],[] :: b.history⟩) := by
  unfold next
  rw [none]

/- An attempt to read always puts the place on the history, so one step back undoes it. -/
theorem nextHistory (b : Buffer) : b.next.2.history = b.rest :: b.history := by
  by_cases none : b.rest = []
  · rw [nextEnded none,none]
  · rw [nextFilled none]

theorem nextBack (b : Buffer) : (b.next.2.stepBack 1).2 = b := by
  rw [stepBackExact,ago,nextHistory]
  rfl

theorem nextHere {bytes line : List UInt8} {c : Cursor} (here : (lines bytes)[c.place]? = some line) :
    (c.onto bytes).next = (decode line,Cursor.onto bytes ⟨c.place + 1,c.place :: c.past⟩) := by
  obtain ⟨filled,parted⟩ := cutAhead here
  rw [nextFilled filled]
  simp [Cursor.onto,parted]

theorem nextBeyond {bytes : List UInt8} {c : Cursor} (beyond : (lines bytes).length ≤ c.place) :
    (c.onto bytes).next = (.error .ended,Cursor.onto bytes ⟨c.place,c.place :: c.past⟩) := by
  have none := aheadEnd beyond
  rw [nextEnded none]
  simp [Cursor.onto,none]

theorem peekExact (b : Buffer) (starts : List String) :
    b.peekStarts starts = ((b.next.1.map (fun text => starts.any (fun s => s.isPrefixOf text))).tryCatch
      (fun fault => if fault = .ended then .ok false else .error fault),b) := by
  have kept := nextBack b
  unfold peekStarts
  generalize b.next = made at kept ⊢
  obtain ⟨line,later⟩ := made
  dsimp only at kept ⊢
  rw [kept]
  cases line with
  | ok text => rfl
  | error fault => cases fault <;> rfl

theorem seekExact (b : Buffer) (k : Nat) :
    b.seek (-k) = (if k ≤ b.history.length then .ok () else .error .noHistory,ago b k) := by
  unfold seek
  rw [if_pos (by omega),Int.neg_neg,Int.toNat_natCast,stepBackExact]

def Use.on (b : Buffer) : Use → Answer × Buffer
  | .next => (.line b.next.1,b.next.2)
  | .seek delta => (.moved (b.seek delta).1,(b.seek delta).2)
  | .peek starts => (.started (b.peekStarts starts).1,(b.peekStarts starts).2)

theorem stepFollowed {bytes : List UInt8} {c c' : Cursor} {use : Use} {answer : Answer}
    (step : Step (lines bytes) c use answer c') : use.on (c.onto bytes) = (answer,c'.onto bytes) := by
  cases step with
  | read here => rw [Use.on,nextHere here,decodeEncoded]
  | garbled here never => rw [Use.on,nextHere here,decodeGarbled never]
  | ended beyond => rw [Use.on,nextBeyond beyond]
  | @back popped left stack =>
    rw [Use.on,seekExact,agoOnto]
    simp [Cursor.onto,stack]
  | @exhausted k far =>
    have fewer : ¬k ≤ (c.onto bytes).history.length := by simpa [Cursor.onto] using far
    rw [Use.on,seekExact,agoOnto,if_neg fewer,List.take_of_length_le (Nat.le_of_lt far),List.drop_eq_nil_of_le (Nat.le_of_lt far)]
  | forward on => rw [Use.on,seek,if_neg (Int.not_le_of_gt on)]
  | @peeked text starts found here exact =>
    have same : starts.any (fun s => s.isPrefixOf text) = found := by
      rw [Bool.eq_iff_iff,exact,List.any_eq_true]
      simp only [String.isPrefixOf,String.startsWith_string_iff]
    rw [Use.on,peekExact,nextHere here,decodeEncoded,← same]
    rfl
  | peekedGarbled here never =>
    rw [Use.on,peekExact,nextHere here,decodeGarbled never]
    rfl
  | peekedEnd beyond =>
    rw [Use.on,peekExact,nextBeyond beyond]
    rfl

def run (b : Buffer) : List Use → List Answer × Buffer
  | [] => ([],b)
  | use :: uses => ((use.on b).1 :: (run (use.on b).2 uses).1,(run (use.on b).2 uses).2)

inductive Trace (lines : List (List UInt8)) : Cursor → List Use → List Answer → Cursor → Prop where
  | done (c : Cursor) : Trace lines c [] [] c
  | step {c c' c'' : Cursor} {use : Use} {answer : Answer} {uses : List Use} {answers : List Answer}
      (first : Step lines c use answer c') (rest : Trace lines c' uses answers c'') :
      Trace lines c (use :: uses) (answer :: answers) c''

theorem traceExists (lines : List (List UInt8)) (c : Cursor) (uses : List Use) :
    ∃ answers c', Trace lines c uses answers c' := by
  induction uses generalizing c with
  | nil => exact ⟨_,_,.done c⟩
  | cons use uses ih =>
    obtain ⟨answer,c',first⟩ := stepExists lines c use
    obtain ⟨answers,c'',rest⟩ := ih c'
    exact ⟨_,_,.step first rest⟩

theorem traceFollowed {bytes : List UInt8} {c c' : Cursor} {uses : List Use} {answers : List Answer}
    (trace : Trace (lines bytes) c uses answers c') : run (c.onto bytes) uses = (answers,c'.onto bytes) := by
  induction trace with
  | done c => rfl
  | step first rest ih => rw [run,stepFollowed first,ih]

theorem runExact (bytes : List UInt8) (c : Cursor) (uses : List Use) (answers : List Answer) (b : Buffer) :
    run (c.onto bytes) uses = (answers,b) ↔ ∃ c', Trace (lines bytes) c uses answers c' ∧ b = c'.onto bytes := by
  constructor
  · intro made
    obtain ⟨told,c',trace⟩ := traceExists (lines bytes) c uses
    obtain ⟨rfl,rfl⟩ := Prod.mk.inj ((traceFollowed trace).symm.trans made)
    exact ⟨c',trace,rfl⟩
  · rintro ⟨c',trace,rfl⟩
    exact traceFollowed trace

def after (bytes : List UInt8) (uses : List Use) : Buffer := (run (ofBytes bytes) uses).2

theorem afterUse (bytes : List UInt8) (uses : List Use) (use : Use) :
    after bytes (uses ++ [use]) = (use.on (after bytes uses)).2 := by
  have follow (b : Buffer) : (run b (uses ++ [use])).2 = (use.on (run b uses).2).2 := by
    induction uses generalizing b with
    | nil => rfl
    | cons first uses ih => exact ih (first.on b).2
  exact follow (ofBytes bytes)

theorem agoAgo (b : Buffer) (j k : Nat) : ago (ago b j) k = ago b (j + k) := by
  unfold ago
  rw [List.drop_drop,List.take_add]
  simp only [List.getLastD_eq_getLast?,List.getLast?_append]
  cases ((b.history.drop j).take k).getLast? <;> rfl

theorem agoLength (b : Buffer) (k : Nat) : (ago b k).history.length = b.history.length - k := List.length_drop

theorem useGoesBack (b : Buffer) {use : Use} (other : use ≠ .next) : ∃ j ≤ b.history.length, (use.on b).2 = ago b j := by
  have stay : ago b 0 = b := rfl
  cases use with
  | next => exact absurd rfl other
  | seek delta =>
    by_cases on : delta ≤ 0
    · obtain ⟨k,rfl⟩ : ∃ k : Nat, delta = -k := ⟨delta.natAbs,by omega⟩
      rw [Use.on,seekExact]
      by_cases far : k ≤ b.history.length
      · exact ⟨k,far,rfl⟩
      · refine ⟨b.history.length,Nat.le_refl _,?_⟩
        have short : b.history.length ≤ k := Nat.le_of_not_le far
        simp only [ago,List.take_of_length_le short,List.drop_eq_nil_of_le short,List.take_length,List.drop_length]
    · exact ⟨0,Nat.zero_le _,by rw [Use.on,seek,if_neg on,stay]⟩
  | peek starts => exact ⟨0,Nat.zero_le _,by rw [Use.on,peekExact,stay]⟩

/- After the earlier uses came an attempt to read. The entry that it put on the history is there ever since, as the history
was never again as short as before. -/
def LastAt (bytes : List UInt8) (uses earlier later : List Use) : Prop :=
  uses = earlier ++ Use.next :: later ∧ ∀ since, since <+: later →
    (after bytes earlier).history.length < (after bytes (earlier ++ Use.next :: since)).history.length

theorem lastAtKept {bytes : List UInt8} {uses earlier later : List Use} (last : LastAt bytes uses earlier later) (use : Use)
    (longer : (after bytes earlier).history.length < (after bytes (uses ++ [use])).history.length) :
    LastAt bytes (uses ++ [use]) earlier (later ++ [use]) := by
  obtain ⟨rfl,since⟩ := last
  refine ⟨by simp,fun others start => ?_⟩
  rcases List.prefix_concat_iff.mp start with rfl | start
  · simpa using longer
  · exact since others start

/- Going back leads to the moment at which the last of the popped entries was put on the history. The induction adds uses at
the end: an attempt to read adds an entry, all else takes some away. -/
theorem agoReached (bytes : List UInt8) (uses : List Use) (k : Nat) (enough : k < (after bytes uses).history.length) :
    ∃ earlier later, LastAt bytes uses earlier later ∧ ago (after bytes uses) (k + 1) = after bytes earlier := by
  induction uses using List.reverseRecOn generalizing k with
  | nil => cases enough
  | append_singleton uses use ih =>
    -- an entry that was there before, and is there still
    have still {j : Nat} (there : j < (after bytes uses).history.length)
        (same : ago (after bytes (uses ++ [use])) (k + 1) = ago (after bytes uses) (j + 1)) :
        ∃ earlier later, LastAt bytes (uses ++ [use]) earlier later ∧
          ago (after bytes (uses ++ [use])) (k + 1) = after bytes earlier := by
      obtain ⟨earlier,later,last,reached⟩ := ih j there
      rw [← same] at reached
      refine ⟨earlier,later ++ [use],lastAtKept last use ?_,reached⟩
      rw [← reached,agoLength]
      omega
    by_cases read : use = .next
    · subst read
      have grown : (after bytes (uses ++ [.next])).history = (after bytes uses).rest :: (after bytes uses).history := by
        rw [afterUse]
        exact nextHistory _
      cases k with
      | zero =>
        refine ⟨uses,[],⟨rfl,fun since start => ?_⟩,?_⟩
        · rw [List.prefix_nil.mp start,grown]
          exact Nat.lt_succ_self _
        · rw [ago,grown]
          rfl
      | succ k =>
        rw [grown,List.length_cons] at enough
        refine still (Nat.lt_of_succ_lt_succ enough) ?_
        simp only [ago,grown,List.take_succ_cons,List.getLastD_cons,List.drop_succ_cons]
    · obtain ⟨j,inside,gone⟩ := useGoesBack (after bytes uses) read
      rw [← afterUse] at gone
      rw [gone,agoLength] at enough
      refine still (j := j + k) (by omega) ?_
      rw [gone,agoAgo]
      rfl

theorem cutShorter {bytes : List UInt8} (filled : bytes ≠ []) : (Buffer.cut bytes).2.length < bytes.length := by
  induction bytes with
  | nil => exact absurd rfl filled
  | cons b rest ih =>
    rw [Buffer.cut]
    split
    · exact Nat.lt_succ_self _
    · by_cases last : rest = []
      · simp [last,Buffer.cut]
      · exact Nat.lt_succ_of_lt (ih last)

theorem nextShorter {b : Buffer} {text : String} (read : b.next.1 = .ok text) : b.next.2.rest.length < b.rest.length := by
  by_cases none : b.rest = []
  · rw [nextEnded none] at read
    cases read
  · rw [nextFilled none]
    exact cutShorter none

theorem drainFurther {b : Buffer} {text : String} (read : b.next.1 = .ok text) (seen : List String) (n : Nat) :
    drain.go seen (n + 1) b = drain.go (text :: seen) n b.next.2 := by
  have made : b.next = (.ok text,b.next.2) := Prod.ext read rfl
  rw [drain.go,made]

theorem drainStops {b : Buffer} {fault : Fault} (read : b.next.1 = .error fault) (seen : List String) (n : Nat) :
    drain.go seen (n + 1) b = (if fault = .ended then .ok seen.reverse else .error fault,b.next.2) := by
  have made : b.next = (.error fault,b.next.2) := Prod.ext read rfl
  rw [drain.go,made]
  cases fault <;> rfl

theorem drainReads (b : Buffer) : ∃ texts fault,
    run b (List.replicate (texts.length + 1) .next) =
      (texts.map (fun text => .line (.ok text)) ++ [.line (.error fault)],b.drain.2) ∧
    b.drain.1 = if fault = .ended then .ok texts else .error fault := by
  -- each line that is read leaves fewer bytes, so the bound is never reached
  have follow (n : Nat) (seen : List String) (b : Buffer) (enough : b.rest.length < n) : ∃ texts fault,
      run b (List.replicate (texts.length + 1) .next) =
        (texts.map (fun text => .line (.ok text)) ++ [.line (.error fault)],(drain.go seen n b).2) ∧
      (drain.go seen n b).1 = if fault = .ended then .ok (seen.reverse ++ texts) else .error fault := by
    induction n generalizing seen b with
    | zero => cases enough
    | succ n ih =>
      cases read : b.next.1 with
      | ok text =>
        obtain ⟨texts,fault,ran,told⟩ := ih (text :: seen) b.next.2 (by have := nextShorter read; omega)
        rw [drainFurther read]
        refine ⟨text :: texts,fault,?_,by simpa using told⟩
        rw [List.length_cons,List.replicate_succ,run]
        simp only [Use.on,ran,read,List.map_cons,List.cons_append]
      | error fault =>
        rw [drainStops read]
        refine ⟨[],fault,?_,by simp⟩
        simp [run,Use.on,read]
  exact follow (b.rest.length + 1) [] b (Nat.lt_succ_self _)

theorem bufferFollowsCursor (bytes : List UInt8) (uses : List Use) :
    (∀ answers b, run (ofBytes bytes) uses = (answers,b) ↔
      ∃ c, Trace (lines bytes) ⟨0,[]⟩ uses answers c ∧ b = c.onto bytes) ∧
    (∀ k < (after bytes uses).history.length, ∃ earlier later, LastAt bytes uses earlier later ∧
      (after bytes uses).seek (-(k + 1 : Nat)) = (.ok (),after bytes earlier)) ∧
    ∃ texts fault,
      run (after bytes uses) (List.replicate (texts.length + 1) .next) =
        (texts.map (fun text => .line (.ok text)) ++ [.line (.error fault)],(after bytes uses).drain.2) ∧
      (after bytes uses).drain.1 = if fault = .ended then .ok texts else .error fault := by
  refine ⟨fun answers b => ?_,fun k enough => ?_,drainReads (after bytes uses)⟩
  · have fresh : ofBytes bytes = Cursor.onto bytes ⟨0,[]⟩ := by simp [ofBytes,Cursor.onto,ahead,piecesWhole]
    rw [fresh]
    exact runExact bytes ⟨0,[]⟩ uses answers b
  · obtain ⟨earlier,later,last,reached⟩ := agoReached bytes uses k enough
    refine ⟨earlier,later,last,?_⟩
    rw [seekExact,if_pos (Nat.succ_le_of_lt enough),reached]

end Retouch.Rewinding
