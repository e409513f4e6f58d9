import Retouch.Proofs.Relaying
import Retouch.Proofs.Separators

/-! Where a message of a linter belongs. Its place stands before the first colon that a blank follows: a path, a line and
perhaps a column, with colons between them. Every message of that form is understood, and no other. -/
namespace Retouch.Places
open Execution Separators Relaying
open Linting (location? place? withoutEnd parseLine)
open String (ofList)

structure Numeral (digits : List Char) : Prop where
  filled : digits ≠ []
  bounded : digits.length ≤ 4300
  decimal : ∀ c ∈ digits, c.isDigit = true

inductive Written : String → Int → Prop where
  | plain {digits} (numeral : Numeral digits) : Written (ofList digits) (Nat.ofDigitChars 10 digits 0)
  | plus {digits} (numeral : Numeral digits) : Written (ofList ('+' :: digits)) (Nat.ofDigitChars 10 digits 0)
  | minus {digits} (numeral : Numeral digits) : Written (ofList ('-' :: digits)) (-(Nat.ofDigitChars 10 digits 0))

structure Below (cwd root : Path) (name : String) (path : Path) : Prop where
  relative : path.anchor = .relative
  joined : root.join path = Path.absolute cwd (Path.ofString name)

structure Located (message name : String) (n : Int) (line : String) (columns : List String) (description : String) :
    Prop where
  first : FirstPair ':' ' ' message.toList (":".intercalate (name :: line :: columns)).toList description.toList
  pieces : ∀ piece ∈ name :: line :: columns, ':' ∉ piece.toList
  single : columns.length ≤ 1
  number : parseInteger? line = some n
  numbers : ∀ column ∈ columns, (parseInteger? column).isSome = true

theorem locationFirst {before cs x : List Char} : location? before cs = some x ↔
    ∃ inner after, x = before.reverse ++ inner ∧ FirstPair ':' ' ' cs inner after := by
  fun_induction location? before cs with
  | case1 before => simp [firstPairNil]
  | case2 before rest =>
    simp only [firstPairHere,Option.some.injEq]
    constructor
    · rintro rfl
      exact ⟨[],rest,by simp,rfl,rfl⟩
    · rintro ⟨_,_,rfl,rfl,rfl⟩
      simp
  | case3 before c rest other ih =>
    simp only [ih,firstPairLater other,List.reverse_cons,List.append_assoc]
    constructor
    · rintro ⟨inner,after,rfl,split⟩
      exact ⟨c :: inner,after,rfl,inner,rfl,split⟩
    · rintro ⟨_,after,rfl,inner,rfl,split⟩
      exact ⟨inner,after,rfl,split⟩

theorem digitsRead {digits : List Char} (decimal : ∀ c ∈ digits, c.isDigit = true) (value count : Nat) :
    digitsFrom value count digits =
      if 0 < count + digits.length ∧ count + digits.length ≤ maxDigits then some (Nat.ofDigitChars 10 digits value) else none := by
  induction digits generalizing value count with
  | nil => simp [digitsFrom]
  | cons c digits ih =>
    have digit : digitValue? c = some (c.toNat - '0'.toNat) := by simp [digitValue?,decimal c]
    have other : c ≠ '_' := by
      rintro rfl
      exact absurd (decimal '_' (by simp)) (by decide)
    rw [digitsFrom,digit]
    · dsimp only
      rw [ih (fun d member => decimal d (by simp [member])),Nat.ofDigitChars_cons,Nat.mul_comm value 10]
      simp [Nat.add_assoc,Nat.add_comm 1]
    · grind

theorem digitRange {c : Char} (digit : c.isDigit = true) : 48 ≤ c.toNat ∧ c.toNat ≤ 57 := by
  simp only [Char.isDigit,Bool.and_eq_true,decide_eq_true_eq,ge_iff_le,UInt32.le_iff_toNat_le] at digit
  exact digit

theorem writtenRange {text : String} {n : Int} (written : Written text n) :
    text.toList ≠ [] ∧ ∀ c ∈ text.toList, 43 ≤ c.toNat ∧ c.toNat ≤ 57 := by
  have narrow {digits : List Char} (numeral : Numeral digits) : ∀ c ∈ digits, 43 ≤ c.toNat ∧ c.toNat ≤ 57 := by
    intro c member
    have := digitRange (numeral.decimal c member)
    omega
  cases written with
  | plain numeral => simpa using ⟨numeral.filled,narrow numeral⟩
  | plus numeral => simpa using narrow numeral
  | minus numeral => simpa using narrow numeral

theorem blankRange {c : Char} (blank : isNumeralBlank c = true) : c.toNat ≤ 32 ∨ 133 ≤ c.toNat := by
  simp only [isNumeralBlank,isAsciiBlank,isWideBlank,Bool.or_eq_true,Bool.and_eq_true,beq_iff_eq,decide_eq_true_eq] at blank
  rcases blank with ascii | wide
  · rcases ascii with ((((rfl | rfl) | rfl) | rfl) | rfl) | rfl <;> decide
  · omega

theorem trimmedWhole {cs : List Char} (dark : ∀ c ∈ cs, isNumeralBlank c = false) :
    ((cs.dropWhile isNumeralBlank).reverse.dropWhile isNumeralBlank).reverse = cs := by
  have whole {ds : List Char} (dark : ∀ c ∈ ds, isNumeralBlank c = false) : ds.dropWhile isNumeralBlank = ds := by
    cases ds with
    | nil => rfl
    | cons c ds => rw [List.dropWhile_cons_of_neg (by simp [dark])]
  rw [whole dark,whole (fun c member => dark c (List.mem_reverse.mp member)),List.reverse_reverse]

theorem writtenRead {text : String} {n : Int} (written : Written text n) : parseInteger? text = some n := by
  have read {digits : List Char} (numeral : Numeral digits) :
      digitsFrom 0 0 digits = some (Nat.ofDigitChars 10 digits 0) := by
    rw [digitsRead numeral.decimal,if_pos]
    exact ⟨by simpa [List.length_pos_iff] using numeral.filled,by simpa [maxDigits] using numeral.bounded⟩
  have dark : ∀ c ∈ text.toList, isNumeralBlank c = false := by
    intro c member
    have narrow := (writtenRange written).2 c member
    rw [Bool.eq_false_iff]
    intro blank
    have := blankRange blank
    omega
  unfold parseInteger?
  dsimp only
  rw [trimmedWhole dark]
  cases written with
  | plain numeral =>
    rw [String.toList_ofList]
    split
    · exact absurd (numeral.decimal '-' (by simp)) (by decide)
    · exact absurd (numeral.decimal '+' (by simp)) (by decide)
    · rw [read numeral]
      rfl
  | plus numeral =>
    simp [read numeral]
  | minus numeral =>
    simp [read numeral]

theorem piecesFirst {head : List Char} {pieces : List (List Char)} (clean : ∀ piece ∈ head :: pieces, ':' ∉ piece)
    (starts : ∀ piece ∈ pieces, ∃ c rest, piece = c :: rest ∧ c ≠ ' ') (description : List Char) :
    FirstPair ':' ' ' ([':'].intercalate (head :: pieces) ++ ':' :: ' ' :: description)
      ([':'].intercalate (head :: pieces)) description := by
  induction pieces generalizing head with
  | nil =>
    rw [List.intercalate_singleton,firstPairBehind (clean head (by simp))]
    exact ⟨[],by simp,firstPairHere.mpr ⟨rfl,rfl⟩⟩
  | cons piece pieces ih =>
    obtain ⟨c,rest,rfl,dark⟩ := starts piece (by simp)
    have later := @ih (c :: rest) (fun p member => clean p (List.mem_cons_of_mem _ member))
      (fun p member => starts p (List.mem_cons_of_mem _ member))
    rw [List.intercalate_cons_cons,List.append_assoc,List.append_assoc,firstPairBehind (clean head (by simp))]
    refine ⟨_,List.append_assoc ..,(firstPairLater ?_).mpr ⟨_,rfl,later⟩⟩
    intro more _ blank
    cases pieces <;> exact dark (List.cons.inj blank).1

theorem placeLocated {message name : String} {n : Int} : place? message = some (name,n) ↔
    ∃ line columns description, Located message name n line columns description := by
  constructor
  · intro found
    unfold place? at found
    split at found
    · cases found
    rename_i location located
    obtain ⟨inner,description,rfl,first⟩ := locationFirst.mp located
    split at found
    · rename_i path line split
      obtain ⟨_,clean,whole⟩ := splitOnPieces.mp split
      obtain ⟨m,number,same⟩ := Option.map_eq_some_iff.mp found
      cases same
      rw [whole] at first
      exact ⟨line,[],ofList description,⟨by simpa using first,clean,by simp,number,by simp⟩⟩
    · rename_i path line column split
      obtain ⟨_,clean,whole⟩ := splitOnPieces.mp split
      rw [whole] at first
      split at found
      · rename_i number columnNumber
        cases found
        exact ⟨line,[column],ofList description,⟨by simpa using first,clean,by simp,number,by simp [columnNumber]⟩⟩
      · cases found
    · cases found
  · rintro ⟨line,columns,description,first,pieces,single,number,numbers⟩
    have split := splitOnPieces.mpr ⟨List.cons_ne_nil _ _,pieces,rfl⟩
    rw [place?,locationFirst.mpr ⟨_,_,rfl,first⟩]
    dsimp only
    rw [List.reverse_nil,List.nil_append,show ":" = ofList [':'] from rfl,split]
    rcases columns with _ | ⟨column,more⟩
    · simp [number]
    · obtain rfl : more = [] := List.eq_nil_of_length_eq_zero (Nat.le_zero.mp (Nat.le_of_succ_le_succ single))
      obtain ⟨m,columnNumber⟩ := Option.isSome_iff_exists.mp (numbers column (by simp))
      simp [number,columnNumber]

theorem belowIff {cwd root : Path} {name : String} {path : Path} :
    (Path.absolute cwd (Path.ofString name)).relativeTo? root = some path ↔ Below cwd root name path := by
  unfold Path.relativeTo?
  constructor
  · intro found
    split at found
    · rename_i inside
      obtain ⟨anchor,start⟩ := Bool.and_eq_true_iff.mp inside
      obtain ⟨rest,whole⟩ := List.isPrefixOf_iff_prefix.mp start
      cases found
      refine ⟨rfl,?_⟩
      rw [← whole,List.drop_left,Path.join,if_neg (by simp [Path.isAbsolute]),whole,← eq_of_beq anchor]
    · cases found
  · rintro ⟨relative,joined⟩
    obtain ⟨_,parts⟩ := path
    cases relative
    have whole : root.join ⟨.relative,parts⟩ = ⟨root.anchor,root.parts ++ parts⟩ := rfl
    rw [← joined,whole,if_pos]
    · simp
    · simp [List.isPrefixOf_iff_prefix]

theorem endRemoved (message : String) : withoutEnd (message ++ "\n") = message := by simp [withoutEnd]

theorem parsedLocated {message : String} {root path : Path} {n : Int} {tools : Tools} {s : Session} :
    (exec (parseLine (message ++ "\n") root) tools s).1 = .ok (some (path,n)) ↔
      ∃ name line columns description, Located message name n line columns description ∧ Below s.cwd root name path := by
  rw [parsedPlace,placeBelow,endRemoved]
  constructor
  · intro found
    split at found
    · cases found
    rename_i name m placed
    split at found
    · cases found
    rename_i below
    cases found
    obtain ⟨line,columns,description,located⟩ := placeLocated.mp placed
    exact ⟨name,line,columns,description,located,belowIff.mp below⟩
  · rintro ⟨name,line,columns,description,located,below⟩
    rw [placeLocated.mpr ⟨line,columns,description,located⟩]
    dsimp only
    rw [belowIff.mpr below]

/- Numbers in decimal hold neither colons nor blanks, so they are the pieces that were put there. -/
theorem writtenLocated {name line description : String} {n : Int} {columns : List String} (clean : ':' ∉ name.toList)
    (written : Written line n) (single : columns.length ≤ 1) (others : ∀ column ∈ columns, ∃ m, Written column m) :
    Located (":".intercalate (name :: line :: columns) ++ ": " ++ description) name n line columns description := by
  have all : ∀ piece ∈ line :: columns, ∃ m, Written piece m := by
    intro piece member
    rcases List.mem_cons.mp member with rfl | later
    · exact ⟨n,written⟩
    · exact others piece later
  have colonless : ∀ piece ∈ line :: columns, ':' ∉ piece.toList := by
    intro piece member colon
    obtain ⟨m,decimal⟩ := all piece member
    exact absurd ((writtenRange decimal).2 ':' colon) (by decide)
  have starts : ∀ piece ∈ line :: columns, ∃ c rest, piece.toList = c :: rest ∧ c ≠ ' ' := by
    intro piece member
    obtain ⟨m,decimal⟩ := all piece member
    obtain ⟨c,rest,filled⟩ := List.exists_cons_of_ne_nil (writtenRange decimal).1
    refine ⟨c,rest,filled,?_⟩
    rintro rfl
    exact absurd ((writtenRange decimal).2 ' ' (by simp [filled])) (by decide)
  have pieces : ∀ piece ∈ name :: line :: columns, ':' ∉ piece.toList := by simpa using ⟨clean,by simpa using colonless⟩
  refine ⟨?_,pieces,single,writtenRead written,?_⟩
  · have first := @piecesFirst name.toList ((line :: columns).map String.toList) (by simpa using pieces)
      (by simpa using starts) description.toList
    simpa [String.toList_intercalate] using first
  · intro column member
    obtain ⟨m,decimal⟩ := others column member
    rw [writtenRead decimal]
    rfl

theorem writtenDecimal {n : Int} (bounded : (toString n.natAbs).length ≤ 4300) : Written (toString n) n := by
  have numeral : Numeral (Nat.toDigits 10 n.natAbs) := by
    refine ⟨Nat.toDigits_ne_nil,?_,fun c member => Nat.isDigit_of_mem_toDigits (by decide) (by decide) member⟩
    rw [Nat.toString_eq_ofList_toDigits] at bounded
    simpa using bounded
  cases n with
  | ofNat m =>
    have written := Written.plain numeral
    rw [Nat.ofDigitChars_ten_toDigits,← Nat.toString_eq_ofList_toDigits] at written
    exact written
  | negSucc m =>
    have written := Written.minus numeral
    rw [Nat.ofDigitChars_ten_toDigits,String.ofList_cons,← Nat.toString_eq_ofList_toDigits] at written
    exact written

theorem placesReadBack (root : Path) (tools : Tools) (s : Session) :
    (∀ (name line description : String) (n : Int) (path : Path),
      ':' ∉ name.toList → Below s.cwd root name path → Written line n →
      (exec (parseLine (name ++ ":" ++ line ++ ": " ++ description ++ "\n") root) tools s).1 = .ok (some (path,n)) ∧
      ∀ (column : String) (m : Int), Written column m →
        (exec (parseLine (name ++ ":" ++ line ++ ":" ++ column ++ ": " ++ description ++ "\n") root) tools s).1 =
          .ok (some (path,n))) ∧
    (∀ n : Int, (toString n.natAbs).length ≤ 4300 → Written (toString n) n) ∧
    ∀ (message : String) (n : Int) (path : Path),
      (exec (parseLine (message ++ "\n") root) tools s).1 = .ok (some (path,n)) ↔
        ∃ name line columns description, Located message name n line columns description ∧ Below s.cwd root name path := by
  refine ⟨fun name line description n path clean below written => ⟨?_,fun column m other => ?_⟩,fun n => writtenDecimal,
    fun message n path => parsedLocated⟩
  · have located := @writtenLocated name line description n [] clean written (by simp) (by simp)
    have form : ":".intercalate [name,line] = name ++ ":" ++ line := by simp [String.intercalate_cons_cons]
    rw [form] at located
    exact parsedLocated.mpr ⟨name,line,[],description,located,below⟩
  · have located := @writtenLocated name line description n [column] clean written (by simp) (by simpa using ⟨m,other⟩)
    have form : ":".intercalate [name,line,column] = name ++ ":" ++ line ++ ":" ++ column := by
      simp [String.intercalate_cons_cons,String.append_assoc]
    rw [form] at located
    exact parsedLocated.mpr ⟨name,line,[column],description,located,below⟩

end Retouch.Places
