import Retouch.Proofs.Dumping
import Retouch.Proofs.Separators
import Retouch.Proofs.Terminators

/-! Settings written as text and read again. Values that are numbers, truth values, texts of simple characters or lists of
such texts are each followed by a line feed or a comma; a reader that meets one of these has read the whole value. So every
line gives its entry back, and the whole text gives the settings but for those without a value. -/
namespace Retouch.Written
open Toml
open String (ofList)

structure Simple (c : Char) : Prop where
  printed : isPrintable c = true
  unquoted : c ≠ '\'' ∧ c ≠ '"'
  unescaped : c ≠ '\\'

def SimpleText (s : String) : Prop := ∀ c ∈ s.toList, Simple c

def isOrdinary (c : Char) : Bool := c.isAlphanum || [' ','.','/','_','-','~','^',':'].contains c

theorem ordinarySimple {c : Char} (ordinary : isOrdinary c = true) : Simple c := by
  have range : 32 ≤ c.toNat ∧ c.toNat < 127 ∧ c.toNat ≠ 39 ∧ c.toNat ≠ 34 ∧ c.toNat ≠ 92 := by
    rcases Bool.or_eq_true_iff.mp ordinary with letter | sign
    · simp only [Char.isAlphanum,Char.isAlpha,Char.isUpper,Char.isLower,Char.isDigit,Bool.or_eq_true,Bool.and_eq_true,
        decide_eq_true_eq,UInt32.le_iff_toNat_le] at letter
      change ((65 ≤ c.toNat ∧ c.toNat ≤ 90) ∨ 97 ≤ c.toNat ∧ c.toNat ≤ 122) ∨ 48 ≤ c.toNat ∧ c.toNat ≤ 57 at letter
      omega
    · simp only [List.contains_iff_mem,List.mem_cons,List.not_mem_nil,or_false] at sign
      rcases sign with rfl | rfl | rfl | rfl | rfl | rfl | rfl | rfl <;> decide
  refine ⟨?_,⟨?_,?_⟩,?_⟩
  · rw [isPrintable,if_pos range.2.1]
    exact decide_eq_true range.1
  all_goals
    rintro rfl
    simp at range

theorem ordinaryText {s : String} (ordinary : s.toList.all isOrdinary = true) : SimpleText s := fun c inside =>
  ordinarySimple (List.all_eq_true.mp ordinary c inside)

theorem simpleVisible {c : Char} (simple : Simple c) : c ≠ '\n' ∧ c ≠ '\r' ∧ c ≠ '\t' := by
  refine ⟨?_,?_,?_⟩
  all_goals
    rintro rfl
    exact absurd simple.printed (by decide)

theorem simpleEscape {c : Char} (simple : Simple c) : Quoted.escape '\'' c = [c] := by
  obtain ⟨feed,back,tab⟩ := simpleVisible simple
  simp [Quoted.escape,simple.unquoted.1,simple.unescaped,feed,back,tab,simple.printed]

def quoted (s : String) : String := "\"" ++ s ++ "\""

theorem replaceAbsent {s : String} (c : Char) (more : List Char) (new : String) (absent : c ∉ s.toList) :
    replaceText s (ofList (c :: more)) new = s := by
  have whole := Separators.splitOnAbsent more absent
  rw [String.ofList_toList] at whole
  rw [replaceText,whole,String.intercalate_singleton]

theorem simpleShown {s : String} (simple : SimpleText s) : Quoted.render s = ofList ('\'' :: s.toList ++ ['\'']) := by
  have single : '\'' ∉ s.toList := fun inside => (simple _ inside).unquoted.1 rfl
  have same : s.toList.flatMap (Quoted.escape '\'') = s.toList := by
    rw [List.flatMap_congr (g := fun c => [c]) (fun c inside => simpleEscape (simple c inside))]
    simp
  have mark : Quoted.quoteFor s.toList = '\'' := by simp [Quoted.quoteFor,single]
  rw [Quoted.render,Quoted.body,mark,same]

theorem simpleQuoted {s : String} (simple : SimpleText s) : quote s = .ok (quoted s) := by
  have backslash : '\\' ∉ s.toList := fun inside => (simple _ inside).unescaped rfl
  have double : '"' ∉ s.toList := fun inside => (simple _ inside).unquoted.2 rfl
  have opened : (Quoted.render s).startsWith "'" = true := by
    rw [String.startsWith_string_iff,simpleShown simple]
    simp
  have inner : ofList ((Quoted.render s).toList.drop 1).dropLast = s := by
    rw [simpleShown simple]
    simp
  have one := Separators.splitOnAbsent ['x'] backslash
  rw [String.ofList_toList] at one
  rw [quote,quoteBody,inner,opened,if_pos rfl,show "\\'" = ofList ['\\','\''] from rfl,replaceAbsent _ _ _ backslash,
    show "\"" = ofList ['"'] from rfl,replaceAbsent _ _ _ double,show "\\x" = ofList ['\\','x'] from rfl,one]
  rfl

structure ReadsBack (v : Value) (text : String) : Prop where
  written : writeValue v = .ok text
  starts : ∃ c rest, text.toList = c :: rest ∧ isSpace c = false
  clean : '\r' ∉ text.toList
  read : ∀ fuel sep rest, text.length < fuel → sep = '\n' ∨ sep = ',' →
    readValue ⟨true⟩ fuel (text.toList ++ sep :: rest) = some (v,sep :: rest)

theorem takePlain {word : List Char} (plain : ∀ c ∈ word, isPlainChar c = true) {sep : Char} (rest : List Char)
    (stop : sep = '\n' ∨ sep = ',') : (word ++ sep :: rest).takeWhile isPlainChar = word := by
  rw [List.takeWhile_append_of_pos plain,List.takeWhile_cons_of_neg]
  · simp
  · rcases stop with rfl | rfl <;> decide

theorem wordReadsBack {v : Value} {word : List Char} (written : writeValue v = .ok (ofList word)) (filled : word ≠ [])
    (plain : ∀ c ∈ word, isPlainChar c = true) (means : plain? word = some v) : ReadsBack v (ofList word) := by
  obtain ⟨c,more,rfl⟩ := List.exists_cons_of_ne_nil filled
  have apart {d : Char} (other : isPlainChar d = false) : d ∉ c :: more := fun inside =>
    absurd (plain d inside) (by simp [other])
  have first := plain c (by simp)
  refine ⟨written,⟨c,more,by simp,?_⟩,by simpa using apart (d := '\r') (by decide),fun fuel sep rest enough stop => ?_⟩
  · simp only [isSpace,Bool.or_eq_false_iff,beq_eq_false_iff_ne]
    constructor
    all_goals
      rintro rfl
      exact absurd first (by decide)
  · obtain ⟨fuel,rfl⟩ : ∃ n, fuel = n + 1 := ⟨fuel - 1,by omega⟩
    have taken := takePlain plain rest stop
    have whole : readValue ⟨true⟩ (fuel + 1) (c :: more ++ sep :: rest) =
        (plain? ((c :: more ++ sep :: rest).takeWhile isPlainChar)).map (fun v =>
          (v,(c :: more ++ sep :: rest).drop ((c :: more ++ sep :: rest).takeWhile isPlainChar).length)) := by
      rw [List.cons_append,readValue]
      all_goals
        rintro _ same
        rw [(List.cons.inj same).1] at first
        exact absurd first (by decide)
    rw [String.toList_ofList,whole,taken,means]
    simp

theorem boolReadsBack (b : Bool) : ReadsBack (.bool b) (if b then "true" else "false") := by
  cases b
  · have written : writeValue (.bool false) = .ok (ofList ['f','a','l','s','e']) := rfl
    exact wordReadsBack written (by simp) (List.all_eq_true.mp rfl) rfl
  · have written : writeValue (.bool true) = .ok (ofList ['t','r','u','e']) := rfl
    exact wordReadsBack written (by simp) (List.all_eq_true.mp rfl) rfl

theorem digitsLead (n : Nat) (zero : (Nat.toDigits 10 n).head? = some '0') : n = 0 := by
  induction n using Nat.strongRecOn with
  | _ n ih =>
    rw [Nat.toDigits_eq_if (by decide)] at zero
    split at zero
    · rename_i small
      have digit : ∀ d < 10, Nat.digitChar d = '0' → d = 0 := by decide
      exact digit n small (by simpa using zero)
    · rename_i large
      have filled : Nat.toDigits 10 (n / 10) ≠ [] := Nat.toDigits_ne_nil
      rw [List.head?_append_of_ne_nil _ filled] at zero
      have quotient := ih (n / 10) (by omega) zero
      omega

theorem digitsFolded {f : Option Nat → Char → Option Nat}
    (step : ∀ m, ∀ d < 10, f (some m) (Nat.digitChar d) = some (m * 10 + d)) (n : Nat) :
    (Nat.toDigits 10 n).foldl f (some 0) = some n := by
  induction n using Nat.strongRecOn with
  | _ n ih =>
    rw [Nat.toDigits_eq_if (by decide)]
    split
    · rename_i small
      simpa using step 0 n small
    · rename_i large
      rw [List.foldl_append,ih (n / 10) (by omega),List.foldl_cons,List.foldl_nil,step _ _ (Nat.mod_lt n (by decide))]
      congr 1
      omega

theorem digitsGrouped (n : Nat) : grouped? 10 (Nat.toDigits 10 n) = some n := by
  have clean : '_' ∉ Nat.toDigits 10 n := Nat.underscore_not_in_toDigits
  have kept : (Nat.toDigits 10 n).filter (· != '_') = Nat.toDigits 10 n :=
    List.filter_eq_self.mpr (fun c inside => bne_iff_ne.mpr (fun same => clean (same ▸ inside)))
  have ends : (Nat.toDigits 10 n).head? ≠ some '_' ∧ (Nat.toDigits 10 n).getLast? ≠ some '_' :=
    ⟨fun first => clean (List.mem_of_head? first),fun last => clean (List.mem_of_getLast? last)⟩
  have pairs : ('_','_') ∉ (Nat.toDigits 10 n).zip (Nat.toDigits 10 n).tail := fun inside =>
    clean (List.of_mem_zip inside).1
  have value : ∀ d < 10, Json.hexValue? (Nat.digitChar d) = some d := by decide
  unfold grouped?
  rw [kept,if_pos]
  · refine digitsFolded (fun m d small => ?_) n
    simp only [value d small]
    exact if_pos small
  · simp [ends,pairs,Nat.toDigits_ne_nil]

theorem digitsDecimal {n : Nat} {c : Char} (inside : c ∈ Nat.toDigits 10 n) : c.isDigit = true :=
  Nat.isDigit_of_mem_toDigits (by decide) (by decide) inside

theorem digitsUnsigned (n : Nat) : unsigned? (Nat.toDigits 10 n) = some (.int n) := by
  have other {c : Char} (sign : c.isDigit = false) : c ∉ Nat.toDigits 10 n := fun inside =>
    absurd (digitsDecimal inside) (by simp [sign])
  unfold unsigned?
  split
  · rename_i same
    exact absurd (by simp [same]) (other (c := 'x') (by decide))
  · rename_i same
    exact absurd (by simp [same]) (other (c := 'o') (by decide))
  · rename_i same
    exact absurd (by simp [same]) (other (c := 'b') (by decide))
  · rename_i same
    exact absurd (by simp [same]) (other (c := 'i') (by decide))
  · rename_i same
    exact absurd (by simp [same]) (other (c := 'n') (by decide))
  · split
    · rename_i same
      obtain rfl : n = 0 := digitsLead n (by rw [same]; rfl)
      simp at same
    · rw [unsigned?.decimal,digitsGrouped]

theorem plainNumber {c : Char} {rest : List Char} (word : c ≠ 't' ∧ c ≠ 'f') : plain? (c :: rest) =
    if c = '-' then (unsigned? rest).map negate else if c = '+' then unsigned? rest else unsigned? (c :: rest) := by
  unfold plain?
  split
  · rename_i same
    exact absurd (List.cons.inj (by simpa using congrArg String.toList same)).1 word.1
  · rename_i same
    exact absurd (List.cons.inj (by simpa using congrArg String.toList same)).1 word.2
  · rename_i same _ _
    obtain ⟨rfl,rfl⟩ := List.cons.inj same
    rfl
  · rename_i same _ _
    obtain ⟨rfl,rfl⟩ := List.cons.inj same
    rfl
  · rename_i minus plus
    rw [if_neg (fun same => minus rest (by rw [same])),if_neg (fun same => plus rest (by rw [same]))]

theorem intReadsBack (n : Int) : ReadsBack (.int n) (toString n) := by
  have plain {m : Nat} : ∀ c ∈ Nat.toDigits 10 m, isPlainChar c = true := fun c inside => by
    simp [isPlainChar,Char.isAlphanum,digitsDecimal inside]
  cases n with
  | ofNat m =>
    have text : toString (Int.ofNat m) = ofList (Nat.toDigits 10 m) := Nat.toString_eq_ofList_toDigits
    rw [text]
    refine wordReadsBack (congrArg Except.ok text) Nat.toDigits_ne_nil plain ?_
    obtain ⟨c,rest,digits⟩ := List.exists_cons_of_ne_nil (Nat.toDigits_ne_nil (n := m) (b := 10))
    have first : c.isDigit = true := digitsDecimal (n := m) (by simp [digits])
    have other {d : Char} (sign : d.isDigit = false) : c ≠ d := by
      rintro rfl
      exact absurd first (by simp [sign])
    rw [digits,plainNumber ⟨other (by decide),other (by decide)⟩,if_neg (other (by decide)),if_neg (other (by decide)),
      ← digits,digitsUnsigned]
    rfl
  | negSucc m =>
    have text : toString (Int.negSucc m) = ofList ('-' :: Nat.toDigits 10 (m + 1)) := by
      change "-" ++ toString (m + 1) = _
      rw [Nat.toString_eq_ofList_toDigits]
      simp
    rw [text]
    refine wordReadsBack (congrArg Except.ok text) (by simp) (by simpa using ⟨by decide,plain⟩) ?_
    rw [plainNumber (by decide),if_pos rfl,digitsUnsigned]
    rfl

theorem basicRead {s : List Char} (simple : ∀ c ∈ s, Simple c) {fuel : Nat} (enough : s.length < fuel)
    (acc rest : List Char) :
    readBasic fuel acc (s ++ '"' :: rest) = some (ofList (acc.reverse ++ s),rest) := by
  induction s generalizing fuel acc with
  | nil =>
    obtain ⟨fuel,rfl⟩ : ∃ n, fuel = n + 1 := ⟨fuel - 1,by omega⟩
    simp [readBasic]
  | cons c s ih =>
    obtain ⟨fuel,rfl⟩ : ∃ n, fuel = n + 1 := ⟨fuel - 1,by omega⟩
    have own := simple c (by simp)
    have later := ih (fun d inside => simple d (by simp [inside])) (by simpa using enough) (c :: acc)
    rw [List.cons_append,readBasic]
    · simpa [(simpleVisible own).1] using later
    · exact own.unquoted.2
    · exact own.unescaped

theorem quotedRead {s : String} (simple : SimpleText s) (fuel : Nat) {sep : Char} (other : sep ≠ '"') (rest : List Char) :
    readValue ⟨true⟩ (fuel + 1) ((quoted s).toList ++ sep :: rest) = some (.text s,sep :: rest) := by
  have whole : (quoted s).toList ++ sep :: rest = '"' :: (s.toList ++ '"' :: sep :: rest) := by simp [quoted]
  have single : ∀ more, s.toList ++ '"' :: sep :: rest ≠ '"' :: '"' :: more := by
    intro more same
    cases inside : s.toList with
    | nil =>
      rw [inside] at same
      exact other (List.cons.inj (List.cons.inj same).2).1
    | cons c cs =>
      rw [inside] at same
      exact (simple c (by simp [inside])).unquoted.2 (List.cons.inj same).1
  have short : readString? ('"' :: (s.toList ++ '"' :: sep :: rest)) =
      readBasic (('"' :: (s.toList ++ '"' :: sep :: rest)).length + 1) [] (s.toList ++ '"' :: sep :: rest) := by
    rw [readString?]
    exact single
  rw [whole,readValue,short,basicRead simple (by simp; omega)]
  simp

theorem quotedClean {s : String} (simple : SimpleText s) : '\r' ∉ (quoted s).toList := by
  have inside : '\r' ∉ s.toList := fun member => (simpleVisible (simple _ member)).2.1 rfl
  simp [quoted,inside]

theorem textReadsBack {s : String} (simple : SimpleText s) : ReadsBack (.text s) (quoted s) := by
  refine ⟨simpleQuoted simple,⟨'"',s.toList ++ ['"'],by simp [quoted],rfl⟩,quotedClean simple,
    fun fuel sep rest enough stop => ?_⟩
  obtain ⟨fuel,rfl⟩ : ∃ n, fuel = n + 1 := ⟨fuel - 1,by omega⟩
  exact quotedRead simple fuel (by rcases stop with rfl | rfl <;> decide) rest

theorem skipDark {c : Char} (dark : isSpace c = false) (rest : List Char) : skipSpace (c :: rest) = c :: rest :=
  List.dropWhile_cons_of_neg (by simp [dark])

theorem skipNothing {c : Char} (dark : isSpace c = false ∧ c ≠ '#' ∧ c ≠ '\n') (fuel : Nat) (rest : List Char) :
    skipLines fuel (c :: rest) = c :: rest := by
  cases fuel with
  | zero => rfl
  | succ fuel =>
    have uncommented : skipComment (c :: rest) = c :: rest := by
      rw [skipComment]
      rintro _ same
      exact dark.2.1 (List.cons.inj same).1
    rw [skipLines,skipDark dark.1,uncommented]
    split
    · rename_i same
      exact absurd (List.cons.inj same).1 dark.2.2
    · rfl

def remaining (items : List String) (rest : List Char) : List Char :=
  items.flatMap (fun s => '\n' :: ' ' :: ' ' :: ' ' :: ' ' :: (quoted s).toList ++ [',']) ++ '\n' :: ']' :: rest

def next (rest : List Char) : List String → List Char
  | [] => ']' :: rest
  | s :: items => (quoted s).toList ++ ',' :: remaining items rest

theorem skipRemaining (items : List String) (rest : List Char) :
    skipLines (remaining items rest).length (remaining items rest) = next rest items := by
  cases items with
  | nil => exact skipNothing (c := ']') (by decide) (rest.length + 1) rest
  | cons s items =>
    have opened : remaining (s :: items) rest =
        '\n' :: ' ' :: ' ' :: ' ' :: ' ' :: '"' :: (s.toList ++ '"' :: ',' :: remaining items rest) := by
      simp [remaining,quoted]
    have started : next rest (s :: items) = '"' :: (s.toList ++ '"' :: ',' :: remaining items rest) := by
      simp [next,quoted]
    rw [opened,started]
    generalize s.toList ++ '"' :: ',' :: remaining items rest = tail
    exact skipNothing (c := '"') (by decide) (tail.length + 5) tail

theorem uniformTexts {values : List Value} (texts : ∀ v ∈ values, ∃ s, v = .text s) : uniform values = true := by
  cases values with
  | nil => rfl
  | cons v values =>
    obtain ⟨s,rfl⟩ := texts v (by simp)
    refine List.all_eq_true.mpr (fun w inside => ?_)
    obtain ⟨t,rfl⟩ := texts w (by simp [inside])
    rfl

theorem itemsRead {items : List String} (simple : ∀ s ∈ items, SimpleText s) {fuel : Nat} (enough : items.length < fuel)
    {acc : List Value} (texts : ∀ v ∈ acc, ∃ s, v = .text s) (rest : List Char) :
    readItems ⟨true⟩ (fuel + 1) acc (next rest items) = some (.list (acc.reverse ++ items.map .text),rest) := by
  induction items generalizing fuel acc with
  | nil => simp [next,readItems,uniformTexts texts]
  | cons s items ih =>
    obtain ⟨fuel,rfl⟩ : ∃ n, fuel = n + 1 := ⟨fuel - 1,by omega⟩
    have item := quotedRead (simple s (by simp)) fuel (show ',' ≠ '"' by decide) (remaining items rest)
    have more : ∀ v ∈ Value.text s :: acc, ∃ s, v = .text s := by simpa using texts
    have later := ih (fun t inside => simple t (by simp [inside])) (by simpa using enough) more
    have quote : next rest (s :: items) = '"' :: (s.toList ++ '"' :: ',' :: remaining items rest) := by
      simp [next,quoted]
    have step : readItems ⟨true⟩ (fuel + 1 + 1) acc (next rest (s :: items)) =
        readItems ⟨true⟩ (fuel + 1) (.text s :: acc) (next rest items) := by
      rw [quote,readItems]
      · rw [← quote,next,item]
        dsimp only
        rw [skipNothing (by decide)]
        exact congrArg (readItems ⟨true⟩ (fuel + 1) (.text s :: acc)) (skipRemaining items rest)
      · simp
    rw [step,later]
    simp

theorem listReadsBack {items : List String} (simple : ∀ s ∈ items, SimpleText s) :
    ReadsBack (.list (items.map .text)) (listText (items.map quoted)) := by
  have written : writeAll (items.map .text) = .ok (items.map quoted) := by
    induction items with
    | nil => rfl
    | cons s items ih =>
      have others := ih (fun t inside => simple t (by simp [inside]))
      rw [List.map_cons,writeAll,writeValue,simpleQuoted (simple s (by simp)),others]
      rfl
  have whole (rest : List Char) : (listText (items.map quoted)).toList ++ rest = '[' :: remaining items rest := by
    simp [listText,remaining,toString,List.flatMap_map]
  have long : items.length + 1 < (listText (items.map quoted)).length := by
    rw [← String.length_toList,← List.append_nil (listText _).toList,whole]
    clear simple written whole
    induction items with
    | nil => simp [remaining]
    | cons s items ih => simp_all [remaining]; omega
  refine ⟨?_,⟨'[',_,by simpa using whole [],rfl⟩,?_,fun fuel sep rest enough stop => ?_⟩
  · rw [writeValue,written]
    rfl
  · rw [← List.append_nil (listText _).toList,whole]
    have items : ∀ s ∈ items, '\r' ∉ (quoted s).toList := fun s inside => quotedClean (simple s inside)
    simpa [remaining] using items
  · obtain ⟨fuel,rfl⟩ : ∃ n, fuel = n + 1 + 1 := ⟨fuel - 2,by omega⟩
    rw [whole,readValue,skipRemaining,itemsRead simple (by omega) (List.forall_mem_nil _)]
    rfl

inductive Storable : Value → Prop where
  | none : Storable .none
  | bool (b : Bool) : Storable (.bool b)
  | int (n : Int) : Storable (.int n)
  | text {s : String} (simple : SimpleText s) : Storable (.text s)
  | list {items : List String} (simple : ∀ s ∈ items, SimpleText s) : Storable (.list (items.map .text))

def isGiven : Value → Bool
  | .none => false
  | _ => true

def given (settings : Settings) : Settings := settings.filter (fun e => isGiven e.2)

def valueText (v : Value) : String :=
  match writeValue v with
  | .ok text => text
  | .error _ => ""

theorem storableReadsBack {v : Value} (storable : Storable v) (held : isGiven v = true) : ReadsBack v (valueText v) := by
  have same {v : Value} {text : String} (back : ReadsBack v text) : ReadsBack v (valueText v) := by
    rw [valueText,back.written]
    exact back
  cases storable with
  | none => cases held
  | bool b => exact same (boolReadsBack b)
  | int n => exact same (intReadsBack n)
  | text simple => exact same (textReadsBack simple)
  | list simple => exact same (listReadsBack simple)

def lineOf (e : String × Value) : String := e.1 ++ " = " ++ valueText e.2 ++ "\n"

def linesOf (entries : Settings) : String := String.join (entries.map lineOf)

structure Bare (key : String) : Prop where
  filled : key.toList ≠ []
  plain : ∀ c ∈ key.toList, isBareKeyChar c = true

theorem bareWritten {key : String} (bare : Bare key) : writeKey key = .ok key := by
  have ended : (key.toList.getLast? == some '\n') = false := by
    rw [beq_eq_false_iff_ne]
    intro last
    exact absurd (bare.plain _ (List.mem_of_getLast? last)) (by decide)
  have plain : isPlainKey key = true := by
    rw [isPlainKey,ended]
    simpa [bare.filled,isBareKeyChar] using bare.plain
  rw [writeKey,plain]
  rfl

theorem entryAdded {e : String × Value} (bare : Bare e.1) (storable : Storable e.2) (fuel : Nat) (base : String) (p : Part) :
    Dumping.partStep fuel base p e = .ok (if isGiven e.2 then { p with text := p.text ++ lineOf e } else p) := by
  obtain ⟨key,v⟩ := e
  have back := storableReadsBack storable
  rw [Dumping.partStep,bareWritten bare]
  change Dumping.addEntry fuel base p key v = _
  cases storable with
  | none => rfl
  | bool b => rfl
  | int n => rfl
  | text simple =>
    rw [Dumping.addEntry,(back rfl).written]
    · rfl
    · simp
    · simp
    · simp
  | @list items simple =>
    have flat : hasTable (.list (items.map .text)) = false := by simp [hasTable,isTable]
    rw [Dumping.addEntry,flat,(back rfl).written]
    rfl

theorem linesWritten {settings : Settings} (stored : ∀ e ∈ settings, Bare e.1 ∧ Storable e.2) :
    write settings = .ok (linesOf (given settings)) := by
  have steps (fuel : Nat) (base : String) (p : Part) : settings.foldlM (Dumping.partStep fuel base) p =
      .ok { p with text := p.text ++ linesOf (given settings) } := by
    induction settings generalizing p with
    | nil => simp [given,linesOf]; rfl
    | cons e settings ih =>
      have own := stored e (by simp)
      have others := ih (fun e inside => stored e (by simp [inside]))
      rw [List.foldlM_cons,entryAdded own.1 own.2]
      change settings.foldlM (Dumping.partStep fuel base) _ = _
      rw [others]
      cases held : isGiven e.2 <;> simp [given,held,linesOf,String.join_cons,String.append_assoc]
  rw [write,Dumping.partSteps,steps]
  change Except.ok ("" ++ linesOf (given settings) ++ "") = _
  simp

def held (own : Settings) : Table := [("tool",.table [("darker",.table own)])]

theorem insertHeld {own : Settings} {key : String} (unheld : key ∉ own.map Prod.fst) (v : Value) :
    Toml.insert ["tool","darker",key] v (held own) = some (held (own ++ [(key,v)])) := by
  have absent : own.any (·.1 == key) = false := by
    rw [List.any_eq_false]
    intro e inside same
    exact unheld (List.mem_map.mpr ⟨e,inside,beq_iff_eq.mp same⟩)
  simp [Toml.insert,held,Toml.change,List.lookup,absent]

theorem bareVisible {c : Char} (bare : isBareKeyChar c = true) :
    isSpace c = false ∧ c ≠ '#' ∧ c ≠ '\n' ∧ c ≠ '"' ∧ c ≠ '\'' ∧ c ≠ '[' := by
  have apart {d : Char} (other : isBareKeyChar d = false) : c ≠ d := by
    rintro rfl
    exact absurd bare (by simp [other])
  refine ⟨?_,apart (by decide),apart (by decide),apart (by decide),apart (by decide),apart (by decide)⟩
  simp only [isSpace,Bool.or_eq_false_iff,beq_eq_false_iff_ne]
  exact ⟨apart (by decide),apart (by decide)⟩

theorem keyRead {key : String} (bare : Bare key) (fuel : Nat) (rest : List Char) :
    readKey? (fuel + 1) (key.toList ++ ' ' :: '=' :: rest) = some ([key],'=' :: rest) := by
  have taken : (key.toList ++ ' ' :: '=' :: rest).takeWhile isBareKeyChar = key.toList := by
    rw [List.takeWhile_append_of_pos bare.plain,List.takeWhile_cons_of_neg (by decide)]
    simp
  obtain ⟨c,more,first⟩ := List.exists_cons_of_ne_nil bare.filled
  obtain ⟨dark,_,_,double,single,_⟩ := bareVisible (bare.plain c (by simp [first]))
  have name : readName? (key.toList ++ ' ' :: '=' :: rest) = some (key,' ' :: '=' :: rest) := by
    rw [first,List.cons_append,readName?]
    · rw [← List.cons_append,← first,taken]
      simp [List.isEmpty_eq_false_iff.mpr bare.filled]
    · exact fun _ same => double (List.cons.inj same).1
    · exact fun _ same => single (List.cons.inj same).1
  have spaced : skipSpace (key.toList ++ ' ' :: '=' :: rest) = key.toList ++ ' ' :: '=' :: rest := by
    rw [first]
    exact skipDark dark _
  rw [readKey?,spaced,name]
  rfl

theorem entryRead {e : String × Value} (bare : Bare e.1) (back : ReadsBack e.2 (valueText e.2)) {own : Settings}
    (unheld : e.1 ∉ own.map Prod.fst) (headers : List (List String)) (rest : List Char) :
    entry? ⟨true⟩ ⟨held own,["tool","darker"],headers⟩ ((lineOf e).toList ++ rest) =
      some (⟨held (own ++ [e]),["tool","darker"],headers⟩,rest) := by
  have whole : (lineOf e).toList ++ rest = e.1.toList ++ ' ' :: '=' :: ' ' :: ((valueText e.2).toList ++ '\n' :: rest) := by
    simp [lineOf]
  have long : ((lineOf e).toList ++ rest).length = (e.1.length + (valueText e.2).length + rest.length + 3) + 1 := by
    simp only [lineOf,List.length_append,String.length_toList,String.length_append]
    change e.1.length + 3 + (valueText e.2).length + 1 + rest.length = _
    omega
  have spaced : skipSpace (' ' :: ((valueText e.2).toList ++ '\n' :: rest)) = (valueText e.2).toList ++ '\n' :: rest := by
    obtain ⟨c,more,first,dark⟩ := back.starts
    rw [first]
    exact skipDark dark _
  have value := back.read (e.1.length + (valueText e.2).length + rest.length + 3 + 1 + 1) '\n' rest (by omega) (.inl rfl)
  rw [ entry?,long,whole,keyRead bare]
  simp only [spaced,value,Option.bind_eq_bind,Option.bind_some,List.cons_append,List.nil_append,insertHeld unheld]
  rfl

theorem lineStarts {e : String × Value} (bare : Bare e.1) (rest : List Char) :
    ∃ c more, (lineOf e).toList ++ rest = c :: more ∧ isBareKeyChar c = true := by
  obtain ⟨c,more,first⟩ := List.exists_cons_of_ne_nil bare.filled
  exact ⟨c,more ++ ' ' :: '=' :: ' ' :: ((valueText e.2).toList ++ '\n' :: rest),by simp [lineOf,first],
    bare.plain c (by simp [first])⟩

theorem linesRead {entries own : Settings} {fuel : Nat} (enough : entries.length < fuel)
    (stored : ∀ e ∈ entries, Bare e.1 ∧ ReadsBack e.2 (valueText e.2)) (distinct : ((own ++ entries).map Prod.fst).Nodup)
    (headers : List (List String)) :
    readFrom ⟨true⟩ fuel ⟨held own,["tool","darker"],headers⟩ (linesOf entries).toList = some (held (own ++ entries)) := by
  induction entries generalizing own fuel with
  | nil =>
    obtain ⟨fuel,rfl⟩ : ∃ n, fuel = n + 1 := ⟨fuel - 1,by omega⟩
    simp [linesOf,readFrom,skipLines]
  | cons e entries ih =>
    obtain ⟨fuel,rfl⟩ : ∃ n, fuel = n + 1 := ⟨fuel - 1,by omega⟩
    obtain ⟨bare,back⟩ := stored e (by simp)
    have unheld : e.1 ∉ own.map Prod.fst := by
      rw [List.map_append,List.map_cons,List.nodup_middle] at distinct
      exact fun inside => (List.nodup_cons.mp distinct).1 (by simp [inside])
    have later := @ih (own ++ [e]) fuel (by simpa using enough) (fun e inside => stored e (by simp [inside]))
      (by simpa using distinct)
    have entry := entryRead bare back unheld headers (linesOf entries).toList
    have lines : (linesOf (e :: entries)).toList = (lineOf e).toList ++ (linesOf entries).toList := by
      simp [linesOf,String.join_cons]
    obtain ⟨c,more,first,initial⟩ := lineStarts bare (linesOf entries).toList
    obtain ⟨dark,comment,feed,_,_,bracket⟩ := bareVisible initial
    rw [first] at entry
    rw [lines,first,readFrom,skipNothing ⟨dark,comment,feed⟩]
    split
    · rename_i same
      cases same
    · rename_i same
      exact absurd (List.cons.inj same).1 bracket
    · rw [entry]
      simpa using later

theorem linesClean {entries : Settings} (stored : ∀ e ∈ entries, Bare e.1 ∧ ReadsBack e.2 (valueText e.2)) :
    '\r' ∉ (linesOf entries).toList := by
  have each : ∀ key v, (key,v) ∈ entries → '\r' ∉ key.toList ∧ '\r' ∉ (valueText v).toList := by
    intro key v inside
    obtain ⟨bare,back⟩ := stored (key,v) inside
    exact ⟨fun member => absurd (bare.plain _ member) (by decide),back.clean⟩
  simpa [linesOf,lineOf] using each

theorem linesLong (entries : Settings) : entries.length ≤ (linesOf entries).length := by
  induction entries with
  | nil => simp
  | cons e entries ih =>
    have lines : (linesOf (e :: entries)).length = (lineOf e).length + (linesOf entries).length := by
      simp [linesOf,String.join_cons]
    have own : (lineOf e).length = e.1.length + 3 + (valueText e.2).length + 1 := by
      simp only [lineOf,String.length_append]
      rfl
    rw [List.length_cons]
    omega

theorem fileRead {entries : Settings} (stored : ∀ e ∈ entries, Bare e.1 ∧ ReadsBack e.2 (valueText e.2))
    (distinct : (entries.map Prod.fst).Nodup) :
    readBreaks ("[tool.darker]\n" ++ linesOf entries) = "[tool.darker]\n" ++ linesOf entries ∧
      parse? ⟨true⟩ ("[tool.darker]\n" ++ linesOf entries) = some (held entries) := by
  have breaks : readBreaks ("[tool.darker]\n" ++ linesOf entries) = "[tool.darker]\n" ++ linesOf entries :=
    Terminators.readBreaksPlain (by simp [linesClean stored])
  have text : ("[tool.darker]\n" ++ linesOf entries).toList =
      '[' :: ("tool.darker]\n".toList ++ (linesOf entries).toList) := by
    simp
  have lines := @linesRead entries [] (("[tool.darker]\n" ++ linesOf entries).length + 1) (by
    have long := linesLong entries
    rw [String.length_append]
    omega) stored distinct [["tool","darker"]]
  refine ⟨breaks,?_⟩
  rw [parse?,breaks,String.length_toList,readFrom,text,skipNothing (by decide)]
  exact lines

end Retouch.Written
