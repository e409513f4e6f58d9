import Retouch.Data.Json
import Retouch.Text.LineBreak

/-! Reading TOML: tables, dotted and quoted keys, strings, numbers, truth values, arrays over several
lines and inline tables. A key may be given once, and a table header may not be repeated. -/
namespace Retouch.Toml

abbrev Table := List (String × Value)

structure Dialect where
  uniformArrays : Bool

def isSpace (c : Char) : Bool := c == ' ' || c == '\t'

def isBareKeyChar (c : Char) : Bool := c.isAlphanum || c == '_' || c == '-'

def skipSpace (cs : List Char) : List Char := cs.dropWhile isSpace

def skipComment : List Char → List Char
  | '#' :: rest => rest.dropWhile (· != '\n')
  | cs => cs

def skipLines : Nat → List Char → List Char
  | 0, cs => cs
  | fuel + 1, cs =>
    match skipComment (skipSpace cs) with
    | '\n' :: rest => skipLines fuel rest
    | rest => rest

def endOfLine? (cs : List Char) : Option (List Char) :=
  match skipComment (skipSpace cs) with
  | [] => some []
  | '\n' :: rest => some rest
  | _ => none

def readHex : Nat → Nat → List Char → Option (Nat × List Char)
  | 0, n, cs => some (n, cs)
  | width + 1, n, c :: rest =>
    match Json.hexValue? c with
    | some d => readHex width (n * 16 + d) rest
    | none => none
  | _ + 1, _, [] => none

def escape? : List Char → Option (Char × List Char)
  | '"' :: rest => some ('"', rest)
  | '\\' :: rest => some ('\\', rest)
  | 'b' :: rest => some ('\x08', rest)
  | 'f' :: rest => some ('\x0c', rest)
  | 'n' :: rest => some ('\n', rest)
  | 'r' :: rest => some ('\r', rest)
  | 't' :: rest => some ('\t', rest)
  | 'u' :: rest => (readHex 4 0 rest).map (fun (n, after) => (Char.ofNat n, after))
  | 'U' :: rest => (readHex 8 0 rest).map (fun (n, after) => (Char.ofNat n, after))
  | _ => none

def readBasic : Nat → List Char → List Char → Option (String × List Char)
  | 0, _, _ => none
  | fuel + 1, acc, cs =>
    match cs with
    | '"' :: rest => some (String.ofList acc.reverse, rest)
    | '\\' :: rest =>
      match escape? rest with
      | some (c, after) => readBasic fuel (c :: acc) after
      | none => none
    | c :: rest => if c == '\n' then none else readBasic fuel (c :: acc) rest
    | [] => none

def readLiteral : List Char → List Char → Option (String × List Char)
  | acc, '\'' :: rest => some (String.ofList acc.reverse, rest)
  | acc, c :: rest => if c == '\n' then none else readLiteral (c :: acc) rest
  | _, [] => none

def readLong (basic : Bool) : Nat → List Char → List Char → Option (String × List Char)
  | 0, _, _ => none
  | fuel + 1, acc, cs =>
    match basic, cs with
    | true, '"' :: '"' :: '"' :: rest => some (String.ofList acc.reverse, rest)
    | false, '\'' :: '\'' :: '\'' :: rest => some (String.ofList acc.reverse, rest)
    | true, '\\' :: rest =>
      match escape? rest with
      | some (c, after) => readLong basic fuel (c :: acc) after
      | none =>
        match skipSpace rest with
        | '\n' :: after => readLong basic fuel acc (after.dropWhile (fun c => isSpace c || c == '\n'))
        | _ => none
    | _, c :: rest => readLong basic fuel (c :: acc) rest
    | _, [] => none

def dropFirstBreak : List Char → List Char
  | '\n' :: rest => rest
  | cs => cs

def readString? (cs : List Char) : Option (String × List Char) :=
  match cs with
  | '"' :: '"' :: '"' :: rest => readLong true (cs.length + 1) [] (dropFirstBreak rest)
  | '\'' :: '\'' :: '\'' :: rest => readLong false (cs.length + 1) [] (dropFirstBreak rest)
  | '"' :: rest => readBasic (cs.length + 1) [] rest
  | '\'' :: rest => readLiteral [] rest
  | _ => none

def grouped? (base : Nat) (cs : List Char) : Option Nat :=
  let ok : Bool := cs.head? != some '_' && cs.getLast? != some '_' && !cs.isEmpty &&
    !(cs.zip cs.tail).contains ('_', '_')
  if ok then
    (cs.filter (· != '_')).foldl (fun acc c =>
      match acc, Json.hexValue? c with
      | some n, some d => if d < base then some (n * base + d) else none
      | _, _ => none) (some 0)
  else none

def unsigned? : List Char → Option Value
  | '0' :: 'x' :: rest => (grouped? 16 rest).map (fun n => .int n)
  | '0' :: 'o' :: rest => (grouped? 8 rest).map (fun n => .int n)
  | '0' :: 'b' :: rest => (grouped? 2 rest).map (fun n => .int n)
  | ['i', 'n', 'f'] => some (.float (1.0 / 0.0))
  | ['n', 'a', 'n'] => some (.float (0.0 / 0.0))
  | cs =>
    match cs with
    | '0' :: c :: _ => if c == '.' || c == 'e' || c == 'E' then decimal cs else none
    | _ => decimal cs
where
  decimal (cs : List Char) : Option Value :=
    match grouped? 10 cs with
    | some n => some (.int n)
    | none =>
      match Json.number? (cs.filter (· != '_')) with
      | some (.float x, []) => some (.float x)
      | _ => none

def negate : Value → Value
  | .int n => .int (-n)
  | .float x => .float (-x)
  | v => v

def plain? (word : List Char) : Option Value :=
  match String.ofList word, word with
  | "true", _ => some (.bool true)
  | "false", _ => some (.bool false)
  | _, '-' :: rest => (unsigned? rest).map negate
  | _, '+' :: rest => unsigned? rest
  | _, rest => unsigned? rest

def isPlainChar (c : Char) : Bool := c.isAlphanum || c == '_' || c == '-' || c == '+' || c == '.'

def readName? (cs : List Char) : Option (String × List Char) :=
  match cs with
  | '"' :: rest => readBasic (cs.length + 1) [] rest
  | '\'' :: rest => readLiteral [] rest
  | _ =>
    let name := cs.takeWhile isBareKeyChar
    if name.isEmpty then none else some (String.ofList name, cs.drop name.length)

def readKey? : Nat → List Char → Option (List String × List Char)
  | 0, _ => none
  | fuel + 1, cs =>
    match readName? (skipSpace cs) with
    | none => none
    | some (name, after) =>
      match skipSpace after with
      | '.' :: rest => (readKey? fuel rest).map (fun (names, left) => (name :: names, left))
      | rest => some ([name], rest)

def change (t : Table) (key : String) (v : Value) : Table :=
  t.map (fun e => if e.1 == key then (key, v) else e)

def insert : List String → Value → Table → Option Table
  | [], _, _ => none
  | [key], v, t => if t.any (·.1 == key) then none else some (t ++ [(key, v)])
  | key :: rest, v, t =>
    match t.lookup key with
    | none => (insert rest v []).map (fun inner => t ++ [(key, .table inner)])
    | some (.table inner) => (insert rest v inner).map (fun inner => change t key (.table inner))
    | some (.list items) =>
      match items.getLast? with
      | some (.table inner) =>
        (insert rest v inner).map (fun inner => change t key (.list (items.dropLast ++ [.table inner])))
      | _ => none
    | some _ => none

def enter : List String → Table → Option Table
  | [], t => some t
  | key :: rest, t =>
    match t.lookup key with
    | none => (enter rest []).map (fun inner => t ++ [(key, .table inner)])
    | some (.table inner) => (enter rest inner).map (fun inner => change t key (.table inner))
    | some (.list items) =>
      match items.getLast? with
      | some (.table inner) =>
        (enter rest inner).map (fun inner => change t key (.list (items.dropLast ++ [.table inner])))
      | _ => none
    | some _ => none

def append : List String → Table → Option Table
  | [], _ => none
  | [key], t =>
    match t.lookup key with
    | none => some (t ++ [(key, .list [.table []])])
    | some (.list items) => some (change t key (.list (items ++ [.table []])))
    | some _ => none
  | key :: rest, t =>
    match t.lookup key with
    | none => (append rest []).map (fun inner => t ++ [(key, .table inner)])
    | some (.table inner) => (append rest inner).map (fun inner => change t key (.table inner))
    | some _ => none

def kind : Value → Nat
  | .none => 0
  | .bool _ => 1
  | .int _ => 2
  | .float _ => 3
  | .text _ => 4
  | .list _ => 5
  | .table _ => 6

def uniform : List Value → Bool
  | v :: rest => rest.all (fun w => kind w == kind v)
  | [] => true

mutual

def readValue (d : Dialect) : Nat → List Char → Option (Value × List Char)
  | 0, _ => none
  | fuel + 1, cs =>
    match cs with
    | '[' :: rest => readItems d fuel [] (skipLines rest.length rest)
    | '\x7b' :: rest =>
      match skipSpace rest with
      | '\x7d' :: after => some (.table [], after)
      | inner => readInline d fuel [] inner
    | '"' :: _ => (readString? cs).map (fun (s, after) => (.text s, after))
    | '\'' :: _ => (readString? cs).map (fun (s, after) => (.text s, after))
    | _ =>
      let word := cs.takeWhile isPlainChar
      (plain? word).map (fun v => (v, cs.drop word.length))

def readItems (d : Dialect) : Nat → List Value → List Char → Option (Value × List Char)
  | 0, _, _ => none
  | fuel + 1, acc, cs =>
    match cs with
    | ']' :: rest =>
      if d.uniformArrays && !uniform acc then none else some (.list acc.reverse, rest)
    | _ =>
      match readValue d fuel cs with
      | none => none
      | some (v, after) =>
        match skipLines after.length after with
        | ',' :: rest => readItems d fuel (v :: acc) (skipLines rest.length rest)
        | ']' :: rest => readItems d fuel (v :: acc) (']' :: rest)
        | _ => none

def readInline (d : Dialect) : Nat → Table → List Char → Option (Value × List Char)
  | 0, _, _ => none
  | fuel + 1, t, cs =>
    match readKey? cs.length cs with
    | some (path, '=' :: rest) =>
      match readValue d fuel (skipSpace rest) with
      | none => none
      | some (v, after) =>
        match insert path v t, skipSpace after with
        | some t, ',' :: rest => readInline d fuel t (skipSpace rest)
        | some t, '\x7d' :: rest => some (.table t, rest)
        | _, _ => none
    | _ => none

end

structure State where
  root : Table
  current : List String
  headers : List (List String)

def header? (s : State) (cs : List Char) : Option (State × List Char) :=
  match cs with
  | '[' :: rest =>
    match readKey? rest.length rest with
    | some (path, ']' :: ']' :: after) => do
      let root ← append path s.root
      let left ← endOfLine? after
      some (⟨root, path, s.headers.filter (fun h => !(path.isPrefixOf h))⟩, left)
    | _ => none
  | _ =>
    match readKey? cs.length cs with
    | some (path, ']' :: after) => do
      if s.headers.contains path then none
      let root ← enter path s.root
      let left ← endOfLine? after
      some (⟨root, path, path :: s.headers⟩, left)
    | _ => none

def entry? (d : Dialect) (s : State) (cs : List Char) : Option (State × List Char) :=
  match readKey? cs.length cs with
  | some (path, '=' :: rest) => do
    let (v, after) ← readValue d (cs.length + 1) (skipSpace rest)
    let root ← insert (s.current ++ path) v s.root
    let left ← endOfLine? after
    some (⟨root, s.current, s.headers⟩, left)
  | _ => none

def readFrom (d : Dialect) : Nat → State → List Char → Option Table
  | 0, _, _ => none
  | fuel + 1, s, cs =>
    match skipLines cs.length cs with
    | [] => some s.root
    | '[' :: rest =>
      match header? s rest with
      | some (s, left) => readFrom d fuel s left
      | none => none
    | start =>
      match entry? d s start with
      | some (s, left) => readFrom d fuel s left
      | none => none

def parse? (d : Dialect) (text : String) : Option Table :=
  let cs := (readBreaks text).toList
  readFrom d (cs.length + 2) ⟨[], [], []⟩ cs

end Retouch.Toml
