import Retouch.Data.Value
import Retouch.Decimal.Rounding

/-! JSON texts. Reading keeps whole numbers and numbers with a fraction or an exponent apart, lets the
last of two equal keys win in the place of the first, and says where a text goes wrong. Writing puts
a blank after commas and colons and escapes all that is not ASCII. -/
namespace Retouch.Json

inductive Fault where
  | value
  | key
  | colon
  | comma
  | extra
  | unterminated
  | control
  | escape
  | unicode
  deriving Repr, DecidableEq

def Fault.text : Fault → String
  | .value => "Expecting value"
  | .key => "Expecting property name enclosed in double quotes"
  | .colon => "Expecting ':' delimiter"
  | .comma => "Expecting ',' delimiter"
  | .extra => "Extra data"
  | .unterminated => "Unterminated string starting at"
  | .control => "Invalid control character at"
  | .escape => "Invalid \\escape"
  | .unicode => "Invalid \\uXXXX escape"

structure Stop where
  fault : Fault
  left : Nat
  deriving Repr

abbrev Reading (α : Type) := Except Stop (α × List Char)

def isSpace (c : Char) : Bool := c == ' ' || c == '\t' || c == '\n' || c == '\r'

def skip (cs : List Char) : List Char := cs.dropWhile isSpace

def hexValue? (c : Char) : Option Nat :=
  if c.isDigit then some (c.toNat - 48)
  else if 'a' ≤ c && c ≤ 'f' then some (c.toNat - 87)
  else if 'A' ≤ c && c ≤ 'F' then some (c.toNat - 55)
  else none

def unit? : List Char → Option (Nat × List Char)
  | a :: b :: c :: d :: rest => do
    let a ← hexValue? a
    let b ← hexValue? b
    let c ← hexValue? c
    let d ← hexValue? d
    some (((a * 16 + b) * 16 + c) * 16 + d, rest)
  | _ => none

def escaped? : Char → Option Char
  | '"' => some '"'
  | '\\' => some '\\'
  | '/' => some '/'
  | 'b' => some '\x08'
  | 'f' => some '\x0c'
  | 'n' => some '\n'
  | 'r' => some '\r'
  | 't' => some '\t'
  | _ => none

def readString (start : Nat) : Nat → List Char → List Char → Reading String
  | 0, _, _ => .error ⟨.unterminated, start⟩
  | fuel + 1, acc, cs =>
    match cs with
    | [] => .error ⟨.unterminated, start⟩
    | '"' :: rest => .ok (String.ofList acc.reverse, rest)
    | ['\\'] => .error ⟨.unterminated, start⟩
    | '\\' :: 'u' :: rest =>
      match unit? rest with
      | none => .error ⟨.unicode, rest.length⟩
      | some (n, after) =>
        match (if 0xd800 ≤ n && n < 0xdc00 then after else []) with
        | '\\' :: 'u' :: low =>
          match unit? low with
          | some (m, beyond) =>
            if 0xdc00 ≤ m && m < 0xe000 then
              readString start fuel (Char.ofNat (0x10000 + (n - 0xd800) * 0x400 + (m - 0xdc00)) :: acc) beyond
            else readString start fuel ('\uFFFD' :: acc) after
          | none => readString start fuel ('\uFFFD' :: acc) after
        | _ =>
          let c := if 0xd800 ≤ n && n < 0xe000 then '\uFFFD' else Char.ofNat n
          readString start fuel (c :: acc) after
    | '\\' :: c :: rest =>
      match escaped? c with
      | some d => readString start fuel (d :: acc) rest
      | none => .error ⟨.escape, rest.length + 2⟩
    | c :: rest =>
      if c.toNat < 0x20 then .error ⟨.control, cs.length⟩ else readString start fuel (c :: acc) rest

def digitsValue (cs : List Char) : Nat := cs.foldl (fun n c => n * 10 + (c.toNat - 48)) 0

def number? (cs : List Char) : Option (Value × List Char) :=
  let (negative, body) := match cs with
    | '-' :: rest => (true, rest)
    | rest => (false, rest)
  let whole := match body with
    | '0' :: _ => ['0']
    | _ => body.takeWhile Char.isDigit
  if whole.isEmpty then none
  else
    let afterWhole := body.drop whole.length
    let fraction := match afterWhole with
      | '.' :: rest => rest.takeWhile Char.isDigit
      | _ => []
    let afterFraction := if fraction.isEmpty then afterWhole else afterWhole.drop (fraction.length + 1)
    let (mark, signed) := match afterFraction with
      | c :: rest => if c == 'e' || c == 'E' then (1, rest) else (0, [])
      | [] => (0, [])
    let (sign, down, magnitude) := match signed with
      | '-' :: rest => (1, true, rest.takeWhile Char.isDigit)
      | '+' :: rest => (1, false, rest.takeWhile Char.isDigit)
      | rest => (0, false, rest.takeWhile Char.isDigit)
    let exponent : Int := if down then -(digitsValue magnitude : Int) else digitsValue magnitude
    let after := if magnitude.isEmpty then afterFraction else afterFraction.drop (mark + sign + magnitude.length)
    if fraction.isEmpty && magnitude.isEmpty then
      let n : Int := digitsValue whole
      some (.int (if negative then -n else n), after)
    else
      let x := Decimal.nearest (digitsValue (whole ++ fraction)) (exponent - fraction.length)
      some (.float (if negative then -x else x), after)

def word? (cs : List Char) : Option (Value × List Char) :=
  let named : List (List Char × Value) :=
    [("null".toList, .none), ("true".toList, .bool true), ("false".toList, .bool false),
      ("NaN".toList, .float (0.0 / 0.0)), ("Infinity".toList, .float (1.0 / 0.0)),
      ("-Infinity".toList, .float (-1.0 / 0.0))]
  named.findSome? (fun (w, v) => if w.isPrefixOf cs then some (v, cs.drop w.length) else none)

mutual

def readValue : Nat → List Char → Reading Value
  | 0, cs => .error ⟨.value, cs.length⟩
  | fuel + 1, cs =>
    match cs with
    | '"' :: rest =>
      match readString cs.length cs.length [] rest with
      | .ok (s, after) => .ok (.text s, after)
      | .error stop => .error stop
    | '\x7b' :: rest =>
      match skip rest with
      | '\x7d' :: after => .ok (.table [], after)
      | inner => readEntries fuel [] inner
    | '[' :: rest =>
      match skip rest with
      | ']' :: after => .ok (.list [], after)
      | inner => readItems fuel [] inner
    | _ =>
      match word? cs with
      | some found => .ok found
      | none =>
        match number? cs with
        | some found => .ok found
        | none => .error ⟨.value, cs.length⟩

def readItems : Nat → List Value → List Char → Reading Value
  | 0, _, cs => .error ⟨.value, cs.length⟩
  | fuel + 1, acc, cs =>
    match readValue fuel cs with
    | .error stop => .error stop
    | .ok (v, after) =>
      match skip after with
      | ']' :: rest => .ok (.list (v :: acc).reverse, rest)
      | ',' :: rest => readItems fuel (v :: acc) (skip rest)
      | rest => .error ⟨.comma, rest.length⟩

def readEntries : Nat → List (String × Value) → List Char → Reading Value
  | 0, _, cs => .error ⟨.value, cs.length⟩
  | fuel + 1, acc, cs =>
    match cs with
    | '"' :: quoted =>
      match readString cs.length cs.length [] quoted with
      | .error stop => .error stop
      | .ok (key, after) =>
        match skip after with
        | ':' :: rest =>
          match readValue fuel (skip rest) with
          | .error stop => .error stop
          | .ok (v, after) =>
            let acc := if acc.any (·.1 == key) then acc.map (fun e => if e.1 == key then (key, v) else e)
              else (key, v) :: acc
            match skip after with
            | '\x7d' :: rest => .ok (.table acc.reverse, rest)
            | ',' :: rest => readEntries fuel acc (skip rest)
            | rest => .error ⟨.comma, rest.length⟩
        | rest => .error ⟨.colon, rest.length⟩
    | _ => .error ⟨.key, cs.length⟩

end

def Stop.message (s : Stop) (cs : List Char) : String :=
  let before := cs.take (cs.length - s.left)
  let line := before.count '\n' + 1
  let column := (before.reverse.takeWhile (· != '\n')).length + 1
  s!"{s.fault.text}: line {line} column {column} (char {before.length})"

def parse (text : String) : Except String Value :=
  let cs := text.toList
  match readValue (cs.length + 1) (skip cs) with
  | .error stop => .error (stop.message cs)
  | .ok (v, rest) =>
    match skip rest with
    | [] => .ok v
    | left => .error (Stop.message ⟨.extra, left.length⟩ cs)

def escapeChar (c : Char) : List Char :=
  if c == '"' then ['\\', '"']
  else if c == '\\' then ['\\', '\\']
  else if c == '\n' then ['\\', 'n']
  else if c == '\r' then ['\\', 'r']
  else if c == '\t' then ['\\', 't']
  else if c == '\x08' then ['\\', 'b']
  else if c == '\x0c' then ['\\', 'f']
  else if 0x20 ≤ c.toNat && c.toNat < 0x7f then [c]
  else if c.toNat < 0x10000 then '\\' :: 'u' :: Quoted.hex 4 c.toNat
  else
    let n := c.toNat - 0x10000
    '\\' :: 'u' :: Quoted.hex 4 (0xd800 + n / 0x400) ++ '\\' :: 'u' :: Quoted.hex 4 (0xdc00 + n % 0x400)

def quote (s : String) : String :=
  "\"" ++ s.foldl (fun acc c => (escapeChar c).foldl String.push acc) "" ++ "\""

mutual

def write : Value → String
  | .none => "null"
  | .bool b => if b then "true" else "false"
  | .int n => toString n
  | .float x => Decimal.renderWith "Infinity" "NaN" x
  | .text s => quote s
  | .list items => "[" ++ ", ".intercalate (writeAll items) ++ "]"
  | .table entries => "\x7b" ++ ", ".intercalate (writeEntries entries) ++ "\x7d"

def writeAll : List Value → List String
  | [] => []
  | v :: rest => write v :: writeAll rest

def writeEntries : List (String × Value) → List String
  | [] => []
  | (k, v) :: rest => (quote k ++ ": " ++ write v) :: writeEntries rest

end

end Retouch.Json
