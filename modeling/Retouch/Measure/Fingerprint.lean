import Retouch.Digest
import Retouch.Measure.Datum
import Retouch.Text.Blank

/-! Fingerprints of results. A result is written down as bytes, and the fingerprint is their digest.
The writing keeps what a workload computed and forgets what may vary: floating point numbers keep six
digits, sets and tables have one order, lists and tuples are the same. -/
namespace Retouch.Measure

def sixDigits (x : Float) : String :=
  if x == 0 then "0.0" else Decimal.render (Decimal.toSignificant 6 x)

namespace Datum

def timeText (hour minute second micro : Int) : String :=
  let shown := if micro != 0 then [hour, minute, second, micro]
    else if second != 0 then [hour, minute, second] else [hour, minute]
  "datetime.time(" ++ ", ".intercalate (shown.map toString) ++ ")"

def durationText (days seconds micros : Int) : String :=
  let total := seconds + micros.fdiv 1000000
  let shown := [("days", days + total.fdiv 86400), ("seconds", total.fmod 86400),
    ("microseconds", micros.fmod 1000000)].filter (·.2 != 0)
  let inner := if shown.isEmpty then "0" else ", ".intercalate (shown.map (fun p => s!"{p.1}={p.2}"))
  "datetime.timedelta(" ++ inner ++ ")"

def fractionText (numerator denominator : Int) : String :=
  let g : Int := Int.gcd numerator denominator
  let sign : Int := if denominator < 0 then -1 else 1
  s!"Fraction({sign * numerator / g}, {sign * denominator / g})"

/-- A decimal in its own precision: digits and exponent as they were written, plain unless the
exponent is above zero or the number is smaller than a millionth. -/
def decimalText (written : String) : String :=
  let cs := written.toList.filter (fun c => c != '_' && c != ' ')
  let (sign, cs) := match cs with
    | '-' :: rest => ("-", rest)
    | '+' :: rest => ("", rest)
    | rest => ("", rest)
  let word := String.ofList (cs.map Char.toLower)
  if word == "inf" || word == "infinity" then sign ++ "Infinity"
  else if word == "nan" then sign ++ "NaN"
  else
    let whole := cs.takeWhile Char.isDigit
    let rest := cs.drop whole.length
    let fraction := match rest with
      | '.' :: more => more.takeWhile Char.isDigit
      | _ => []
    let after := match rest with
      | '.' :: more => more.drop fraction.length
      | more => more
    let exponent : Int := match after with
      | _ :: '-' :: ds => -((numbersIn ds).getD 0 0)
      | _ :: ds => (numbersIn ds).getD 0 0
      | [] => 0
    let exponent := exponent - fraction.length
    let digits := toString ((numbersIn (whole ++ fraction)).getD 0 0)
    let ds := digits.toList
    let point := exponent + ds.length
    if exponent ≤ 0 && -6 ≤ point - 1 then
      if exponent == 0 then sign ++ digits
      else if point ≤ 0 then sign ++ "0." ++ String.ofList (List.replicate (-point).toNat '0') ++ digits
      else sign ++ String.ofList (ds.take point.toNat) ++ "." ++ String.ofList (ds.drop point.toNat)
    else
      let mantissa := match ds with
        | [c] => String.ofList [c]
        | c :: more => String.ofList (c :: '.' :: more)
        | [] => "0"
      let e := point - 1
      sign ++ mantissa ++ "E" ++ (if e < 0 then "-" else "+") ++ toString e.natAbs

def uuidText (written : String) : String :=
  let ds := (written.toList.map Char.toLower).filter (fun c => c.isDigit || ('a' ≤ c && c ≤ 'f'))
  let group (start size : Nat) : String := String.ofList ((ds.drop start).take size)
  "-".intercalate [group 0 8, group 8 4, group 12 4, group 16 4, group 20 12]

def bytesText (content : ByteArray) : String :=
  let cs := content.toList
  let single := !(cs.contains 39 && !cs.contains 34)
  let quote := if single then '\'' else '"'
  let one (b : UInt8) : List Char :=
    let c := Char.ofNat b.toNat
    if c == '\\' then ['\\', '\\']
    else if c == quote then ['\\', c]
    else if c == '\n' then ['\\', 'n']
    else if c == '\r' then ['\\', 'r']
    else if c == '\t' then ['\\', 't']
    else if 32 ≤ b && b < 127 then [c]
    else '\\' :: 'x' :: Quoted.hex 2 b.toNat
  String.ofList ('b' :: quote :: cs.flatMap one ++ [quote])

mutual

def keyText : Datum → String
  | none => "None"
  | bool b => if b then "True" else "False"
  | int n => toString n
  | float x => Decimal.render x
  | text s => Quoted.render s
  | bytes _ content => bytesText content
  | tuple items => match items with
    | [d] => "(" ++ keyText d ++ ",)"
    | items => "(" ++ ", ".intercalate (keyTexts items) ++ ")"
  | date y m d => s!"datetime.date({y}, {m}, {d})"
  | time h m s u => timeText h m s u
  | duration d s u => durationText d s u
  | decimal w => s!"Decimal('{decimalText w}')"
  | fraction n d => fractionText n d
  | path p => s!"PurePosixPath({Quoted.render p.render})"
  | uuid w => s!"UUID('{uuidText w}')"
  | foreign home name => s!"<{home}.{name}>"
  | _ => ""

def keyTexts : List Datum → List String
  | [] => []
  | d :: rest => keyText d :: keyTexts rest

end

end Datum

def feedText (acc : ByteArray) (s : String) : ByteArray := acc ++ s.toUTF8

def shapeText : List Nat → String
  | [] => "(1,)"
  | [n] => s!"({n},)"
  | ns => "(" ++ ", ".intercalate (ns.map toString) ++ ")"

def CellKind.code : CellKind → String
  | .int64 => "<i8"
  | .uint8 => "|u1"
  | .bool => "|b1"

def CellKind.width : CellKind → Nat
  | .int64 => 8
  | _ => 1

def littleEndian (width : Nat) (n : Int) : List UInt8 :=
  let word := (n % ((Nat.pow 256 width : Nat) : Int)).toNat
  (List.range width).map (fun i => UInt8.ofNat (word / Nat.pow 256 i))

def feedPairs (acc : ByteArray) (written : List (String × ByteArray)) : ByteArray :=
  (written.mergeSort (fun p q => decide (p.1 ≤ q.1))).foldl (fun acc p => acc ++ p.2) acc

mutual

def feed (acc : ByteArray) : Datum → ByteArray
  | .none => feedText acc "None"
  | .bool b => feedText acc (if b then "True" else "False")
  | .int n => feedText acc (toString n)
  | .float x => feedText acc (sixDigits x)
  | .complex re im => feedText acc ("c" ++ sixDigits re ++ sixDigits im)
  | .text s => feedText (feedText acc "s") s
  | .bytes _ content => feedText acc "s" ++ content
  | .list items => feedAll (feedText acc s!"L{items.length}") items
  | .tuple items => feedAll (feedText acc s!"L{items.length}") items
  | .set _ items => (sortTexts (marks items)).foldl feedText (feedText acc s!"S{items.length}")
  | .dict entries => feedPairs (feedText acc s!"D{entries.length}") (pairs entries)
  | .record _ fields => feedPairs (feedText acc s!"D{fields.length}") (fieldPairs fields)
  | .date y m d => feedText acc s!"datetime.date({y}, {m}, {d})"
  | .time h m s u => feedText acc (Datum.timeText h m s u)
  | .duration d s u => feedText acc (Datum.durationText d s u)
  | .decimal w => feedText acc s!"Decimal('{Datum.decimalText w}')"
  | .fraction n d => feedText acc (Datum.fractionText n d)
  | .path p => feedText acc s!"PurePosixPath({Quoted.render p.render})"
  | .uuid w => feedText acc s!"UUID('{Datum.uuidText w}')"
  | .reals single shape cells =>
    let head := feedText acc ("A" ++ shapeText shape ++ (if single then "<f4" else "<f8"))
    cells.foldl (fun acc x => feedText acc (sixDigits (if single then x.toFloat32.toFloat else x))) head
  | .cells kind shape values =>
    feedText acc s!"A{shapeText shape}{kind.code}" ++
      Digest.ofBytes ⟨(values.flatMap (littleEndian kind.width)).toArray⟩
  | .foreign home name => feedText acc s!"<{home}.{name}>"

def feedAll (acc : ByteArray) : List Datum → ByteArray
  | [] => acc
  | d :: rest => feedAll (feed acc d) rest

def marks : List Datum → List String
  | [] => []
  | d :: rest => Digest.hex (Digest.ofBytes (feed .empty d)) :: marks rest

def pairs : List (Datum × Datum) → List (String × ByteArray)
  | [] => []
  | (k, v) :: rest => (k.keyText, feed (feed .empty k) v) :: pairs rest

def fieldPairs : List (String × Datum) → List (String × ByteArray)
  | [] => []
  | (name, d) :: rest => (Quoted.render name, feed (feedText .empty ("s" ++ name)) d) :: fieldPairs rest

end

def fingerprint (d : Datum) : String := Digest.hex (Digest.ofBytes (feed .empty d))

end Retouch.Measure
