import Retouch.Decimal.Rounding
import Retouch.Text.Numeral

/-! Floating point numbers in text: white space around, a sign, digits of any script with single
underscores between them, a point, an exponent; or the name of infinity or of no number. -/
namespace Retouch.Decimal

def digitRun (value count : Nat) : List Char → Nat × Nat × List Char
  | [] => (value, count, [])
  | '_' :: c :: rest =>
    match digitValue? c with
    | some d => if count == 0 then (value, count, '_' :: c :: rest) else digitRun (value * 10 + d) (count + 1) rest
    | none => (value, count, '_' :: c :: rest)
  | c :: rest =>
    match digitValue? c with
    | some d => digitRun (value * 10 + d) (count + 1) rest
    | none => (value, count, c :: rest)

def exponent? : List Char → Option Int
  | [] => some 0
  | c :: rest =>
    if c != 'e' && c != 'E' then none
    else
      let (negative, rest) := match rest with
        | '-' :: rest => (true, rest)
        | '+' :: rest => (false, rest)
        | rest => (false, rest)
      match digitRun 0 0 rest with
      | (n, count, []) => if count == 0 then none else some (if negative then -(n : Int) else n)
      | _ => none

def unsigned? (cs : List Char) : Option Float :=
  let word := String.ofList (cs.map Char.toLower)
  if word == "inf" || word == "infinity" then some (1.0 / 0.0)
  else if word == "nan" then some (0.0 / 0.0)
  else
    let (whole, before, rest) := digitRun 0 0 cs
    let (mantissa, after, rest) := match rest with
      | '.' :: rest =>
        let (fraction, after, rest) := digitRun 0 0 rest
        (whole * tenTo after + fraction, after, rest)
      | rest => (whole, 0, rest)
    if before + after == 0 then none
    else (exponent? rest).map (fun e => nearest mantissa (e - after))

def parse? (text : String) : Option Float :=
  let cs := text.toList.dropWhile isNumeralBlank
  let cs := (cs.reverse.dropWhile isNumeralBlank).reverse
  match cs with
  | '-' :: rest => (unsigned? rest).map (fun x => -x)
  | '+' :: rest => unsigned? rest
  | rest => unsigned? rest

end Retouch.Decimal
