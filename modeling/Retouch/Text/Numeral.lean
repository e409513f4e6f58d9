import Retouch.Text.Blank
import Retouch.Text.Word

/-! Whole numbers in decimal: white space around, a sign, digits of any script with single
underscores between them, at most 4300 digits. -/
namespace Retouch

def maxDigits : Nat := 4300

def digitsFrom (value count : Nat) : List Char → Option Nat
  | [] => if 0 < count && count ≤ maxDigits then some value else none
  | '_' :: c :: rest =>
    if count == 0 then none
    else match digitValue? c with
      | some d => digitsFrom (value * 10 + d) (count + 1) rest
      | none => none
  | c :: rest =>
    match digitValue? c with
    | some d => digitsFrom (value * 10 + d) (count + 1) rest
    | none => none

def isNumeralBlank (c : Char) : Bool := isAsciiBlank c || isWideBlank c

def parseInteger? (text : String) : Option Int :=
  let cs := text.toList.dropWhile isNumeralBlank
  let cs := (cs.reverse.dropWhile isNumeralBlank).reverse
  match cs with
  | '-' :: rest => (digitsFrom 0 0 rest).map (fun n => -(n : Int))
  | '+' :: rest => (digitsFrom 0 0 rest).map (fun n => (n : Int))
  | rest => (digitsFrom 0 0 rest).map (fun n => (n : Int))

end Retouch
