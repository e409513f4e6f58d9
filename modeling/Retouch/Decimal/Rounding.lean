import Retouch.Decimal.Shortest

/-! Decimals of a chosen precision. A number is rounded exactly, on its binary parts; a half goes to
the even neighbour. -/
namespace Retouch.Decimal

def roundDiv (numerator denominator : Nat) : Nat :=
  let q := numerator / denominator
  let r := numerator % denominator
  if 2 * r < denominator then q
  else if denominator < 2 * r then q + 1
  else if q % 2 == 0 then q else q + 1

def Binary.units (b : Binary) (places : Int) : Nat :=
  roundDiv (shift b.mantissa b.exponent * tenTo places.toNat) (twoTo (-b.exponent).toNat * tenTo (-places).toNat)

def nearest (mantissa : Nat) (exponent : Int) : Float :=
  if mantissa == 0 then 0.0
  else
    let size : Int := (toString mantissa).length
    if 400 < size + exponent then 1.0 / 0.0
    else if size + exponent < -400 then 0.0
    else if exponent < 0 then Float.ofScientific mantissa true exponent.natAbs
    else Float.ofScientific mantissa false exponent.natAbs

def roundedBy (places : Binary → Int) (x : Float) : Float :=
  match parts x with
  | .finite negative size =>
    let n := places size
    let y := nearest (size.units n) (-n)
    if negative then -y else y
  | _ => x

def toPlaces (places : Nat) (x : Float) : Float := roundedBy (fun _ => places) x

def toSignificant (count : Nat) (x : Float) : Float := roundedBy (fun size => count - size.point) x

def fixed (places : Nat) (x : Float) : String :=
  let written (n : Nat) : String :=
    let digits := (padded (places + 1) n).toList
    let whole := digits.length - places
    String.ofList (digits.take whole) ++ (if places == 0 then "" else "." ++ String.ofList (digits.drop whole))
  let signed (negative : Bool) (s : String) : String := if negative then "-" ++ s else s
  match parts x with
  | .nan => "nan"
  | .infinite negative => signed negative "inf"
  | .zero negative => signed negative (written 0)
  | .finite negative size => signed negative (written (size.units places))

end Retouch.Decimal
