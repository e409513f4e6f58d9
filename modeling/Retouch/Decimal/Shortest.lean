/-! The fewest decimal digits that still name a floating point number. A number in binary is
`mantissa · 2 ^ exponent`; all reals closer to it than to its neighbours round to it, and of the
decimals with the fewest digits among them the nearest is taken. Everything is computed with natural
numbers. -/
namespace Retouch.Decimal

/-- A positive number `mantissa · 2 ^ exponent`; `tight` holds when the number below it is only half
as far away as the one above. -/
structure Binary where
  mantissa : Nat
  exponent : Int
  tight : Bool
  deriving Repr

structure Digits where
  digits : Nat
  count : Nat
  point : Int
  deriving Repr

def twoTo (n : Nat) : Nat := Nat.pow 2 n

def tenTo (n : Nat) : Nat := Nat.pow 10 n

def shift (x : Nat) (e : Int) : Nat := x * twoTo e.toNat

namespace Binary

def denominator (b : Binary) : Nat := 4 * twoTo (-b.exponent).toNat

def value (b : Binary) : Nat := shift (4 * b.mantissa) b.exponent

def low (b : Binary) : Nat := shift (4 * b.mantissa - (if b.tight then 1 else 2)) b.exponent

def high (b : Binary) : Nat := shift (4 * b.mantissa + 2) b.exponent

/-- `c · 10 ^ t` rounds to the number; the ends belong to it when the mantissa is even. -/
def covers (b : Binary) (c : Nat) (t : Int) : Bool :=
  let x := c * tenTo t.toNat * b.denominator
  let scale := tenTo (-t).toNat
  if b.mantissa % 2 == 0 then b.low * scale ≤ x && x ≤ b.high * scale
  else b.low * scale < x && x < b.high * scale

def pointFrom (b : Binary) : Nat → Int → Int
  | 0, k => k
  | fuel + 1, k =>
    if b.value * tenTo (-k).toNat < tenTo k.toNat * b.denominator then k else pointFrom b fuel (k + 1)

def point (b : Binary) : Int := b.pointFrom 700 (-330)

def withDigits (b : Binary) (n : Nat) : Option Digits :=
  let t := b.point - n
  let scale := tenTo (-t).toNat
  let unit := tenTo t.toNat * b.denominator
  let c := b.value * scale / unit
  let rest := b.value * scale % unit
  let below := b.covers c t
  let above := b.covers (c + 1) t
  let pick (c : Nat) : Digits := if c = tenTo n then ⟨1, 1, b.point + 1⟩ else ⟨c, n, b.point⟩
  match below, above with
  | true, true => some (pick (if 2 * rest ≤ unit then c else c + 1))
  | true, false => some (pick c)
  | false, true => some (pick (c + 1))
  | false, false => none

def shortest (b : Binary) : Digits :=
  match (List.range 17).findSome? (fun n => b.withDigits (n + 1)) with
  | some d => d
  | none => ⟨0, 1, 0⟩

end Binary

inductive Parts where
  | nan
  | infinite (negative : Bool)
  | zero (negative : Bool)
  | finite (negative : Bool) (size : Binary)
  deriving Repr

def parts (x : Float) : Parts :=
  let bits : Nat := x.toBits.toNat
  let negative := bits / twoTo 63 == 1
  let e : Nat := bits / twoTo 52 % 2048
  let f : Nat := bits % twoTo 52
  if e == 2047 then (if f == 0 then .infinite negative else .nan)
  else if e == 0 then (if f == 0 then .zero negative else .finite negative ⟨f, -1074, false⟩)
  else .finite negative ⟨twoTo 52 + f, (e : Int) - 1075, f == 0 && 1 < e⟩

def padded (width n : Nat) : String :=
  let s := toString n
  String.ofList (List.replicate (width - s.length) '0') ++ s

/-- Positional notation from one ten-thousandth up to sixteen digits before the point, an exponent of
at least two digits otherwise; a whole number keeps one zero behind the point. -/
def Digits.render (d : Digits) : String :=
  let ds := padded d.count d.digits
  if -4 < d.point && d.point ≤ 16 then
    if d.point ≤ 0 then "0." ++ String.ofList (List.replicate (-d.point).toNat '0') ++ ds
    else
      let p := d.point.toNat
      if d.count ≤ p then ds ++ String.ofList (List.replicate (p - d.count) '0') ++ ".0"
      else String.ofList (ds.toList.take p) ++ "." ++ String.ofList (ds.toList.drop p)
  else
    let e := d.point - 1
    let mantissa := match ds.toList with
      | [c] => String.ofList [c]
      | c :: rest => String.ofList (c :: '.' :: rest)
      | [] => "0"
    mantissa ++ "e" ++ (if e < 0 then "-" else "+") ++ padded 2 e.natAbs

def Digits.trim (d : Digits) : Digits :=
  go d.count d
where
  go : Nat → Digits → Digits
    | 0, d => d
    | fuel + 1, d =>
      if 1 < d.count && d.digits % 10 == 0 then go fuel ⟨d.digits / 10, d.count - 1, d.point⟩ else d

def renderWith (infinity nan : String) (x : Float) : String :=
  match parts x with
  | .nan => nan
  | .infinite negative => (if negative then "-" else "") ++ infinity
  | .zero negative => if negative then "-0.0" else "0.0"
  | .finite negative size => (if negative then "-" else "") ++ size.shortest.trim.render

def render (x : Float) : String := renderWith "inf" "nan" x

end Retouch.Decimal
