import Retouch.Decimal.Shortest
import Retouch.Text.Quoted

/-! Values of configuration and data files. Tables keep the order in which their keys came. -/
namespace Retouch

inductive Value where
  | none
  | bool (b : Bool)
  | int (n : Int)
  | float (x : Float)
  | text (s : String)
  | list (items : List Value)
  | table (entries : List (String × Value))
  deriving Repr, Inhabited

namespace Value

def number? : Value → Option Int
  | bool b => some (if b then 1 else 0)
  | int n => some n
  | _ => Option.none

def truthy : Value → Bool
  | none => false
  | bool b => b
  | int n => n != 0
  | float x => x != 0
  | text s => s != ""
  | list items => !items.isEmpty
  | table entries => !entries.isEmpty

def sameNumber (x : Float) (n : Int) : Bool :=
  match Decimal.parts x with
  | .zero _ => n == 0
  | .finite negative size =>
    negative == decide (n < 0) &&
      size.mantissa * Decimal.twoTo size.exponent.toNat == n.natAbs * Decimal.twoTo (-size.exponent).toNat
  | _ => false

mutual

/-- Equality of values: truth values equal the numbers zero and one, numbers are compared by size,
tables without regard to order. -/
def alike : Value → Value → Bool
  | none, none => true
  | text s, text t => s == t
  | float x, float y => x == y
  | float x, w => match w.number? with
    | some n => sameNumber x n
    | _ => false
  | list xs, list ys => alikeAll xs ys
  | table xs, table ys => xs.length == ys.length && alikeIn xs ys
  | v, float y => match v.number? with
    | some n => sameNumber y n
    | _ => false
  | v, w => match v.number?, w.number? with
    | some m, some n => m == n
    | _, _ => false

def alikeAll : List Value → List Value → Bool
  | [], [] => true
  | x :: xs, y :: ys => alike x y && alikeAll xs ys
  | _, _ => false

def alikeIn : List (String × Value) → List (String × Value) → Bool
  | [], _ => true
  | (k, x) :: xs, ys =>
    (match ys.lookup k with
      | some y => alike x y
      | _ => false) && alikeIn xs ys

end

mutual

def shown : Value → String
  | none => "None"
  | bool b => if b then "True" else "False"
  | int n => toString n
  | float x => Decimal.render x
  | text s => Quoted.render s
  | list items => "[" ++ ", ".intercalate (showAll items) ++ "]"
  | table entries => "\x7b" ++ ", ".intercalate (showEntries entries) ++ "\x7d"

def showAll : List Value → List String
  | [] => []
  | v :: rest => shown v :: showAll rest

def showEntries : List (String × Value) → List String
  | [] => []
  | (k, v) :: rest => (Quoted.render k ++ ": " ++ shown v) :: showEntries rest

end

def plain : Value → String
  | text s => s
  | v => v.shown

def text? : Value → Option String
  | text s => some s
  | _ => Option.none

def get? (v : Value) (key : String) : Option Value :=
  match v with
  | table entries => entries.lookup key
  | _ => Option.none

end Value

/-- Ordered settings: a key keeps the place where it first stood. -/
abbrev Settings := List (String × Value)

namespace Settings

def put (s : Settings) (key : String) (v : Value) : Settings :=
  if s.any (·.1 == key) then s.map (fun e => if e.1 == key then (key, v) else e) else s ++ [(key, v)]

def erase (s : Settings) (key : String) : Settings := s.filter (·.1 != key)

def overlay (s t : Settings) : Settings := t.foldl (fun acc e => put acc e.1 e.2) s

def has (s : Settings) (key : String) : Bool := s.any (·.1 == key)

end Settings
end Retouch
