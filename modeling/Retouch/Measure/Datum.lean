import Retouch.Data.Value
import Retouch.Decimal.Rounding
import Retouch.Moment
import Retouch.Path

/-! What a measured workload returns. Each kind has a name of its own; texts and sequences of bytes,
lists and tuples, sets and frozen sets differ by name only. -/
namespace Retouch.Measure

inductive BytesKind where
  | bytes
  | bytearray
  | memoryview
  deriving Repr, DecidableEq

inductive CellKind where
  | int64
  | uint8
  | bool
  deriving Repr, DecidableEq

inductive Datum where
  | none
  | bool (b : Bool)
  | int (n : Int)
  | float (x : Float)
  | complex (re im : Float)
  | text (s : String)
  | bytes (kind : BytesKind) (content : ByteArray)
  | list (items : List Datum)
  | tuple (items : List Datum)
  | set (frozen : Bool) (items : List Datum)
  | dict (entries : List (Datum × Datum))
  | record (name : String) (fields : List (String × Datum))
  | date (year month day : Int)
  | time (hour minute second microsecond : Int)
  | duration (days seconds microseconds : Int)
  | decimal (written : String)
  | fraction (numerator denominator : Int)
  | path (p : Path)
  | uuid (written : String)
  | reals (single : Bool) (shape : List Nat) (cells : List Float)
  | cells (kind : CellKind) (shape : List Nat) (values : List Int)
  | foreign (home name : String)
  deriving Inhabited

namespace Datum

def kind : Datum → String
  | none => "NoneType"
  | bool _ => "bool"
  | int _ => "int"
  | float _ => "float"
  | complex _ _ => "complex"
  | text _ => "str"
  | bytes .bytes _ => "bytes"
  | bytes .bytearray _ => "bytearray"
  | bytes .memoryview _ => "memoryview"
  | list _ => "list"
  | tuple _ => "tuple"
  | set frozen _ => if frozen then "frozenset" else "set"
  | dict _ => "dict"
  | record name _ => name
  | date _ _ _ => "date"
  | time _ _ _ _ => "time"
  | duration _ _ _ => "timedelta"
  | decimal _ => "Decimal"
  | fraction _ _ => "Fraction"
  | path _ => "PurePosixPath"
  | uuid _ => "UUID"
  | reals _ _ _ => "ndarray"
  | cells _ _ _ => "ndarray"
  | foreign _ name => name

mutual

def ofValue : Value → Datum
  | .none => none
  | .bool b => bool b
  | .int n => int n
  | .float x => float x
  | .text s => text s
  | .list items => list (ofValues items)
  | .table entries => dict (ofEntries entries)

def ofValues : List Value → List Datum
  | [] => []
  | v :: rest => ofValue v :: ofValues rest

def ofEntries : List (String × Value) → List (Datum × Datum)
  | [] => []
  | (k, v) :: rest => (text k, ofValue v) :: ofEntries rest

end

def numbersIn (cs : List Char) : List Int :=
  let (done, digits) := cs.foldl (fun (acc : List (List Char) × List Char) c =>
    if c.isDigit then (acc.1, c :: acc.2)
    else (if acc.2.isEmpty then acc.1 else acc.2 :: acc.1, [])) ([], [])
  let all := if digits.isEmpty then done else digits :: done
  all.reverse.map (fun ds => ds.reverse.foldl (fun n c => n * 10 + ((c.toNat - 48 : Nat) : Int)) 0)

def dateOfText (s : String) : Datum :=
  let ns := numbersIn s.toList
  date (ns.getD 0 1) (ns.getD 1 1) (ns.getD 2 1)

def timeOfText (s : String) : Datum :=
  let (clock, decimals) := match s.splitOn "." with
    | clock :: decimals :: _ => (clock, decimals.toList)
    | _ => (s, [])
  let ns := numbersIn clock.toList
  let micros := numbersIn (decimals ++ List.replicate (6 - decimals.length) '0')
  time (ns.getD 0 0) (ns.getD 1 0) (ns.getD 2 0) (micros.getD 0 0)

end Datum
end Retouch.Measure
