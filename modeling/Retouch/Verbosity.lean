import Retouch.Session

/-! Names and numbers of log levels, and their change by options. -/
namespace Retouch.Verbosity

def names : List (String × Int) :=
  [("NOTSET", 0), ("DEBUG", 10), ("INFO", 20), ("WARNING", 30), ("ERROR", 40), ("CRITICAL", 50),
    ("WARN", 30), ("FATAL", 50)]

def numberOf? (name : String) : Option Int := names.lookup name

def isLevel (v : Value) (n : Int) : Bool := v.alike (.int n)

def swapped : Value → Except Failure Value
  | .list _ => .error .wrongKind
  | .table _ => .error .wrongKind
  | .text s => .ok (match numberOf? s with
    | some n => .int n
    | none => .text ("Level " ++ s))
  | v => .ok (match names.find? (fun e => isLevel v e.2) with
    | some (name, _) => .text name
    | none => .text ("Level " ++ v.plain))

def swapIn (settings : Settings) : Except Failure Settings :=
  match settings.lookup "log_level" with
  | none => .ok settings
  | some v => (swapped v).map (settings.put "log_level")

def lowest : Int := 10

def highest : Int := 50

def clamp (n : Int) : Int := min (max n lowest) highest

def shift (n : Int) : Value → Except Failure Value
  | .bool b => .ok (.int (clamp ((if b then 1 else 0) + n)))
  | .int m => .ok (.int (clamp (m + n)))
  | .float x =>
    let y := x + Float.ofInt n
    .ok (if y < Float.ofInt lowest then .int lowest else if Float.ofInt highest < y then .int highest else .float y)
  | _ => .error .wrongKind

def shiftAll (arguments : Value) (level : Value) : List Int → Except Failure (List Value)
  | [] => .ok []
  | n :: rest => do
    let fits := match arguments with
      | .list items => items.all (fun v => v.text?.isSome)
      | _ => false
    if !fits then throw .condition
    let level ← shift n level
    return level :: (← shiftAll arguments level rest)

end Retouch.Verbosity
