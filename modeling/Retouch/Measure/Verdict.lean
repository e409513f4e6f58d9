import Retouch.Decimal.Reading
import Retouch.Measure.Coverage

/-! The verdict on a workload from its checks: the first defect found counts. -/
namespace Retouch.Measure

inductive Verdict where
  | projectModified
  | error
  | returnsNone
  | unstable
  | returnsInput
  | lowShare
  | tooFast
  | unparametrized
  | invariant
  | ok
  deriving Repr, DecidableEq

namespace Verdict

def name : Verdict → String
  | projectModified => "repo-modified"
  | error => "error"
  | returnsNone => "returns-none"
  | unstable => "unstable"
  | returnsInput => "returns-input"
  | lowShare => "low-repo-time"
  | tooFast => "too-fast"
  | unparametrized => "ok-unparam"
  | invariant => "param-invariant"
  | ok => "ok"

def isFine (v : Verdict) : Bool := v == ok || v == unparametrized

end Verdict

abbrev Heard := Except String

def readAmount (v : Value) : Heard Float :=
  match v with
  | .float x => .ok x
  | .text s => match Decimal.parse? s with
    | some x => .ok x
    | none => .error s!"ValueError: could not convert string to float: {Quoted.render s}"
  | v => match v.number? with
    | some n => .ok (Float.ofInt n)
    | none => .error
      s!"TypeError: float() argument must be a string or a real number, not '{(Datum.ofValue v).kind}'"

def heardEntries (v : Value) (key : String) : Heard Settings :=
  match v with
  | .table _ => match v.get? key with
    | none => .ok []
    | some (.table entries) => .ok entries
    | some w => if w.truthy then .error s!"AttributeError: '{(Datum.ofValue w).kind}' object has no attribute 'items'"
      else .ok []
  | v => .error s!"AttributeError: '{(Datum.ofValue v).kind}' object has no attribute 'get'"

def median (xs : List Float) : Float :=
  let sorted := xs.mergeSort (fun a b => decide (a ≤ b))
  let n := sorted.length
  if n == 0 then 0.0
  else if n % 2 == 1 then sorted.getD (n / 2) 0.0
  else (sorted.getD (n / 2 - 1) 0.0 + sorted.getD (n / 2) 0.0) / 2.0

def least (xs : List Float) : Float :=
  match xs with
  | [] => 0.0
  | x :: rest => rest.foldl (fun m y => if y < m then y else m) x

structure Judged where
  workload : String
  kind : String
  share : Float
  ms : Float
  verdict : Verdict

def uniform : List Value → Bool
  | [] => true
  | v :: rest => rest.all (Value.alike v)

def judge (modified : Bool) (checks : Value) (share ms : Float) : Verdict :=
  let kind := match checks.get? "ret_type" with
    | some (.text s) => s
    | _ => "?"
  let stable := itemsOf checks "fp_stable"
  let byParams := (entriesOf checks "fp_by_param").map (·.2)
  if modified then .projectModified
  else if kind == "" || kind == "?" || kind.startsWith "<" then .error
  else if kind == "NoneType" then .returnsNone
  else if stable.isEmpty || !uniform stable then .unstable
  else if (itemsOf checks "param_fps").any (Value.alike (stable.headD .none)) then .returnsInput
  else if share < 0.5 then .lowShare
  else if ms < 1.0 then .tooFast
  else if byParams.length < 2 then .unparametrized
  else if uniform byParams then .invariant
  else .ok

def judged (modified : Bool) (entry : String × Value) : Heard (Option Judged) :=
  match entry.2 with
  | .table _ => do
    let shares ← (← heardEntries entry.2 "repo_frac").mapM (fun e => readAmount e.2)
    let times ← (← heardEntries entry.2 "repo_tt_ms").mapM (fun e => readAmount e.2)
    let kind := match entry.2.get? "ret_type" with
      | some v => if v.truthy then v.plain else "?"
      | none => "?"
    return some ⟨entry.1, kind, least shares, median times, judge modified entry.2 (least shares) (median times)⟩
  | _ => .ok none

def judgeAll (modified : Bool) : Settings → List Judged × Option String
  | [] => ([], none)
  | e :: rest =>
    match judged modified e with
    | .error complaint => ([], some complaint)
    | .ok found =>
      let (more, complaint) := judgeAll modified rest
      (found.toList ++ more, complaint)

def Judged.line (j : Judged) : String :=
  let mark := if j.verdict.isFine then " " else "*"
  let share := Decimal.fixed 0 (j.share * 100.0)
  s!"  {mark} {padRight 32 j.workload} {padRight 16 j.verdict.name} ({j.kind}, repo {share}%) {Decimal.fixed 1 j.ms}ms\n"

def Judged.before (a b : Judged) : Bool :=
  if a.verdict.isFine == b.verdict.isFine then decide (a.workload ≤ b.workload) else b.verdict.isFine

def legend : String := joinLines
  ["self-check (* = fix needed):",
    "  returns-none: run() has no return — collect and return the call results",
    "  unstable: seed RNG in setup; avoid time/uuid/id in the return",
    "  returns-input: return repo output, not the parameter value",
    "  low-repo-time: <50% of run() time is in repo code — move glue to setup",
    "  param-invariant: return something derived from run()'s work, not setup",
    "  repo-modified: revert edits to repo files (git checkout -- <path>)"]

def verdictTable (modified : List String) (rows : List Judged) : String :=
  if rows.isEmpty then ""
  else
    let revert := if modified.isEmpty then ""
      else s!"\n** repo modified ({modified.length} file(s)) — revert these; only microbench.py is yours to edit:\n" ++
        joinLines (modified.map ("   " ++ ·))
    revert ++ "\n" ++ legend ++ String.join ((rows.mergeSort Judged.before).map Judged.line)

end Retouch.Measure
