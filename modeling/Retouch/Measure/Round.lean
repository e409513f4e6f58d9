import Retouch.Measure.Journal
import Retouch.Measure.Share
import Retouch.Measure.Verdict
import Retouch.Text.Word

/-! A measuring round: coverage of the project by its workloads, shares of time, checks of the
workloads, and a line in the journal. The measuring is done by programs that the round runs. -/
namespace Retouch.Measure

structure ChildAnswer where
  out : String
  err : String
  status : Int

structure Bench where
  run : List String → Except String ChildAnswer
  seconds : Float
  now : Float

def interpreter : String := "python"

def inRoot (file : String) : String := (measuredRoot.join (Path.ofString file)).render

def child (b : Bench) (args : List String) : Run (Except String ChildAnswer) := do
  Run.record (.child args)
  match b.run args with
  | .error reason => return .error reason
  | .ok answer =>
    Run.complain answer.err
    return .ok answer

def lastLine (out : String) : Heard (Option Value) :=
  match ((splitLines out).filter (fun l => !(l.toList.all isBlank))).getLast? with
  | none => .ok none
  | some line => match Json.parse line with
    | .ok v => .ok (some v)
    | .error complaint => .error s!"JSONDecodeError: {complaint}"

def heard (answer : Except String ChildAnswer) : Heard (Option Value) :=
  match answer with
  | .error reason => .error s!"RuntimeError: {reason}"
  | .ok a => lastLine a.out

def fileIsThere (file : String) : Run Bool := do
  let s ← get
  return s.tree.isPresent s.cwd (Path.ofString file)

def reportFile : String := "_pti_coverage.json"

def measureCoverage (b : Bench) : Run Value := do
  let args := [interpreter, inRoot "_pti_cov_runner.py", measuredRoot.render, suiteName, inRoot reportFile,
    Json.write (.list (untraced.map .text))]
  match ← child b args with
  | .error reason => Run.fail (.broken reason)
  | .ok answer =>
    if answer.status != 0 || !(← fileIsThere reportFile) then
      Run.print s!"coverage measurement failed (exit {answer.status})\n{answer.out}\n"
      Run.fail (.exit (if answer.status == 0 then 1 else answer.status))
    match Json.parse (← Run.readText (Path.ofString reportFile)) with
    | .ok v => match v with
      | .table _ => return v
      | _ => Run.fail .lacking
    | .error complaint => Run.fail (.malformed complaint)

structure Shares where
  percents : List (String × Float)
  hot : Settings

namespace Shares

def none : Shares := ⟨[], []⟩

def read (v : Value) : Heard Shares := do
  let percents ← (← heardEntries v "repo_time_pct").mapM (fun e => do return (e.1, ← readAmount e.2))
  return ⟨percents, ← heardEntries v "hot_ext"⟩

def target : Float := 45.0

def isBelow (percent : Float) : Bool := 0.0 ≤ percent && percent < target

def valid (s : Shares) : Nat := (s.percents.filter (fun e => 0.0 ≤ e.2)).length

def below (s : Shares) : Nat := (s.percents.filter (fun e => isBelow e.2)).length

def below? (s : Shares) : Option Int := if s.valid == 0 then Option.none else some s.below

def hotText (v : Value) : String :=
  match v with
  | .list places => String.join (places.map (fun p => match p with
    | .list [percent, label] => s!" {label.plain} {Decimal.fixed 0 (amount (some percent))}%"
    | _ => ""))
  | _ => ""

def line (s : Shares) (e : String × Float) : String :=
  let mark := if isBelow e.2 then "*" else " "
  let percent := padLeft 5 (Decimal.fixed 1 (if e.2 < 0.0 then 0.0 else e.2))
  let hot := (s.hot.lookup e.1).getD (.list [])
  let note := if e.2 < 0.0 then "  <error>"
    else if isBelow e.2 && hot.truthy then s!" (hot:{hotText hot})" else ""
  s!"  {mark} {padRight 32 e.1} {percent}%{note}\n"

def table (s : Shares) : String :=
  if s.percents.isEmpty then ""
  else
    let rows := s.percents.mergeSort (fun a b => decide (a.2 ≤ b.2))
    "\nrepo_time (target 50%; * = below 45%):\n" ++ String.join (rows.map s.line)

end Shares

def measureShares (b : Bench) : Run Shares := do
  if !(← fileIsThere "_pti_repotime.py") then return .none
  let answer ← child b [interpreter, inRoot "_pti_repotime.py"]
  let found : Heard Shares := do
    match ← heard answer with
    | none => return .none
    | some v => Shares.read v
  match found with
  | .ok s => return s
  | .error complaint =>
    Run.complain s!"[repotime runner: {complaint}]\n"
    return .none

def modifiedNames (b : Bench) : Run (List String) := do
  match ← child b ["git", "-C", measuredRoot.render, "status", "--porcelain", "--", ".", ":!microbench.py",
      ":!_pti_*", ":!.pti_*", ":!.coverage"] with
  | .error reason => Run.fail (.broken reason)
  | .ok answer =>
    return ((splitLines answer.out).filter (fun l => !(l.toList.all isBlank))).map (fun l => String.ofList (l.toList.drop 3))

def measureChecks (b : Bench) : Run (List String × List Judged) := do
  if !(← fileIsThere "_pti_semcheck.py") then return ([], [])
  let modified ← modifiedNames b
  let answer ← child b [interpreter, inRoot "_pti_semcheck.py"]
  let found : Heard Settings := do
    match ← heard answer with
    | none => return []
    | some v => heardEntries v "semcheck"
  let (rows, complaint) := match found with
    | .ok checks => judgeAll (!modified.isEmpty) checks
    | .error complaint => ([], some complaint)
  match complaint with
  | some complaint => Run.complain s!"[semcheck runner: {complaint}]\n"
  | none => pure ()
  return (modified, rows)

def countWorkloads (source : String) : Nat :=
  ((source.splitOn "\n").filter (fun l =>
    l.startsWith "def bench_" && ((l.toList.drop 10).head?.any isWordChar))).length

def workloadCount : Run Nat := do
  let file := suiteName ++ ".py"
  if ← fileIsThere file then return countWorkloads (← Run.readText (Path.ofString file)) else return 0

def complaintTable (complaints : Settings) : String :=
  if complaints.isEmpty then ""
  else s!"\n{complaints.length} bench error(s):\n" ++
    joinLines (complaints.map (fun e => s!"  {e.1}: {e.2.plain}"))

structure Numbers where
  report : Value
  complaints : Settings
  shares : Shares
  checks : List Judged
  workloads : Nat

namespace Numbers

def totals (n : Numbers) : Value := .table (entriesOf n.report "totals")

def total (n : Numbers) (key : String) (absent : Value) : Value :=
  match n.totals.get? key with
  | some .none => absent
  | some v => v
  | none => absent

def coverage (n : Numbers) : Float := amount (n.totals.get? "percent_covered")

def unfit (n : Numbers) : Nat := (n.checks.filter (fun j => !j.verdict.isFine)).length

def summary (n : Numbers) (round : Nat) (seconds : Float) : String :=
  let below := if n.shares.percents.isEmpty then ""
    else s!", {n.shares.below}/{n.shares.valid} below repo_time 45%"
  let unfit := if n.checks.isEmpty then "" else s!", {n.unfit}/{n.checks.length} not self-checking"
  s!"\n[round {round}: {n.workloads} benches, {Decimal.fixed 1 n.coverage}% covered{below}{unfit}" ++
    s!", measured in {Decimal.fixed 1 seconds}s]\n"

def entry (n : Numbers) (j : Journal) (b : Bench) : Value :=
  .table [("round", .int (j.rounds + 1)), ("ts", .float b.now), ("wall_since_prev_s", .float (j.sinceLast b.now)),
    ("coverage_pct", n.total "percent_covered" (.float 0.0)), ("covered_lines", n.total "covered_lines" (.int 0)),
    ("num_statements", n.total "num_statements" (.int 0)), ("n_bench_fns", .int n.workloads),
    ("n_bench_errors", .int n.complaints.length), ("cov_measure_s", .float (Decimal.toPlaces 3 b.seconds)),
    ("repo_time_pct", .table (n.shares.percents.map (fun e => (e.1, .float e.2)))),
    ("n_below_repo_time", match n.shares.below? with
      | some k => .int k
      | none => .none),
    ("semcheck", .table (n.checks.map (fun c => (c.workload, .text c.verdict.name)))),
    ("n_not_self_checking", .int n.unfit)]

end Numbers

def round (b : Bench) : Run Unit := do
  let report ← measureCoverage b
  Run.print (coverageTable measuredRoot report)
  let complaints := entriesOf (.table (entriesOf report "meta")) "_pti_bench_errors"
  Run.print (complaintTable complaints)
  let shares ← measureShares b
  Run.print shares.table
  let (modified, checks) ← measureChecks b
  Run.print (verdictTable modified checks)
  let n : Numbers := ⟨report, complaints, shares, checks, ← workloadCount⟩
  let old ← if ← fileIsThere journalFile.render then Run.readText journalFile else pure ""
  let j := Journal.ofText old
  if j.sound then Run.writeText journalFile (old ++ Json.write (n.entry j b) ++ "\n")
  Run.print (n.summary (j.rounds + 1) b.seconds)
  match j.verdict n.coverage n.shares.below? with
  | some why => Run.print s!"\n>>> STOP: repo_time converged ({why}). Finalize microbench.py now. <<<\n"
  | none => pure ()

end Retouch.Measure
