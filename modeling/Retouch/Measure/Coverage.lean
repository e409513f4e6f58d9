import Retouch.Measure.Trial

/-! Coverage of the project by the workloads: a run of all of them under a tracer, and the table of
its report. -/
namespace Retouch.Measure

def untraced : List String :=
  ["*/microbench.py", "*/_pti_*.py", "*/setup.py", "*/conftest.py", "*/test_*.py", "*/*_test.py", "*/tests/*",
    "*/test/*", "*/__tests__/*", "*/__fixtures__/*", "*/_version.py"]

def amount (v : Option Value) : Float :=
  match v with
  | some (.float x) => x
  | some v => match v.number? with
    | some n => Float.ofInt n
    | none => 0.0
  | none => 0.0

def entriesOf (v : Value) (key : String) : Settings :=
  match v.get? key with
  | some (.table entries) => entries
  | _ => []

def itemsOf (v : Value) (key : String) : List Value :=
  match v.get? key with
  | some (.list items) => items
  | _ => []

def runAll : List Workload → Trial Settings
  | [] => return []
  | w :: rest => do
    let complaint := match ← once w [] with
      | .error why => [(w.name, Value.text why.message)]
      | .ok _ => []
    return complaint ++ (← runAll rest)

def require (v : Value) (key : String) : Run Value := Run.ofOption .noEntry (v.get? key)

def traceSuite (s : Suite) (report : Value) (args : List String) : Run Unit := do
  match args with
  | root :: name :: file :: patterns :: _ =>
    let omitted ← match Json.parse patterns with
      | .ok v => pure v
      | .error complaint => Run.fail (.malformed complaint)
    let source := Path.resolve (← get).cwd (Path.ofString root)
    Run.record (.tracer [.text "Coverage", .table [("branch", .bool false), ("config_file", .bool false),
      ("data_file", .none), ("omit", omitted), ("source", .list [.text source.render])]])
    Run.record (.tracer [.text "start"])
    let there := s.present && name == suiteName
    let workloads := if there then s.ordered else []
    let complaints ← if there then Trial.run (runAll workloads)
      else pure [("<import>", .text (missingModule name))]
    Run.record (.tracer [.text "stop"])
    Run.record (.tracer [.text "json_report", .text file, .bool true])
    let target := Path.ofString file
    Run.writeText target (Json.write report)
    let found := Settings.put (Settings.put (entriesOf report "meta") "_pti_bench_errors" (.table complaints))
      "_pti_n_benches" (.int workloads.length)
    let report := match report with
      | .table entries => Value.table (Settings.put entries "meta" (.table found))
      | v => v
    Run.writeText target (Json.write report)
    let totals ← require report "totals"
    let percent := Decimal.fixed 1 (amount (some (← require totals "percent_covered")))
    let covered := (← require totals "covered_lines").plain
    let all := (← require totals "num_statements").plain
    Run.print s!"coverage: {percent}% ({covered}/{all} stmts, {workloads.length} benches, {complaints.length} errors)\n"
  | _ => Run.fail .noItem

structure FileCoverage where
  name : String
  statements : Value
  missed : Value
  percent : Float
  missing : List Value

namespace FileCoverage

def relative (base p : List String) : String :=
  match base, p with
  | a :: base, b :: p =>
    if a == b then relative base p else "/".intercalate (List.replicate (base.length + 1) ".." ++ b :: p)
  | base, [] => if base.isEmpty then "." else "/".intercalate (List.replicate base.length "..")
  | [], p => "/".intercalate p

def ofEntry (base : Path) (entry : String × Value) : FileCoverage :=
  let p := Path.ofString entry.1
  let summary := Value.table (entriesOf entry.2 "summary")
  let count (key : String) : Value := match summary.get? key with
    | some .none => .int 0
    | some v => v
    | none => .int 0
  ⟨if p.isAbsolute then relative base.parts (Path.resolve base p).parts else entry.1,
    count "num_statements", count "missing_lines", amount (summary.get? "percent_covered"),
    itemsOf entry.2 "missing_lines"⟩

def before (a b : FileCoverage) : Bool :=
  if a.percent == b.percent then decide (amount (some b.statements) ≤ amount (some a.statements))
  else decide (a.percent < b.percent)

def line (width : Nat) (c : FileCoverage) : String :=
  let shown := ",".intercalate ((c.missing.take 12).map Value.plain)
  let more := if 12 < c.missing.length then "…" else ""
  let columns := [padRight width (cut 60 c.name), padLeft 5 c.statements.plain, padLeft 4 c.missed.plain,
    padLeft 4 (Decimal.fixed 0 c.percent) ++ "%", shown ++ more]
  "  ".intercalate columns ++ "\n"

end FileCoverage

def coverageTable (base : Path) (report : Value) : String :=
  let files := ((entriesOf report "files").map (FileCoverage.ofEntry base)).mergeSort FileCoverage.before
  let width := min 60 (files.foldl (fun w c => max w c.name.length) 4)
  let rule := String.ofList (List.replicate (width + 42) '-') ++ "\n"
  let totals := Value.table (entriesOf report "totals")
  let whole (key : String) : Int := ((totals.get? key).bind Value.number?).getD 0
  let all := whole "num_statements"
  padRight width "Name" ++ "  Stmts  Miss  Cover  Missing\n" ++ rule ++
    String.join (files.map (FileCoverage.line width)) ++ rule ++
    padRight width "TOTAL" ++ "  " ++ padLeft 5 (toString all) ++ "  " ++
    padLeft 4 (toString (all - whole "covered_lines")) ++ "  " ++
    padLeft 4 (Decimal.fixed 0 (amount (totals.get? "percent_covered"))) ++ "%\n"

end Retouch.Measure
