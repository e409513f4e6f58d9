import Retouch.Measure.Fingerprint
import Retouch.Measure.Trial

/-! Checks of the workloads themselves: each is run twice as it stands and once for each of its
parameter sets, and the report keeps fingerprints of the results and the share of the project's own
code in the time. -/
namespace Retouch.Measure

structure Check where
  kind : String
  stable : List String
  byParams : Settings
  projectMs : Settings
  projectShare : Settings
  compiledShare : Settings
  paramMarks : List String

namespace Check

def empty : Check := ⟨"?", [], [], [], [], [], []⟩

def toValue (c : Check) : Value :=
  .table [("ret_type", .text c.kind), ("fp_stable", .list (c.stable.map .text)), ("fp_by_param", .table c.byParams),
    ("repo_tt_ms", .table c.projectMs), ("repo_frac", .table c.projectShare), ("ext_frac", .table c.compiledShare),
    ("param_fps", .list (c.paramMarks.map .text))]

def profiled (c : Check) (label : String) (p : Profile) (owns : String → Bool) : Check :=
  let own := p.spent owns
  let share (t : Float) : Float := if p.total == 0 then 0.0 else Decimal.toPlaces 3 (t / p.total)
  { c with
    projectMs := Settings.put c.projectMs label (.float (Decimal.toPlaces 3 (own * 1000.0)))
    projectShare := Settings.put c.projectShare label (.float (share own))
    compiledShare := Settings.put c.compiledShare label (.float (share (p.spent isCompiled))) }

end Check

def defaultLabel : String := "<default>"

def paramLabel (params : Settings) : String := ",".intercalate (params.map (fun p => p.1 ++ "=" ++ p.2.plain))

def checkParams (w : Workload) (owns : String → Bool) : List Settings → Check → Trial Check
  | [], c => return c
  | params :: rest, c => do
    match ← once w params with
    | .error why => return { c with kind := why.mark }
    | .ok result =>
      let label := paramLabel params
      let c := c.profiled label (← get).profile owns
      checkParams w owns rest { c with
        byParams := Settings.put c.byParams label (.text (fingerprint result))
        paramMarks := c.paramMarks ++ params.map (fun p => fingerprint (.ofValue p.2)) }

def check (w : Workload) (owns : String → Bool) : Trial Check := do
  match ← once w [] with
  | .error why => return { Check.empty with kind := why.mark }
  | .ok first =>
    match ← once w [] with
    | .error why => return { Check.empty with kind := why.mark }
    | .ok second =>
      let c := { Check.empty with kind := first.kind, stable := [fingerprint first, fingerprint second] }
      checkParams w owns w.params (c.profiled defaultLabel (← get).profile owns)

def selfCheck (s : Suite) : Run Unit := do
  if !s.present then reportMissing
  let cwd := (← get).cwd
  let owns := Territory.owns ⟨cwd, s.file⟩ cwd
  let checks ← Trial.run (s.ordered.mapM (fun w => do return (w.name, (← check w owns).toValue)))
  Run.print (Json.write (.table [("semcheck", .table checks)]) ++ "\n")

end Retouch.Measure
