import Retouch.Data.Json
import Retouch.Measure.Datum
import Retouch.Measure.Profile
import Retouch.Session
import Retouch.Text.Blank

/-! Trials of workloads. A workload is called, and either does its work at once or returns what is
still to be run; its calls are scripted, one after the other, and the last one repeats. A trial keeps
how often each workload was called and the profile of the latest work. -/
namespace Retouch.Measure

inductive Stop where
  | timeout
  | raised (kind text : String)
  deriving Repr

inductive Ending where
  | stopped (why : Stop)
  | returned (result : Datum) (profile : Profile)

structure Call where
  deferred : Bool
  ending : Ending

structure Workload where
  name : String
  calls : List Call
  params : List Settings

structure Suite where
  present : Bool
  file : Path
  workloads : List Workload

def suiteName : String := "microbench"

namespace Suite

def ordered (s : Suite) : List Workload :=
  let kept := s.workloads.foldl (fun acc w => acc.filter (·.name != w.name) ++ [w]) []
  (kept.filter (·.name.startsWith "bench_")).mergeSort (fun a b => decide (a.name ≤ b.name))

end Suite

structure Progress where
  made : List (String × Nat)
  profile : Profile

def Progress.start : Progress := ⟨[], .none⟩

abbrev Trial := StateT Progress Run

def call (w : Workload) (params : Settings) : Trial Call := do
  Run.record (.workload w.name params)
  let p ← get
  let n := (p.made.lookup w.name).getD 0
  set { p with made := (w.name, n + 1) :: p.made.filter (·.1 != w.name) }
  let last := w.calls.getLast?.getD ⟨true, .returned .none .none⟩
  return w.calls.getD n last

def work (c : Call) : Trial (Except Stop Datum) := do
  match c.ending with
  | .stopped why => return .error why
  | .returned result profile =>
    modify fun p => { p with profile := profile }
    return .ok result

def once (w : Workload) (params : Settings) : Trial (Except Stop Datum) := do work (← call w params)

def Trial.run (t : Trial α) : Run α := return (← StateT.run t Progress.start).1

namespace Stop

def mark : Stop → String
  | timeout => "<timeout>"
  | raised kind _ => s!"<{kind}>"

def message : Stop → String
  | timeout => "TimeoutError: "
  | raised kind text => if kind == "KeyError" then s!"{kind}: {Quoted.render text}" else s!"{kind}: {text}"

end Stop

def missingModule (name : String) : String := s!"ModuleNotFoundError: No module named {Quoted.render name}"

def reportMissing : Run α := do
  Run.print (Json.write (.table [("_import_error", .text (missingModule suiteName))]) ++ "\n")
  Run.fail (.exit 0)

end Retouch.Measure
