import Retouch.Data.Json
import Retouch.Measure.Trial

/-! The share of the project's own code in the time of each workload, and the two places outside it
that take most. -/
namespace Retouch.Measure

structure Share where
  percent : Float
  hot : List (Float × String)

def percentOf (p : Profile) (time : Float) : Float := Decimal.toPlaces 1 (100.0 * time / p.total)

def outsideLabel (t : Territory) (cwd : Path) (file : String) : String :=
  if t.isWorkloads cwd file then "<run() body>"
  else if file == builtinFile then "builtins"
  else
    let name := (file.splitOn "/").getLast?.getD ""
    if name.endsWith ".py" then String.ofList (name.toList.take (name.length - 3)) else name

def book (acc : List (String × Float)) (label : String) (time : Float) : List (String × Float) :=
  if acc.any (·.1 == label) then acc.map (fun e => if e.1 == label then (label, e.2 + time) else e)
  else acc ++ [(label, 0.0 + time)]

def hotter (a b : Float × String) : Bool :=
  if a.1 == b.1 then decide (b.2 ≤ a.2) else decide (b.1 < a.1)

def Share.ofProfile (t : Territory) (cwd : Path) (p : Profile) : Share :=
  if p.total == 0 then ⟨0.0, []⟩
  else
    let outside := (p.rows.filter (fun r => !t.owns cwd r.file)).foldl (fun acc r =>
      book acc (outsideLabel t cwd r.file) r.time) []
    ⟨percentOf p (p.spent (t.owns cwd)),
      ((outside.map (fun e => (percentOf p e.2, e.1))).mergeSort hotter).take 2⟩

def Share.failed (why : Stop) : Share := ⟨-1.0, [(0.0, why.mark)]⟩

/-- A workload that does its work at once is called a second time for its profile. -/
def profiledRun (w : Workload) : Trial (Except Stop Unit) := do
  let c ← call w []
  match ← work c with
  | .error why => return .error why
  | .ok _ =>
    if c.deferred then return .ok ()
    let again ← call w []
    if again.deferred then return .ok ()
    return (← work again).map (fun _ => ())

def share (t : Territory) (w : Workload) : Trial Share := do
  match ← profiledRun w with
  | .error why => return .failed why
  | .ok _ => return .ofProfile t (← getThe Session).cwd (← get).profile

def measuredRoot : Path := ⟨.root, ["repo"]⟩

def printShares (s : Suite) : Run Unit := do
  if !s.present then reportMissing
  let shares ← Trial.run (s.ordered.mapM (fun w => do return (w.name, ← share ⟨measuredRoot, s.file⟩ w)))
  let hot (h : Share) : Value := .list (h.hot.map (fun e => .list [.float e.1, .text e.2]))
  Run.print (Json.write (.table [("repo_time_pct", .table (shares.map (fun e => (e.1, .float e.2.percent)))),
    ("hot_ext", .table (shares.map (fun e => (e.1, hot e.2))))]) ++ "\n")

end Retouch.Measure
