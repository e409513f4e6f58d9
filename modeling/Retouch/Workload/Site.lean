import Retouch.Session

/-! What workloads are made of: a setup that prepares a scratch directory and returns the work itself,
which can be done any number of times. -/
namespace Retouch.Workload

abbrev Work := Run Value

structure Spec where
  name : String
  sizeName : String
  usualSize : Int
  setup : Path → Int → Run Work

def upTo (n : Int) : List Int := (List.range n.toNat).map (fun (k : Nat) => (k : Int))

def makeDirectory (p : Path) : Run Unit :=
  modify fun s => { s with tree := s.tree.makeDirectories (Path.resolve s.cwd p).parts }

def writeIn (dir : Path) (name text : String) : Run Path := do
  let p := dir.join (Path.ofString name)
  makeDirectory ⟨p.anchor, p.parts.dropLast⟩
  Run.writeText p text
  return p

def attempt (act : Run α) : Run (Except Failure α) :=
  tryCatch (do return .ok (← act)) (fun f => return .error f)

def quietly (act : Run α) : Run (α × String) := do
  let before := (← get).out
  modify fun s => { s with out := "" }
  let result ← attempt act
  let printed := (← get).out
  modify fun s => { s with out := before }
  match result with
  | .ok a => return (a, printed)
  | .error f => Run.fail f

def ofCount (n : Nat) : Value := .int n

end Retouch.Workload
