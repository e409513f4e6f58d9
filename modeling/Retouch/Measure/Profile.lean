import Retouch.Path

/-! Profiles: how long a run spent in each function. A function belongs to the project when its file
lies below the base directory, is not the file of the workloads, and is not set aside there. -/
namespace Retouch.Measure

structure Row where
  file : String
  line : Int
  function : String
  time : Float
  deriving Repr

structure Profile where
  total : Float
  rows : List Row
  deriving Repr

namespace Profile

def none : Profile := ⟨0.0, []⟩

def add (rows : List Row) (r : Row) : List Row :=
  let same (q : Row) : Bool := q.file == r.file && q.line == r.line && q.function == r.function
  if rows.any same then rows.map (fun q => if same q then r else q) else rows ++ [r]

def ofRows (total : Float) (rows : List Row) : Profile := ⟨total, rows.foldl add []⟩

def spent (p : Profile) (chosen : String → Bool) : Float :=
  (p.rows.filter (fun r => chosen r.file)).foldl (fun sum r => sum + r.time) 0.0

end Profile

def builtinFile : String := "~"

def isCompiled (file : String) : Bool := file == builtinFile || file.endsWith ".so" || file.endsWith ".pyd"

structure Territory where
  base : Path
  workloads : Path

namespace Territory

def asideNames : List String :=
  ["vendor", "third_party", "node_modules", "site-packages", "build", "dist", "venv", ".venv", "env"]

def isAside (names : List String) : Bool :=
  names.any (fun n => asideNames.contains n || n.endsWith ".egg-info") ||
    (names.head?.getD "").startsWith "_pti_"

def place (cwd : Path) (file : String) : Option Path :=
  if file == builtinFile || file.startsWith "<" then none else some (Path.resolve cwd (Path.ofString file))

def isWorkloads (t : Territory) (cwd : Path) (file : String) : Bool := place cwd file == some t.workloads

def owns (t : Territory) (cwd : Path) (file : String) : Bool :=
  match place cwd file with
  | none => false
  | some p =>
    p != t.workloads && t.base.parts.isPrefixOf p.parts && t.base.parts.length < p.parts.length &&
      !isAside (p.parts.drop t.base.parts.length)

end Territory
end Retouch.Measure
