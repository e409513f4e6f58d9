import Retouch.Workload.Site
import Retouch.Formatter
import Retouch.Reformat

/-! Workloads on edits: the choice of lines, and edit scripts with their chunks. -/
namespace Retouch.Workload

def joinedChunk (i : Int) : Chunk := ⟨2 * i + 1, [s!"a_{i} = (", s!"{i})"], [s!"a_{i} = ({i})"]⟩

def choice (_ : Path) (size : Int) : Run Work := do
  let chunks := (upTo size).map joinedChunk
  let document := Document.ofLines ["x = 1"]
  let chunk : Chunk := ⟨1, ["x = 1"], ["x = 1"]⟩
  return do
    let untouched ← choose [] chunks
    let missed ← choose [-1] chunks
    let all ← choose ((upTo size).map (2 * · + 1)) chunks
    verify document document [chunk] [1]
    let (refused, _) ← quietly (do
      match ← attempt (verify document (.ofLines ["y = 2"]) [chunk] [1]) with
      | .ok _ => return false
      | .error (.notEquivalent _) => return true
      | .error f => Run.fail f)
    return .list [ofCount untouched.length, ofCount missed.length, ofCount all.length, .bool refused]

def turn (i : Int) : Edit := ⟨if i % 2 == 0 then .replace else .equal, i, i + 1, i, i + 1⟩

def script (dir : Path) (size : Int) : Run Work := do
  let _ ← writeIn dir "pyproject.toml" "[tool.black]\nline-length=100\n"
  let edits := (upTo size).map turn
  let lines := (upTo size).map (fun i => s!"line {i}")
  let content := Document.ofText "x=1\ny=2\n"
  let source := dir.join (Path.ofString "a.py")
  return do
    let count (edits : List Edit) (context : Int) : Run Value := do
      return ofCount (← Run.ofOption (.unalternating edits) (editedLines? edits context)).length
    let chunks ← Run.ofOption (.unalternating edits) (Chunk.ofEdits? lines lines edits)
    let edited ← count edits 0
    let around ← count edits 1
    let idle ← count [] 0
    let (formatted, _) ← Formatter.format source content [("skip_string_normalization", .bool true)]
    return .list [edited, around, idle, ofCount chunks.length, ofCount formatted.lines.length,
      ofCount content.lines.length]

end Retouch.Workload
