import Retouch.Buffer
import Retouch.Reformat
import Retouch.Workload.Site

/-! Workloads on texts: documents and their lines, cursors over bytes, dumps of chunks. -/
namespace Retouch.Workload

def assignment (i : Int) : String := s!"value_{i} = {i}"

def documents (dir : Path) (size : Int) : Run Work := do
  let file ← writeIn dir "s.py" "x = 1\n"
  let lines := (upTo size).map assignment
  let half := lines.take (size.fdiv 2).toNat
  return do
    let byLines := Document.ofLines lines
    let byText := Document.ofText (joinLines lines)
    let dated := { Document.ofText "x" with modified := "t" }
    let loaded ← loadDocument Moment.full file
    let other := Document.ofLines ("other" :: lines)
    let same (a b : Document) : Value := .bool (a.same b).1
    return .list [ofCount (joinLines lines).length, ofCount byLines.text.length, ofCount byText.text.length,
      ofCount (joinLines half).length, ofCount loaded.lines.length, .text dated.modified, .text byLines.summary,
      .list [same byLines byText, same byLines other, same byText byLines, same byText byText, same other byText]]

def markedLine (i : Int) : String := if i % 31 == 5 then s!"@@ {i}" else s!"line {i}"

def countMarked : Nat → Buffer → Nat
  | 0, _ => 0
  | fuel + 1, b =>
    match b.peekStarts ["@@"] with
    | (.ok marked, b) => (if marked then 1 else 0) + countMarked fuel b.next.2
    | _ => 0

def cursor (_ : Path) (size : Int) : Run Work := do
  let bytes := (joinLines ((upTo size).map markedLine)).toUTF8
  return do return ofCount (countMarked size.toNat (.ofBytes bytes.toList))

def dumpedChunk (i : Int) : Chunk :=
  ⟨2 * i + 1, [s!"item {i}", s!"next {i}"], [s!"Item {i}", s!"Next {i}"]⟩

def dump (dir : Path) (size : Int) : Run Work := do
  (upTo 4).forM (fun i => do let _ ← writeIn dir s!"a{i}/b/f.py" "x")
  let chunks := (upTo size).map dumpedChunk
  return do return .list [ofCount (dumpChunks chunks ((upTo size).map (2 * · + 1))).length]

end Retouch.Workload
