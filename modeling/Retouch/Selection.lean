import Retouch.Diff.Edit

/-! The choice between the lines before and after formatting, chunk by chunk: a chunk is taken in its
formatted form exactly when one of its lines was edited. A chunk without lines stands at one line,
so that an edit there selects it. -/
namespace Retouch

def lastLine (start length : Int) : Int := start + (if length == 0 then 1 else length) - 1

def touches (edited : List Int) (start length : Int) : Bool :=
  edited.any (fun n => start ≤ n && n ≤ lastLine start length)

namespace Chunk

def touched (edited : List Int) (c : Chunk) : Bool := touches edited c.start c.before.length

def chosen (edited : List Int) (c : Chunk) : List String :=
  if c.touched edited then c.after else c.before

end Chunk

def chooseLines (edited : List Int) (chunks : List Chunk) : List String :=
  chunks.flatMap (Chunk.chosen edited)

def touchReport (edited : List Int) (start length : Int) : String :=
  let last := lastLine start length
  let place := if last == start then s!"line {start}" else s!"lines {start}-{last}"
  if touches edited start length then s!"Found edits on {place}" else s!"Found no edits on {place}"

namespace Chunk

def report (edited : List Int) (c : Chunk) : List String :=
  let lines := c.chosen edited
  let choice :=
    if c.touched edited then (if c.after == c.before then "unmodified" else "reformatted")
    else "original"
  let noun := if lines.length == 1 then "line" else "lines"
  [touchReport edited c.start c.before.length,
    s!"Using {lines.length} {choice} {noun} at line {c.start}"]

end Chunk
end Retouch
