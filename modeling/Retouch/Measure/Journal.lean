import Retouch.Measure.Coverage
import Retouch.Text.Blank

/-! The journal of measuring rounds: one line a round. The rounds so far tell the number of the next
one, the time since the last, and whether the shares still improve. -/
namespace Retouch.Measure

def journalFile : Path := ⟨.relative, [".pti_checkpoint.jsonl"]⟩

structure Journal where
  rounds : Nat
  lastTime : Float
  below : List Int
  sound : Bool

namespace Journal

def enough : Float := 60.0

def readLines : List String → Journal → Journal
  | [], j => j
  | line :: rest, j =>
    match Json.parse line with
    | .ok (.table entries) =>
      let v := Value.table entries
      let below := match (v.get? "n_below_repo_time").bind Value.number? with
        | some n => if enough ≤ amount (v.get? "coverage_pct") then [n] else []
        | none => []
      readLines rest { j with lastTime := amount (v.get? "ts"), below := j.below ++ below }
    | _ => { j with sound := false }

def ofText (text : String) : Journal :=
  let lines := (splitLines text).filter (fun l => !(l.toList.all isBlank))
  readLines lines ⟨lines.length, 0.0, [], true⟩

def sinceLast (j : Journal) (now : Float) : Float :=
  if j.lastTime == 0 then 0.0 else Decimal.toPlaces 2 (now - j.lastTime)

def smallest : List Int → Int
  | [] => 0
  | n :: rest => rest.foldl min n

def stalled (below : List Int) : Bool :=
  3 < below.length &&
    decide (smallest (below.take (below.length - 3)) ≤ smallest (below.drop (below.length - 3)))

def verdict (j : Journal) (coverage : Float) (below : Option Int) : Option String :=
  match below with
  | none => none
  | some n =>
    if coverage < enough then none
    else if n == 0 then some "0 below"
    else
      let all := j.below ++ [n]
      if stalled all then some s!"no improvement in 3 rounds; best {smallest all} below" else none

end Journal
end Retouch.Measure
