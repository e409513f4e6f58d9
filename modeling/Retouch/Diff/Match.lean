import Std.Data.HashMap
import Retouch.Diff.Edit

/-! The edit script between two lists of lines. The longest common run of lines is found first, the
earliest in the old and then in the new list among equals; the parts before and after it are treated
the same way. What lies between the runs is replaced, deleted or inserted. -/
namespace Retouch

structure Window where
  oldLo : Nat
  oldHi : Nat
  newLo : Nat
  newHi : Nat
  deriving Repr, DecidableEq

structure Block where
  old : Nat
  new : Nat
  size : Nat
  deriving Repr, DecidableEq

structure Matcher where
  old : Array String
  new : Array String
  index : Std.HashMap String (List Nat)

namespace Matcher

def positions (new : List String) : Std.HashMap String (List Nat) :=
  new.zipIdx.foldr (fun (line, j) m => m.insert line (j :: m.getD line [])) ∅

def ofLines (old new : List String) : Matcher := ⟨old.toArray, new.toArray, positions new⟩

/-- In a long list a line is popular when more than one in a hundred lines, and one more, equal it.
Runs do not start from popular lines; they only grow over them. -/
def skippingPopular (old new : List String) : Matcher :=
  let n := new.length
  let index := positions new
  if n < 200 then ⟨old.toArray, new.toArray, index⟩
  else ⟨old.toArray, new.toArray, index.filter (fun _ js => js.length ≤ n / 100 + 1)⟩

def occurrences (m : Matcher) (w : Window) (i : Nat) : List Nat :=
  match m.old[i]? with
  | none => []
  | some line => (m.index.getD line []).filter (fun j => w.newLo ≤ j && j < w.newHi)

def lengthen : List Nat → List (Nat × Nat) → List (Nat × Nat)
  | [], _ => []
  | j :: js, runs =>
    let runs := runs.dropWhile (fun run => run.1 + 1 < j)
    let size := match runs with
      | (k, n) :: _ => if k + 1 = j then n + 1 else 1
      | [] => 1
    (j, size) :: lengthen js runs

def better (i : Nat) (best : Block) (run : Nat × Nat) : Block :=
  if best.size < run.2 then ⟨i + 1 - run.2, run.1 + 1 - run.2, run.2⟩ else best

def scanRow (m : Matcher) (w : Window) (state : List (Nat × Nat) × Block) (i : Nat) :
    List (Nat × Nat) × Block :=
  let runs := lengthen (m.occurrences w i) state.1
  (runs, runs.foldl (better i) state.2)

def scan (m : Matcher) (w : Window) : Block :=
  ((List.range' w.oldLo (w.oldHi - w.oldLo)).foldl (m.scanRow w) ([], ⟨w.oldLo, w.newLo, 0⟩)).2

def agree (m : Matcher) (i j : Nat) : Bool := m.old[i]? == m.new[j]?

def growBack (m : Matcher) (w : Window) : Nat → Nat → Nat → Block
  | i + 1, j + 1, n =>
    if w.oldLo ≤ i && w.newLo ≤ j && m.agree i j then growBack m w i j (n + 1) else ⟨i + 1, j + 1, n⟩
  | i, j, n => ⟨i, j, n⟩

def ahead (m : Matcher) (i j : Nat) : Nat → Nat
  | 0 => 0
  | room + 1 => if m.agree i j then m.ahead (i + 1) (j + 1) room + 1 else 0

def growAhead (m : Matcher) (w : Window) (b : Block) : Block :=
  let room := min (w.oldHi - (b.old + b.size)) (w.newHi - (b.new + b.size))
  { b with size := b.size + m.ahead (b.old + b.size) (b.new + b.size) room }

def longest (m : Matcher) (w : Window) : Block :=
  let b := m.scan w
  m.growAhead w (m.growBack w b.old b.new b.size)

def blocks (m : Matcher) (w : Window) : List Block :=
  match m.longest w with
  | ⟨i, j, n⟩ =>
    if 0 < n ∧ w.oldLo ≤ i ∧ i + n ≤ w.oldHi then
      m.blocks ⟨w.oldLo, i, w.newLo, j⟩ ++ ⟨i, j, n⟩ :: m.blocks ⟨i + n, w.oldHi, j + n, w.newHi⟩
    else []
termination_by w.oldHi - w.oldLo

end Matcher

namespace Block

def joinFrom (b : Block) : List Block → List Block
  | [] => [b]
  | c :: rest =>
    if b.old + b.size = c.old ∧ b.new + b.size = c.new then
      joinFrom ⟨b.old, b.new, b.size + c.size⟩ rest
    else b :: joinFrom c rest

def joinTouching : List Block → List Block
  | [] => []
  | b :: rest => joinFrom b rest

def gap (i i' j j' : Nat) : List Edit :=
  if i < i' ∧ j < j' then [⟨.replace, i, i', j, j'⟩]
  else if i < i' then [⟨.delete, i, i', j, j'⟩]
  else if j < j' then [⟨.insert, i, i', j, j'⟩]
  else []

def editsFrom (oldLength newLength : Nat) : Nat → Nat → List Block → List Edit
  | i, j, [] => gap i oldLength j newLength
  | i, j, b :: rest =>
    gap i b.old j b.new ++
      ⟨.equal, b.old, (b.old + b.size : Nat), b.new, (b.new + b.size : Nat)⟩ ::
        editsFrom oldLength newLength (b.old + b.size) (b.new + b.size) rest

end Block

namespace Matcher

def edits (m : Matcher) : List Edit :=
  Block.editsFrom m.old.size m.new.size 0 0
    (Block.joinTouching (m.blocks ⟨0, m.old.size, 0, m.new.size⟩))

end Matcher

def diffLines (old new : List String) : List Edit := (Matcher.ofLines old new).edits

end Retouch
