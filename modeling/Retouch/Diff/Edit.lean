/-! Edit scripts. A step says what happens to a range of old lines and which range of new lines it
corresponds to; ranges are half open and count from zero. Scripts may come from outside, so the
bounds are integers and a kind that is none of the four is kept by name. Two things are read off a
script: the numbers of the edited lines, counted from one in the new text with some context on both
sides of every edit, and chunks, which pair the lines of a range before formatting with those after
it. -/
namespace Retouch

inductive EditKind where
  | equal
  | replace
  | delete
  | insert
  | other (name : String)
  deriving Repr, DecidableEq, Inhabited

namespace EditKind

def name : EditKind → String
  | equal => "equal"
  | replace => "replace"
  | delete => "delete"
  | insert => "insert"
  | other name => name

def ofName : String → EditKind
  | "equal" => equal
  | "replace" => replace
  | "delete" => delete
  | "insert" => insert
  | name => other name

end EditKind

structure Edit where
  kind : EditKind
  oldStart : Int
  oldStop : Int
  newStart : Int
  newStop : Int
  deriving Repr, DecidableEq, Inhabited

namespace Edit

def isEqual (e : Edit) : Bool := e.kind == .equal

def alternating : List Edit → Bool
  | e :: f :: rest => e.isEqual != f.isEqual && alternating (f :: rest)
  | _ => true

end Edit

/-- The elements from `lo` up to `hi`, where a negative bound counts from the end and a bound outside
the list stops at it. -/
def slice (xs : List α) (lo hi : Int) : List α :=
  let bound (i : Int) : Nat := if i < 0 then (i + xs.length).toNat else i.toNat
  (xs.take (bound hi)).drop (bound lo)

def intsFrom (lo hi : Int) : List Int := (List.range (hi - lo).toNat).map (fun (k : Nat) => lo + k)

def editedFrom (context last : Int) : Int → List Edit → List Int
  | _, [] => []
  | first, e :: rest =>
    if e.isEqual then editedFrom context last first rest
    else
      let stop := min (e.newStop + 1 + context) (last + 1)
      intsFrom (max (e.newStart + 1 - context) first) stop ++ editedFrom context last stop rest

def editedLines (edits : List Edit) (context : Int) : List Int :=
  match edits.getLast? with
  | none => []
  | some e => editedFrom context e.newStop 1 edits

def editedLines? (edits : List Edit) (context : Int) : Option (List Int) :=
  if Edit.alternating edits then some (editedLines edits context) else none

structure Chunk where
  start : Int
  before : List String
  after : List String
  deriving Repr, DecidableEq, Inhabited

namespace Chunk

def ofEdit (old new : List String) (e : Edit) : Chunk :=
  ⟨e.oldStart + 1, slice old e.oldStart e.oldStop, slice new e.newStart e.newStop⟩

def ofEdits? (old new : List String) (edits : List Edit) : Option (List Chunk) :=
  if Edit.alternating edits then some (edits.map (ofEdit old new)) else none

end Chunk

end Retouch
