/-! A cursor over bytes that hands out one line at a time and can step back. The cursor is the part
not yet read; every attempt to read a line, also one at the end, first puts the cursor on the
history. -/
namespace Retouch

structure Buffer where
  rest : List UInt8
  history : List (List UInt8)
  deriving Repr

namespace Buffer

inductive Fault where
  | ended
  | undecodable
  | noHistory
  | forward
  deriving Repr, DecidableEq

def ofBytes (bytes : List UInt8) : Buffer := ⟨bytes, []⟩

def lineFeed : UInt8 := 10

def cut : List UInt8 → List UInt8 × List UInt8
  | [] => ([], [])
  | b :: rest => if b == lineFeed then ([], rest) else let (line, after) := cut rest; (b :: line, after)

def decode (line : List UInt8) : Except Fault String :=
  match String.fromUTF8? (ByteArray.mk line.toArray) with
  | some text => .ok text
  | none => .error .undecodable

def next (b : Buffer) : Except Fault String × Buffer :=
  match b.rest with
  | [] => (.error .ended, ⟨[], [] :: b.history⟩)
  | rest => (decode (cut rest).1, ⟨(cut rest).2, rest :: b.history⟩)

def stepBack : Nat → Buffer → Except Fault Unit × Buffer
  | 0, b => (.ok (), b)
  | n + 1, b =>
    match b.history with
    | [] => (.error .noHistory, b)
    | rest :: history => stepBack n ⟨rest, history⟩

def seek (delta : Int) (b : Buffer) : Except Fault Unit × Buffer :=
  if delta ≤ 0 then stepBack (-delta).toNat b else (.error .forward, b)

def peekStarts (starts : List String) (b : Buffer) : Except Fault Bool × Buffer :=
  let (line, after) := b.next
  let (_, back) := after.stepBack 1
  match line with
  | .ok text => (.ok (starts.any (fun s => s.isPrefixOf text)), back)
  | .error .ended => (.ok false, back)
  | .error fault => (.error fault, back)

def drain (b : Buffer) : Except Fault (List String) × Buffer :=
  go [] (b.rest.length + 1) b
where
  go (lines : List String) : Nat → Buffer → Except Fault (List String) × Buffer
    | 0, b => (.ok lines.reverse, b)
    | n + 1, b =>
      match b.next with
      | (.ok line, after) => go (line :: lines) n after
      | (.error .ended, after) => (.ok lines.reverse, after)
      | (.error fault, after) => (.error fault, after)

end Buffer
end Retouch
