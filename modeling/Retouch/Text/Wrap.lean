import Retouch.Failure
import Retouch.Text.Blank
import Retouch.Text.Word

/-! Filling of paragraphs. A text is cut into blanks and words, words also after a hyphen between
letters and around a dash of several hyphens; the pieces are put on lines from left to right. Blanks
at the end of a line are dropped, at its start as well once there is a line, and a piece longer than
a line is broken. -/
namespace Retouch.Wrap

def isPunctuated (c : Char) : Bool :=
  isWordChar c || c == '!' || c == '"' || c == '\'' || c == '&' || c == '.' || c == ',' || c == '?'

def startsDash (cs : List Char) : Bool :=
  let hyphens := cs.takeWhile (· == '-')
  2 ≤ hyphens.length && (cs.drop hyphens.length).head?.any isWordChar

def dashHere (before cs : List Char) : Bool := before.head?.any isPunctuated && startsDash cs

/-- Letters that allow a break behind the hyphen that follows them: two, or one after another
hyphen. -/
def lettersBefore : List Char → Bool
  | a :: b :: rest =>
    isWordLetter a && (isWordLetter b || (b == '-' && rest.head?.any isWordLetter))
  | _ => false

def lettersAfter : List Char → Bool
  | a :: '-' :: b :: _ => isWordLetter a && isWordLetter b
  | a :: b :: _ => isWordLetter a && isWordLetter b
  | _ => false

inductive Mode where
  | blank
  | dash
  | word
  deriving DecidableEq

def modeAt (before : List Char) (cs : List Char) : Mode :=
  match cs with
  | [] => .word
  | c :: _ => if isAsciiBlank c then .blank else if dashHere before cs then .dash else .word

def piecesAfter (before : List Char) (mode : Mode) (piece : List Char) : List Char → List (List Char)
  | [] => if piece.isEmpty then [] else [piece.reverse]
  | c :: rest =>
    let begin := modeAt before (c :: rest)
    if piece.isEmpty then piecesAfter (c :: before) begin [c] rest
    else
      match mode with
      | .blank =>
        if isAsciiBlank c then piecesAfter (c :: before) .blank (c :: piece) rest
        else piece.reverse :: piecesAfter (c :: before) begin [c] rest
      | .dash =>
        if c == '-' then piecesAfter (c :: before) .dash (c :: piece) rest
        else piece.reverse :: piecesAfter (c :: before) begin [c] rest
      | .word =>
        if c == '-' && lettersBefore before && lettersAfter rest then
          (c :: piece).reverse :: piecesAfter (c :: before) .word [] rest
        else if isAsciiBlank c || dashHere before (c :: rest) then
          piece.reverse :: piecesAfter (c :: before) begin [c] rest
        else piecesAfter (c :: before) .word (c :: piece) rest

def pieces (cs : List Char) : List (List Char) := piecesAfter [] .word [] cs

def expandTabs : Nat → List Char → List Char
  | _, [] => []
  | column, c :: rest =>
    if c == '\t' then
      let n := 8 - column % 8
      List.replicate n ' ' ++ expandTabs (column + n) rest
    else if c == '\n' || c == '\r' then ' ' :: expandTabs 0 rest
    else (if isAsciiBlank c then ' ' else c) :: expandTabs (column + 1) rest

def allBlank (piece : List Char) : Bool := piece.all isBlank

def takeFitting (width : Int) : List (List Char) → Nat → List (List Char) → List (List Char) × Nat × List (List Char)
  | line, used, [] => (line, used, [])
  | line, used, p :: rest =>
    if (used + p.length : Int) ≤ width then takeFitting width (p :: line) (used + p.length) rest
    else (line, used, p :: rest)

def breakAt (width : Int) (used : Nat) (piece : List Char) : Nat :=
  let room : Nat := if width < 1 then 1 else (width - used).toNat
  if room < piece.length then
    let head := (piece.take room).reverse.dropWhile (· != '-')
    match head with
    | _ :: before => if before.any (· != '-') then head.length else room
    | [] => room
  else room

def dropBlankHead : List (List Char) → List (List Char)
  | [] => []
  | p :: rest => if allBlank p then rest else p :: rest

def layOut (width : Int) (first next : List Char) : Nat → Bool → List (List Char) → List (List Char)
  | 0, _, _ => []
  | _ + 1, _, [] => []
  | fuel + 1, started, ps =>
    let indent := if started then next else first
    let width' := width - indent.length
    let ps := if started then dropBlankHead ps else ps
    let (line, used, left) := takeFitting width' [] 0 ps
    let (line, left) := match left with
      | p :: rest =>
        if width' < (p.length : Int) then
          let n := breakAt width' used p
          (p.take n :: line, p.drop n :: rest)
        else (line, left)
      | [] => (line, left)
    let line := dropBlankHead line
    if line.isEmpty then layOut width first next fuel started left
    else (indent ++ line.reverse.flatten) :: layOut width first next fuel true left

def lines (text : String) (width : Int) (first next : String) : List String :=
  let ps := pieces (expandTabs 0 text.toList)
  let fuel := 2 * ps.flatten.length + ps.length + 2
  (layOut width first.toList next.toList fuel false ps).map String.ofList

def fill (text : String) (width : Int) (first next : String) : String :=
  "\n".intercalate (lines text width first next)

def fillLine (line : String) (width : Int) (indent : String) : String :=
  let cs := line.toList
  let offset := if cs.any isWordChar then (cs.takeWhile (fun c => !isWordChar c)).length else 0
  fill line width indent (indent ++ String.ofList (List.replicate offset ' '))

def squeezeFrom (inBlank : Bool) : List Char → List Char
  | [] => []
  | c :: rest =>
    if isAsciiBlank c then (if inBlank then squeezeFrom true rest else ' ' :: squeezeFrom true rest)
    else c :: squeezeFrom false rest

def strip (cs : List Char) : List Char := ((cs.dropWhile isBlank).reverse.dropWhile isBlank).reverse

def squeeze (text : String) : String := String.ofList (strip (squeezeFrom false text.toList))

def fillText (text : String) (width : Int) (indent : String) : String :=
  if text.contains '\n' then
    "\n".intercalate ((text.splitOn "\n").map (fun line => fillLine line width indent))
  else fill (squeeze text) width indent indent

def checked (width : Int) (result : α) : Except Failure α :=
  if width ≤ 0 then .error (.badWidth width) else .ok result

end Retouch.Wrap
