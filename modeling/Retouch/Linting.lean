import Retouch.Repository
import Retouch.Text.Numeral

/-! Linters report lines of the form `path:line: text` or `path:line:column: text`. Those that fall on
a line edited since the source of the range are passed on, all others are dropped. -/
namespace Retouch.Linting

def location? (before : List Char) : List Char → Option (List Char)
  | [] => none
  | ':' :: ' ' :: _ => some before.reverse
  | c :: rest => location? (c :: before) rest

def place? (message : String) : Option (String × Int) :=
  match location? [] message.toList with
  | none => none
  | some location =>
    match (String.ofList location).splitOn ":" with
    | [path, line] => (parseInteger? line).map (fun n => (path, n))
    | [path, line, column] =>
      match parseInteger? line, parseInteger? column with
      | some n, some _ => some (path, n)
      | _, _ => none
    | _ => none

def withoutEnd (line : String) : String := String.ofList line.toList.dropLast

def parseLine (line : String) (root : Path) : Run (Option (Path × Int)) := do
  match place? (withoutEnd line) with
  | none =>
    Run.debug .linting s!"Unparseable linter output: {withoutEnd line}"
    return none
  | some (path, n) =>
    let absolute := Path.absolute (← get).cwd (Path.ofString path)
    let below ← Run.ofOption (.outside absolute root) (absolute.relativeTo? root)
    return some (below, n)

def linesWithEnds (line : List Char) : List Char → List String
  | [] => if line.isEmpty then [] else [String.ofList line.reverse]
  | '\n' :: rest => String.ofList ('\n' :: line).reverse :: linesWithEnds [] rest
  | c :: rest => linesWithEnds (c :: line) rest

def isWideByte (b : UInt8) : Bool := 0x80 ≤ b

def cutShort? (bytes : ByteArray) : Option String :=
  [1, 2, 3].findSome? (fun n =>
    let head := bytes.extract 0 (bytes.size - n)
    let tail := bytes.extract (bytes.size - n) bytes.size
    let width := match tail.toList with
      | b :: _ => if 0xf0 ≤ b && b < 0xf5 then 4 else if 0xe0 ≤ b then 3 else if 0xc2 ≤ b then 2 else 0
      | [] => 0
    if n ≤ bytes.size && n < width && tail.toList.tail.all (fun b => 0x80 ≤ b && b < 0xc0) then
      String.fromUTF8? head
    else none)

/-- What a linter printed, line by line, and whether it could be read to the end. Output that is cut
short inside a character is read up to the last whole line. -/
def outputLines (bytes : ByteArray) : List String × Bool :=
  match String.fromUTF8? bytes with
  | some text => (linesWithEnds [] (readBreaks text).toList, true)
  | none =>
    match cutShort? bytes with
    | some text => ((linesWithEnds [] (readBreaks text).toList).filter (·.endsWith "\n"), false)
    | none => ([], false)

def relay (root : Path) (range : RevisionRange) (line : String) : Run Unit := do
  match ← parseLine line root with
  | none => return
  | some (path, n) =>
    let edited ← editedInTarget root range path 0
    if edited.contains n then Run.print line

def run (command : Value) (root : Path) (files : List Path) (range : RevisionRange) : Run Unit := do
  if files.isEmpty then return
  if range.target != .workingTree then Run.fail .lintedCommit
  match command with
  | .text command =>
    let args := splitWords command ++ (Path.sort files).map (fun p => (root.join p).render)
    Run.record (.lint args)
    let s ← get
    set { s with linted := s.linted + 1 }
    let (lines, whole) := outputLines ((← read).lint s.linted args)
    lines.forM (relay root range)
    if !whole then Run.fail .undecodable
  | _ => Run.fail .lacking

end Retouch.Linting
