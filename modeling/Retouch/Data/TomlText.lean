import Retouch.Data.Value
import Retouch.Failure

/-! Configuration as TOML text: one `key = value` line each, in order, without the keys that have no
value; list items stand on lines of their own. Tables follow as sections, breadth first, and lists
with tables as repeated sections. -/
namespace Retouch.Toml

def replaceText (s old new : String) : String := new.intercalate (s.splitOn old)

/-- What joins two pieces that a numeric escape parts: a code point after an odd number of
backslashes, else the bare letter. -/
def joiner (head : List Char) : String :=
  let marks := (head.reverse.takeWhile (· == '\\')).length
  let turns := if marks < head.length then marks else marks - 1
  if marks = 0 || turns % 2 == 1 then "x" else "u00"

/-- Joins the pieces between numeric escapes. A text cannot start with its only escape. -/
def joinEscapes (first : String) : List String → Except Failure String
  | [] => .ok first
  | next :: rest =>
    if first == "" then
      let head := replaceText next "\\\\" "\\"
      if head == "" then .error .emptyPiece
      else match rest with
        | [] => .error .noPiece
        | after :: rest => joinEscapes (head ++ joiner head.toList ++ after) rest
    else
      let head := replaceText first "\\\\" "\\"
      joinEscapes (head ++ joiner head.toList ++ next) rest

def quoteBody (shown : String) : Except Failure String := do
  let inner := String.ofList (shown.toList.drop 1).dropLast
  let body :=
    if shown.startsWith "'" then replaceText (replaceText inner "\\'" "'") "\"" "\\\""
    else if shown.startsWith "\"" then inner
    else shown
  match body.splitOn "\\x" with
  | [] => return "\"\""
  | first :: rest => return "\"" ++ (← joinEscapes first rest) ++ "\""

def quote (s : String) : Except Failure String := quoteBody (Quoted.render s)

def writeFloat (x : Float) : String := replaceText (replaceText (Decimal.render x) "e+0" "e+") "e-0" "e-"

def listText (items : List String) : String :=
  "[" ++ String.join (items.map (fun item => s!"\n    {item},")) ++ "\n]"

mutual

def writeValue : Value → Except Failure String
  | .none => quoteBody "None"
  | .bool b => .ok (if b then "true" else "false")
  | .int n => .ok (toString n)
  | .float x => .ok (writeFloat x)
  | .text s => quote s
  | .list items => (writeAll items).map listText
  | .table entries => (entries.mapM (fun e => quote e.1)).map listText

def writeAll : List Value → Except Failure (List String)
  | [] => .ok []
  | v :: rest => do
    let item ← writeValue v
    return item :: (← writeAll rest)

end

def writeList (items : List Value) : Except Failure String := (writeAll items).map listText

def isPlainKey (key : String) : Bool :=
  let cs := key.toList
  let stem := if cs.getLast? == some '\n' then cs.dropLast else cs
  !stem.isEmpty && stem.all (fun c => c.isAlphanum || c == '_' || c == '-')

def writeKey (key : String) : Except Failure String := if isPlainKey key then .ok key else quote key

def isTable : Value → Bool
  | .table _ => true
  | _ => false

def hasTable : Value → Bool
  | .list items => items.any isTable
  | _ => false

def entriesOf : Value → Except Failure Settings
  | .table entries => .ok entries
  | .list [] => .ok []
  | .text "" => .ok []
  | _ => .error .wrongKind

def under (base key : String) : String := if base == "" then key else base ++ "." ++ key

structure Part where
  text : String
  arrays : String
  sections : Settings

def Part.whole (p : Part) : String := p.text ++ p.arrays

mutual

def writePart : Nat → String → Settings → Except Failure Part
  | 0, _, _ => .ok ⟨"", "", []⟩
  | fuel + 1, base, entries => entries.foldlM (fun p (key, v) => do
      let name ← writeKey key
      match v with
      | .table inner => return { p with sections := p.sections.put name (.table inner) }
      | .none => return p
      | .list items =>
        if hasTable v then
          let written ← items.mapM (writeItem fuel (under base name))
          return { p with arrays := p.arrays ++ String.join written }
        else return { p with text := p.text ++ s!"{name} = {← writeValue v}\n" }
      | v => return { p with text := p.text ++ s!"{name} = {← writeValue v}\n" }) ⟨"", "", []⟩

def writeItem : Nat → String → Value → Except Failure String
  | 0, _, _ => .ok ""
  | fuel + 1, name, v => do
    let p ← writePart fuel name (← entriesOf v)
    let head := s!"[[{name}]]\n"
    let own := p.whole
    let inner ← writeNested fuel name p.sections
    return if own.startsWith "[" then head ++ "\n" ++ own ++ inner else head ++ own ++ "\n" ++ inner

def writeNested : Nat → String → Settings → Except Failure String
  | 0, _, _ => .ok ""
  | _ + 1, _, [] => .ok ""
  | fuel + 1, name, sections => do
    let (text, deeper) ← sections.foldlM (fun (acc : String × Settings) (key, v) => do
      let full := name ++ "." ++ key
      let p ← writePart fuel full (← entriesOf v)
      let own := p.whole
      let text := if own == "" then acc.1 else acc.1 ++ s!"[{full}]\n" ++ own
      return (text, p.sections.foldl (fun d e => d.put (key ++ "." ++ e.1) e.2) acc.2)) ("", [])
    return text ++ (← writeNested fuel name deeper)

end

def writeSections : Nat → String → Settings → Except Failure String
  | 0, text, _ => .ok text
  | _ + 1, text, [] => .ok text
  | fuel + 1, text, sections => do
    let (text, deeper) ← sections.foldlM (fun (acc : String × Settings) (name, v) => do
      let p ← writePart fuel name (← entriesOf v)
      let own := p.whole
      let gap := if acc.1 == "" || acc.1.endsWith "\n\n" then "" else "\n"
      let text := if own != "" || p.sections.isEmpty then acc.1 ++ gap ++ s!"[{name}]\n" ++ own else acc.1
      return (text, p.sections.foldl (fun d e => d.put (name ++ "." ++ e.1) e.2) acc.2)) (text, [])
    writeSections fuel text deeper

mutual

def weight : Value → Nat
  | .list items => weightAll items + 1
  | .table entries => weightEntries entries + 1
  | _ => 1

def weightAll : List Value → Nat
  | [] => 0
  | v :: rest => weight v + weightAll rest

def weightEntries : List (String × Value) → Nat
  | [] => 0
  | (_, v) :: rest => weight v + weightEntries rest

end

def write (settings : Settings) : Except Failure String := do
  let fuel := 4 * weightEntries settings + 4
  let p ← writePart fuel "" settings
  writeSections fuel p.whole p.sections

end Retouch.Toml
