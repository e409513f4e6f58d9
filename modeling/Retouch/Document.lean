import Retouch.Text.LineBreak

/-! A document is known by its text, by its lines, or by both, and reading the form that is missing
fills it in. Comparison looks at the forms that are present, so it is stated on the stored forms and
returns the other document as the comparison leaves it. -/
namespace Retouch

structure Document where
  text? : Option String
  lines? : Option (List String)
  modified : String
  deriving Repr, Inhabited, DecidableEq

namespace Document

def empty : Document := ⟨none, none, ""⟩

def ofText (text : String) : Document := ⟨some text, none, ""⟩

def ofLines (lines : List String) : Document := ⟨none, some lines, ""⟩

def text (d : Document) : String := d.text?.getD (joinLines (d.lines?.getD []))

def lines (d : Document) : List String := d.lines?.getD (splitLines (d.text?.getD ""))

def keepText (d : Document) : Document := { d with text? := some d.text }

def keepLines (d : Document) : Document := { d with lines? := some d.lines }

def lacksText (d : Document) : Bool := d.text?.getD "" == ""

def lacksLines (d : Document) : Bool := (d.lines?.getD []).isEmpty

def same (d other : Document) : Bool × Document :=
  if d.lacksText then
    if d.lacksLines then (other.lacksText && other.lacksLines, other)
    else (d.lines?.getD [] == other.lines, other.keepLines)
  else (d.text?.getD "" == other.text, other.keepText)

def summary (d : Document) : String := s!"TextDocument([{d.lines.length} lines])"

end Document
end Retouch
