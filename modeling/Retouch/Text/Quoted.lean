import Retouch.Text.Printable

/-! A text in quotes, as messages show it. Single quotes are used unless the text has single quotes
and no double ones; the quote in use, backslashes and characters that are not printable are
escaped. -/
namespace Retouch.Quoted

def hexDigit (n : Nat) : Char := if n < 10 then Char.ofNat (48 + n) else Char.ofNat (87 + n)

def hex : Nat → Nat → List Char
  | 0, _ => []
  | width + 1, n => hex width (n / 16) ++ [hexDigit (n % 16)]

def escape (quote c : Char) : List Char :=
  if c == quote || c == '\\' then ['\\', c]
  else if c == '\n' then ['\\', 'n']
  else if c == '\r' then ['\\', 'r']
  else if c == '\t' then ['\\', 't']
  else if isPrintable c then [c]
  else if c.toNat < 0x100 then '\\' :: 'x' :: hex 2 c.toNat
  else if c.toNat < 0x10000 then '\\' :: 'u' :: hex 4 c.toNat
  else '\\' :: 'U' :: hex 8 c.toNat

def quoteFor (cs : List Char) : Char := if cs.contains '\'' && !cs.contains '"' then '"' else '\''

def body (cs : List Char) : List Char := cs.flatMap (escape (quoteFor cs))

def render (text : String) : String :=
  let cs := text.toList
  String.ofList (quoteFor cs :: body cs ++ [quoteFor cs])

end Retouch.Quoted
