/-! Lines of a text. A line ends at any character that Unicode counts as a break, and a carriage
return with the line feed after it is one break. Joining writes one line feed after each line, so a
text comes back unchanged exactly when line feeds are its only breaks and it does not stop inside a
line. -/
namespace Retouch

def isLineBreak (c : Char) : Bool :=
  c == '\n' || c == '\r' || c == '\x0b' || c == '\x0c' || c == '\x1c' || c == '\x1d' ||
    c == '\x1e' || c == '\u0085' || c == '\u2028' || c == '\u2029'

def linesAfter (line : List Char) : List Char → List String
  | [] => if line.isEmpty then [] else [String.ofList line.reverse]
  | '\r' :: '\n' :: rest => String.ofList line.reverse :: linesAfter [] rest
  | c :: rest =>
    if isLineBreak c then String.ofList line.reverse :: linesAfter [] rest
    else linesAfter (c :: line) rest

def splitLines (text : String) : List String := linesAfter [] text.toList

def joinLines (lines : List String) : String := String.join (lines.map (· ++ "\n"))

/-- Text as it is read from a file or a pipe: every carriage return, alone or before a line feed,
counts as a line feed. -/
def unifyBreaks : List Char → List Char → List Char
  | acc, [] => acc.reverse
  | acc, '\r' :: '\n' :: rest => unifyBreaks ('\n' :: acc) rest
  | acc, '\r' :: rest => unifyBreaks ('\n' :: acc) rest
  | acc, c :: rest => unifyBreaks (c :: acc) rest

def readBreaks (text : String) : String := String.ofList (unifyBreaks [] text.toList)

end Retouch
