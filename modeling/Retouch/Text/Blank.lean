/-! White space, and texts set in words and columns. Words are separated by any Unicode white space;
layout of help texts knows only the six ASCII characters. -/
namespace Retouch

def isAsciiBlank (c : Char) : Bool :=
  c == ' ' || c == '\t' || c == '\n' || c == '\x0b' || c == '\x0c' || c == '\r'

def isWideBlank (c : Char) : Bool :=
  let n := c.toNat
  n == 0x85 || n == 0xa0 || n == 0x1680 || (0x2000 ≤ n && n ≤ 0x200a) || n == 0x2028 || n == 0x2029 ||
    n == 0x202f || n == 0x205f || n == 0x3000

def isBlank (c : Char) : Bool :=
  isAsciiBlank c || isWideBlank c || ('\x1c' ≤ c && c ≤ '\x1f')

def wordsAfter (word : List Char) : List Char → List String
  | [] => if word.isEmpty then [] else [String.ofList word.reverse]
  | c :: rest =>
    if isBlank c then
      if word.isEmpty then wordsAfter [] rest else String.ofList word.reverse :: wordsAfter [] rest
    else wordsAfter (c :: word) rest

def splitWords (text : String) : List String := wordsAfter [] text.toList

def sortTexts (texts : List String) : List String := texts.mergeSort (fun a b => decide (a ≤ b))

def blanks (n : Nat) : String := String.ofList (List.replicate n ' ')

def padRight (width : Nat) (s : String) : String := s ++ blanks (width - s.length)

def padLeft (width : Nat) (s : String) : String := blanks (width - s.length) ++ s

def cut (n : Nat) (s : String) : String := String.ofList (s.toList.take n)

end Retouch
