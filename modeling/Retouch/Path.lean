/-! Paths as lists of names. Empty names and single dots disappear when a path is read, double dots
stay until the path is resolved, and exactly two leading slashes are a root of their own. -/
namespace Retouch

inductive Anchor where
  | relative
  | root
  | doubleRoot
  deriving Repr, DecidableEq, Inhabited

structure Path where
  anchor : Anchor
  parts : List String
  deriving Repr, DecidableEq, Inhabited

namespace Path

def namesAfter (name : List Char) : List Char → List String
  | [] => [String.ofList name.reverse]
  | '/' :: rest => String.ofList name.reverse :: namesAfter [] rest
  | c :: rest => namesAfter (c :: name) rest

def ofString (s : String) : Path :=
  let parts := (namesAfter [] s.toList).filter (fun n => n != "" && n != ".")
  let slashes := (s.toList.takeWhile (· == '/')).length
  ⟨if slashes == 0 then .relative else if slashes == 2 then .doubleRoot else .root, parts⟩

def prefixText : Anchor → String
  | .relative => ""
  | .root => "/"
  | .doubleRoot => "//"

def render (p : Path) : String :=
  if p.anchor == .relative && p.parts.isEmpty then "."
  else prefixText p.anchor ++ "/".intercalate p.parts

def isAbsolute (p : Path) : Bool := p.anchor != .relative

def join (p q : Path) : Path := if q.isAbsolute then q else ⟨p.anchor, p.parts ++ q.parts⟩

def name (p : Path) : String := p.parts.getLast?.getD ""

def suffix (p : Path) : String :=
  let cs := p.name.toList
  let tail := (cs.reverse.takeWhile (· != '.')).reverse
  let stem := cs.length - tail.length - 1
  if cs.contains '.' && 0 < stem && !tail.isEmpty then String.ofList ('.' :: tail) else ""

def ancestors (p : Path) : List Path :=
  (List.range p.parts.length).map (fun n => ⟨p.anchor, p.parts.take n⟩)

def settle (done : List String) : List String → List String
  | [] => done.reverse
  | ".." :: rest => settle done.tail rest
  | name :: rest => settle (name :: done) rest

def absolute (cwd p : Path) : Path := cwd.join p

def resolve (cwd p : Path) : Path := ⟨.root, settle [] (cwd.join p).parts⟩

def key (p : Path) : List String :=
  match p.anchor with
  | .relative => p.parts
  | anchor => prefixText anchor :: p.parts

def relativeTo? (p base : Path) : Option Path :=
  if p.anchor == base.anchor && base.parts.isPrefixOf p.parts then
    some ⟨.relative, p.parts.drop base.parts.length⟩
  else none

def leNames : List String → List String → Bool
  | [], _ => true
  | _ :: _, [] => false
  | a :: as, b :: bs => if a == b then leNames as bs else decide (a < b)

def sort (ps : List Path) : List Path := ps.mergeSort (fun p q => leNames p.key q.key)

end Path
end Retouch
