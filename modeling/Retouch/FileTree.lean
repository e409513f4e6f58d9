import Retouch.Path

/-! Files and directories by their place below the root. A path is followed name by name, as an
operating system does it: every name but the last must lead to a directory, also in front of a
double dot. -/
namespace Retouch

inductive Node where
  | directory
  /-- The content and the time of the last change, in microseconds since 1970. -/
  | file (content : ByteArray) (modified : Int)
  deriving Inhabited

structure FileTree where
  nodes : List (List String × Node)
  deriving Inhabited

inductive FileFault where
  | missing
  | isDirectory
  | notDirectory
  deriving Repr, DecidableEq

namespace FileTree

def empty : FileTree := ⟨[]⟩

def at? (t : FileTree) (place : List String) : Option Node :=
  if place.isEmpty then some .directory else t.nodes.lookup place

def put (t : FileTree) (place : List String) (node : Node) : FileTree :=
  if t.nodes.any (·.1 == place) then
    ⟨t.nodes.map (fun e => if e.1 == place then (place, node) else e)⟩
  else ⟨t.nodes ++ [(place, node)]⟩

def walk (t : FileTree) : List String → List String → Except FileFault (List String × Node)
  | here, [] =>
    match t.at? here with
    | some node => .ok (here, node)
    | none => .error .missing
  | here, name :: rest =>
    match t.at? here with
    | none => .error .missing
    | some (.file _ _) => .error .notDirectory
    | some .directory => if name == ".." then t.walk here.dropLast rest else t.walk (here ++ [name]) rest

def follow (t : FileTree) (cwd p : Path) : Except FileFault (List String × Node) :=
  t.walk [] (cwd.join p).parts

def isFile (t : FileTree) (cwd p : Path) : Bool :=
  match t.follow cwd p with
  | .ok (_, .file _ _) => true
  | _ => false

def isDirectory (t : FileTree) (cwd p : Path) : Bool :=
  match t.follow cwd p with
  | .ok (_, .directory) => true
  | _ => false

def isPresent (t : FileTree) (cwd p : Path) : Bool := (t.follow cwd p).toBool

def read (t : FileTree) (cwd p : Path) : Except FileFault (ByteArray × Int) :=
  match t.follow cwd p with
  | .ok (_, .file content modified) => .ok (content, modified)
  | .ok (_, .directory) => .error .isDirectory
  | .error fault => .error fault

def write (t : FileTree) (cwd p : Path) (content : ByteArray) (now : Int) : Except FileFault FileTree :=
  match t.follow cwd p with
  | .ok (_, .directory) => .error .isDirectory
  | .ok (place, .file _ _) => .ok (t.put place (.file content now))
  | .error .missing =>
    match t.follow cwd ⟨p.anchor, p.parts.dropLast⟩ with
    | .ok (place, .directory) => .ok (t.put (place ++ [p.name]) (.file content now))
    | .ok _ => .error .notDirectory
    | .error fault => .error fault
  | .error fault => .error fault

def makeDirectories (t : FileTree) (place : List String) : FileTree :=
  (List.range place.length).foldl (fun t n =>
    let here := place.take (n + 1)
    match t.at? here with
    | some _ => t
    | none => t.put here .directory) t

end FileTree
end Retouch
