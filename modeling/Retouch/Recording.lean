import Retouch.Data.Json
import Retouch.Program

/-! Runs on a recording: the files of a project and the answers of its tools, written down as data. A
tool that was not recorded leaves its input as it is, finds nothing, or objects to nothing. -/
namespace Retouch.Recording

def field (v : Value) (key : String) : Value := (v.get? key).getD .none

def items : Value → List Value
  | .list l => l
  | _ => []

def entries : Value → Settings
  | .table l => l
  | _ => []

def text (v : Value) : String := v.text?.getD ""

def home : Path := ⟨.root, ["project"]⟩

def bytesOf : Value → ByteArray
  | .text s => s.toUTF8
  | _ => .empty

def changed (table : List Value) (source : String) : Except String String :=
  match table.find? (fun e => (items e).head?.bind Value.text? == some source) with
  | none => .ok source
  | some e => match (items e).getD 1 .none with
    | .text s => .ok s
    | v => .error (text (field v "error"))

def gitAnswer (answers : Value) (args : List String) : GitAnswer :=
  match answers.get? (" ".intercalate args) with
  | none => ⟨.empty, if args.head? == some "show" then 128 else 0⟩
  | some (.text s) => ⟨s.toUTF8, 0⟩
  | some v => ⟨bytesOf (field v "out"), ((field v "code").number?).getD 0⟩

def tools (v : Value) : Tools where
  git := gitAnswer (field v "git")
  format _ s := changed (items (field v "format")) s
  sortImports := match v.get? "sort" with
    | none => none
    | some t => some (fun _ s => changed (items t) s)
  objection n _ _ := (items (field v "objections"))[n]?.bind Value.text?
  lint n _ := bytesOf ((items (field v "lint")).getD n .none)
  environment := (entries (field v "environment")).map (fun e => (e.1, text e.2))
  terminal := ⟨((field v "columns").number?).getD 80, false, none⟩

def tree (v : Value) : FileTree :=
  (entries (field v "files")).foldl (fun t e =>
    let place := (Path.resolve home (Path.ofString e.1)).parts
    (t.makeDirectories place.dropLast).put place (.file (bytesOf e.2) 0))
    (FileTree.empty.makeDirectories home.parts)

def session (v : Value) : Session where
  tree := tree v
  cwd := home
  log := #[]
  out := ""
  err := ""
  events := #[]
  console := none
  verified := 0
  linted := 0
  formatterConfig := none
  comparison := none
  projectRoots := []

structure Outcome where
  status : Int
  out : String
  err : String
  written : Settings

def writtenSince (before after : FileTree) : Settings :=
  after.nodes.filterMap (fun (place, node) => match node with
    | .directory => none
    | .file content _ =>
      let same := match before.at? place with
        | some (.file old _) => old == content
        | _ => false
      if same || !(home.parts.isPrefixOf place) then none
      else (String.fromUTF8? content).map (fun s => ("/".intercalate (place.drop home.parts.length), .text s)))

def run (v : Value) (args : List String) : Outcome :=
  let start := session v
  let (result, s) := ((Program.run "__main__" args (tools v)).run).run start
  let (status, complaint) := match result with
    | .ok n => (n, "")
    | .error (.exit n) => (n, "")
    | .error f => ((1 : Int), f.message ++ "\n")
  ⟨status, s.out, s.err ++ complaint, writtenSince start.tree s.tree⟩

end Retouch.Recording
