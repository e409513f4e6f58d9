import Retouch.Data.Value
import Retouch.Document
import Retouch.Failure
import Retouch.Text.LineBreak

/-! A run of the program: it reads and writes a file tree, asks the tools it works with, and leaves
output, log and a record of its questions. The tools are functions, so a run is a function of the
tree and of their answers; the session keeps what later steps can see, also after a failure. -/
namespace Retouch

structure GitAnswer where
  output : ByteArray
  status : Int

structure FormatMode where
  lineLength : Value
  normalizeStrings : Bool
  deriving Repr

structure Terminal where
  columns : Int
  interactive : Bool
  highlight : Option (String → String)

structure Tools where
  git : List String → GitAnswer
  format : FormatMode → String → Except String String
  sortImports : Option (Settings → String → Except String String)
  objection : Nat → String → String → Option String
  lint : Nat → List String → ByteArray
  environment : List (String × String)
  terminal : Terminal

inductive Event where
  | git (cwd : Path) (args : List String)
  | format (mode : FormatMode) (source : String)
  | sortImports (settings : Settings) (source : String)
  | verify (passed : Bool) (result : String)
  | lint (args : List String)
  | command (cwd : Path) (args : List String)
  | workload (name : String) (params : Settings)
  | tracer (message : List Value)
  | child (args : List String)

inductive Level where
  | debug
  | info
  | error
  deriving Repr, DecidableEq

def Level.name : Level → String
  | .debug => "DEBUG"
  | .info => "INFO"
  | .error => "ERROR"

def Level.number : Level → Int
  | .debug => 10
  | .info => 20
  | .error => 40

inductive Channel where
  | git
  | diff
  | chooser
  | linting
  | importSorting
  | program
  deriving Repr, DecidableEq

def Channel.name : Channel → String
  | .git => "darker.git"
  | .diff => "darker.diff"
  | .chooser => "darker.chooser"
  | .linting => "darker.linting"
  | .importSorting => "darker.import_sorting"
  | .program => "darker.__main__"

structure LogRecord where
  level : Level
  channel : Channel
  message : String

structure Console where
  threshold : Int
  brief : Bool
  programName : String

def Console.line (c : Console) (r : LogRecord) : String :=
  if c.brief then s!"{r.level.name}: {r.message}\n"
  else
    let channel := if r.channel == .program then c.programName else r.channel.name
    s!"{r.level.name}:{channel}:{r.message}\n"

structure ComparisonKey where
  root : Path
  source : String
  target : String
  commonAncestor : Bool
  path : Path
  context : Int
  deriving DecidableEq

structure Session where
  tree : FileTree
  cwd : Path
  log : Array LogRecord
  out : String
  err : String
  events : Array Event
  console : Option Console
  verified : Nat
  linted : Nat
  formatterConfig : Option ((Path × Value) × Settings)
  comparison : Option (ComparisonKey × List Int)
  projectRoots : List (List String × Path)

abbrev Run := ReaderT Tools (ExceptT Failure (StateM Session))

namespace Run

def fail (f : Failure) : Run α := throw f

def note (level : Level) (channel : Channel) (message : String) : Run Unit :=
  modify fun s =>
    let r : LogRecord := ⟨level, channel, message⟩
    let err := match s.console with
      | some c => if c.threshold ≤ level.number then s.err ++ c.line r else s.err
      | none => s.err
    { s with log := s.log.push r, err := err }

def debug (channel : Channel) (message : String) : Run Unit := note .debug channel message

def print (text : String) : Run Unit := modify fun s => { s with out := s.out ++ text }

def complain (text : String) : Run Unit := modify fun s => { s with err := s.err ++ text }

def record (e : Event) : Run Unit := modify fun s => { s with events := s.events.push e }

def ofOption (f : Failure) : Option α → Run α
  | some a => pure a
  | none => fail f

def decode (bytes : ByteArray) : Run String := ofOption .undecodable (String.fromUTF8? bytes)

def readBytes (p : Path) : Run (ByteArray × Int) := do
  let s ← get
  match s.tree.read s.cwd p with
  | .ok found => pure found
  | .error fault => fail (.file fault p.render)

def readText (p : Path) : Run String := do
  let (bytes, _) ← readBytes p
  return readBreaks (← decode bytes)

def writeText (p : Path) (text : String) : Run Unit := do
  let s ← get
  match s.tree.write s.cwd p text.toUTF8 0 with
  | .ok tree => set { s with tree := tree }
  | .error fault => fail (.file fault p.render)

end Run
end Retouch
