import Retouch.Formatter
import Retouch.Linting
import Retouch.Selection

/-! Reformatting of edited parts. For each modified file the formatted text is taken where lines were
edited; if the result does not mean the same as the edited text, the search for edits is repeated
with one more line of context, up to the whole file. Every file whose text changes is handed on before
the next one is looked at, and the linters run at the end. -/
namespace Retouch

def rule : String := String.ofList (List.replicate 80 '-') ++ "\n"

def dumpChunk (edited : List Int) (c : Chunk) : String :=
  let before := c.before.zipIdx.map (fun (line, k) =>
    let n := c.start + k
    let mark := if edited.contains n then "*" else " "
    s!"{mark}-{padLeft 4 (toString n)} {line}\n")
  let after := c.after.map (fun line => s!" +     {line}\n")
  rule ++ String.join before ++ String.join after

def dumpChunks (chunks : List Chunk) (edited : List Int) : String :=
  String.join (chunks.map (dumpChunk edited)) ++ rule

def objectionTo (edited result : Document) (chunks : List Chunk) (lines : List Int) : Run (Option String) := do
  let s ← get
  set { s with verified := s.verified + 1 }
  let objection := (← read).objection s.verified edited.text result.text
  Run.record (.verify objection.isNone result.text)
  if objection.isSome then Run.print (dumpChunks chunks lines)
  return objection

def verify (edited result : Document) (chunks : List Chunk) (lines : List Int) : Run Unit := do
  match ← objectionTo edited result chunks lines with
  | none => return
  | some reason => Run.fail (.notEquivalent reason)

def choose (edited : List Int) (chunks : List Chunk) : Run (List String) := do
  (chunks.flatMap (Chunk.report edited)).forM (Run.debug .chooser)
  return chooseLines edited chunks

structure Job where
  root : Path
  range : RevisionRange
  path : Path
  worktree : Document
  edited : Document
  sorted : Bool
  deriving DecidableEq

namespace Job

def file (j : Job) : Path := j.root.join j.path

inductive Outcome where
  | idle
  | accepted (result : Document)
  | objected (reason : String)

def countLines (d : Document) : Nat := d.lines.length

def attempt (j : Job) (context : Nat) (options : Settings) : Run (Outcome × Settings) := do
  let lines ← editedSince j.root j.range j.path j.edited context
  if j.sorted && lines.isEmpty && (j.edited.same j.worktree).1 then
    Run.debug .program s!"No changes in {j.file.render} after isort"
    return (.idle, options)
  let (formatted, options) ← Formatter.format j.file j.edited options
  Run.debug .program s!"Read {countLines j.edited} lines from edited file {j.file.render}"
  Run.debug .program s!"Black reformat resulted in {countLines formatted} lines"
  let edits ← diffDocuments j.edited formatted
  let chunks ← Run.ofOption (.unalternating edits) (Chunk.ofEdits? j.edited.lines formatted.lines edits)
  let result := Document.ofLines (← choose lines chunks)
  Run.debug .program (s!"Verifying that the {countLines j.edited} original edited lines and " ++
    s!"{countLines result} reformatted lines parse into an identical abstract syntax tree")
  match ← objectionTo j.edited result chunks lines with
  | none => return (.accepted result.keepText, options)
  | some reason => return (.objected reason, options)

def attempts (j : Job) : Nat → Nat → Settings → Run (Option Document × Settings)
  | left, context, options => do
    let (outcome, options) ← j.attempt context options
    match outcome with
    | .idle => return (none, options)
    | .accepted result => return (some result, options)
    | .objected reason =>
      match left with
      | 0 => Run.fail (.notEquivalent reason)
      | left + 1 =>
        Run.debug .program ("AST verification failed. Trying again with " ++
          s!"{context + 1} lines of context for `git diff -U`")
        j.attempts left (context + 1) options

end Job

abbrev Sink (σ : Type) := σ → Path → Document → Document → Run σ

def openJob (root : Path) (range : RevisionRange) (sorted : Bool) (options : Settings) (path : Path) :
    Run Job := do
  let file := root.join path
  let worktree := Document.ofText (← Run.readText file)
  let option (key : String) : Value := (options.lookup key).getD .none
  let edited ← if sorted then Imports.sort worktree file (option "config") (option "line_length")
    else pure worktree
  -- the lines are counted, so they are kept; without sorting both are the same document
  let counted := edited.keepLines
  return ⟨root, range, path, if sorted then worktree else counted, counted, sorted⟩

structure Progress (σ : Type) where
  gathered : σ
  options : Settings

def reformatFile (root : Path) (range : RevisionRange) (sorted : Bool) (sink : Sink σ)
    (progress : Progress σ) (path : Path) : Run (Progress σ) := do
  let job ← openJob root range sorted progress.options path
  let (result, options) ← job.attempts job.edited.lines.length 0 progress.options
  match result with
  | some result =>
    if !(result.same job.worktree).1 then
      return ⟨← sink progress.gathered job.file job.worktree result, options⟩
    else return ⟨progress.gathered, options⟩
  | none => return ⟨progress.gathered, options⟩

def commandsOf : Value → Run (List Value)
  | .list items => pure items
  | .text s => pure (s.toList.map (fun c => .text (String.singleton c)))
  | .table entries => pure (entries.map (fun e => .text e.1))
  | _ => Run.fail .wrongKind

def reformatEdited (sources : List Path) (range : RevisionRange) (sorted : Bool) (linters : Value)
    (options : Settings) (sink : Sink σ) (start : σ) : Run (Progress σ) := do
  let root ← commonRoot sources
  let files ← modifiedFiles sources range root
  let progress ← files.foldlM (reformatFile root range sorted sink) ⟨start, options⟩
  (← commandsOf linters).forM (fun command => Linting.run command root files range)
  return progress

def keepChanges : Sink (List (Path × Document × Document)) :=
  fun changes path old new => return (path, old, new) :: changes

end Retouch
