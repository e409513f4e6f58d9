import Retouch.Diff.Match
import Retouch.Moment
import Retouch.Revision
import Retouch.Text.Blank

/-! Questions to the repository: the content of a file at a revision, the files that were modified,
and the lines of a file that were edited since the source of a range. The answer to the last
comparison is kept, and it is not refreshed when files change. -/
namespace Retouch

def gitLine (args : List String) : String := " ".intercalate ("git" :: args)

def askGit (root : Path) (args : List String) : Run GitAnswer := do
  Run.debug .git s!"[{root.render}]$ {gitLine args}"
  Run.record (.git root args)
  return (← read).git args

def loadDocument (date : Moment → String) (p : Path) : Run Document := do
  let (bytes, modified) ← Run.readBytes p
  let text ← Run.decode bytes
  return { Document.ofText (readBreaks text) with modified := date (Moment.ofMicroseconds modified) }

/-- A file at a revision; a file that Git does not know there is empty. -/
def contentAt (path : Path) (revision : String) (root : Path) : Run Document := do
  if revision == workingTreeName then loadDocument Moment.short (root.join path)
  else
    let answer ← askGit root ["show", s!"{revision}:./{path.render}"]
    if answer.status == 128 then return Document.empty
    else if answer.status != 0 then Run.fail (.git answer.status)
    else return Document.ofText (readBreaks (← Run.decode answer.output))

def gitLines (root : Path) (args : List String) : Run (List String) := do
  let answer ← askGit root args
  if answer.status == 128 then Run.fail (.exit 123)
  else if answer.status != 0 then Run.fail (.git answer.status)
  else return splitLines (← Run.decode answer.output)

def shouldReformat (p : Path) : Run Bool := do
  let s ← get
  return s.tree.isPresent s.cwd p && p.suffix == ".py"

def baseRevision (range : RevisionRange) (root : Path) : Run String := do
  if range.commonAncestor then
    let other := if range.target.isWorkingTree then "HEAD" else range.target.name
    let lines ← gitLines root ["merge-base", range.source, other]
    Run.ofOption .noAncestor lines.head?
  else return range.source

/-- The ends of the range as arguments. The target comes before the first pair of dashes, which the
source may itself be. -/
def endsOf (base : String) (target : Target) : List String :=
  if target.isWorkingTree then [base]
  else if base == "--" then [target.name, base]
  else [base, target.name]

def belowRoot (root : Path) (paths : List Path) : Run (List String) := do
  let cwd := (← get).cwd
  let below ← paths.mapM (fun p =>
    let resolved := Path.resolve cwd p
    Run.ofOption (.outside resolved root) (resolved.relativeTo? root))
  return sortTexts (below.eraseDups.map Path.render)

def modifiedFiles (paths : List Path) (range : RevisionRange) (root : Path) : Run (List Path) := do
  let below ← belowRoot root paths
  let base ← baseRevision range root
  let changed ← gitLines root (["diff", "--name-only", "--relative"] ++ endsOf base range.target ++ "--" :: below)
  let added ← if range.target.isWorkingTree then
      gitLines root (["ls-files", "--others", "--exclude-standard", "--"] ++ below)
    else pure []
  let files ← (changed ++ added).map Path.ofString |>.eraseDups.filterM (fun p => shouldReformat (root.join p))
  return Path.sort files

def diffDocuments (old new : Document) : Run (List Edit) := do
  let edits := diffLines old.lines new.lines
  let plural := if 1 < edits.length then "s" else ""
  Run.debug .diff s!"Diff between edited and reformatted has {edits.length} opcode{plural}"
  return edits

def editedSince (root : Path) (range : RevisionRange) (path : Path) (content : Document) (context : Int) :
    Run (List Int) := do
  let old ← contentAt path range.source root
  let edits ← diffDocuments old content
  Run.ofOption (.unalternating edits) (editedLines? edits context)

def editedInTarget (root : Path) (range : RevisionRange) (path : Path) (context : Int) : Run (List Int) := do
  let key : ComparisonKey :=
    ⟨root, range.source, range.target.name, range.commonAncestor, path, context⟩
  match (← get).comparison with
  | some (k, lines) => if k == key then return lines else compare key
  | none => compare key
where
  compare (key : ComparisonKey) : Run (List Int) := do
    let content ← contentAt path range.target.name root
    let lines ← editedSince root range path content context
    modify fun s => { s with comparison := some (key, lines) }
    return lines

end Retouch
