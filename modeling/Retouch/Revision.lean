import Retouch.Session

/-! Ranges of revisions. A range goes from a source revision to a target, which is the working tree
unless it is named; a range with three dots starts at the common ancestor of its two ends. -/
namespace Retouch

def workingTreeName : String := ":WORKTREE:"

def preCommitName : String := ":PRE-COMMIT:"

inductive Target where
  | workingTree
  | named (revision : String)
  deriving Repr, DecidableEq

namespace Target

def name : Target → String
  | workingTree => workingTreeName
  | named revision => revision

def isWorkingTree (t : Target) : Bool := t.name == workingTreeName

def ofName (name : String) : Target := if name == "" then .workingTree else .named name

end Target

structure RevisionRange where
  source : String
  target : Target
  commonAncestor : Bool
  deriving Repr, DecidableEq

namespace RevisionRange

def headOr (revision : String) : String := if revision == "" then "HEAD" else revision

def splitAtDots (before : List Char) : List Char → Option (List Char × List Char)
  | [] => none
  | '.' :: '.' :: rest => some (before.reverse, rest)
  | c :: rest => splitAtDots (c :: before) rest

def oneLine? (cs : List Char) : Option (List Char) :=
  let line := cs.takeWhile (· != '\n')
  if cs == line || cs == line ++ ['\n'] then some line else none

def ofText (text : String) : RevisionRange :=
  match (oneLine? text.toList).bind (splitAtDots []) with
  | some (before, '.' :: after) =>
    ⟨headOr (String.ofList before), Target.ofName (String.ofList after), true⟩
  | some (before, after) =>
    ⟨headOr (String.ofList before), Target.ofName (String.ofList after), false⟩
  | none => ⟨headOr text, .workingTree, text != "" && text != "HEAD"⟩

def parse (text : String) : Run RevisionRange := do
  if text == preCommitName then
    let environment := (← read).environment
    match environment.lookup "PRE_COMMIT_FROM_REF", environment.lookup "PRE_COMMIT_TO_REF" with
    | some source, some target => return ⟨source, Target.ofName target, true⟩
    | _, _ =>
      Run.note .error .git ("The environment variables PRE_COMMIT_FROM_REF and PRE_COMMIT_TO_REF must be " ++
        "defined when using -r / --revision :PRE-COMMIT:")
      Run.fail (.exit 123)
  else return ofText text

end RevisionRange
end Retouch
