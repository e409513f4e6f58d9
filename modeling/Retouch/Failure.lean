import Retouch.Diff.Edit
import Retouch.FileTree
import Retouch.Text.Quoted

/-! Why a run stops, and how it says so. -/
namespace Retouch

inductive Failure where
  | exit (status : Int)
  | git (status : Int)
  | noAncestor
  | file (fault : FileFault) (path : String)
  | undecodable
  | badProject
  | badFormatterConfig
  | wrongKind
  | lacking
  | outside (path base : Path)
  | noCommonRoot
  | unalternating (edits : List Edit)
  | condition
  | lintedCommit
  | notEquivalent (reason : String)
  | refused (reason : String)
  | unknownLevel (name : String)
  | badWidth (width : Int)
  | noArgument
  | noPiece
  | emptyPiece
  | noContributors
  | noItem
  | noEntry
  | broken (reason : String)
  | malformed (complaint : String)
  deriving Repr, Inhabited

namespace Failure

def fileText : FileFault → String
  | .missing => "[Errno 2] No such file or directory"
  | .isDirectory => "[Errno 21] Is a directory"
  | .notDirectory => "[Errno 20] Not a directory"

def editText (e : Edit) : String :=
  s!"({Quoted.render e.kind.name}, {e.oldStart}, {e.oldStop}, {e.newStart}, {e.newStop})"

def message : Failure → String
  | noAncestor => "list index out of range"
  | file fault path => fileText fault ++ ": " ++ Quoted.render path
  | outside path base =>
    s!"{Quoted.render path.render} is not in the subpath of {Quoted.render base.render} OR one path is relative and the other is absolute."
  | noCommonRoot => "Paths have no common parent Git root: []"
  | unalternating edits => "[" ++ ", ".intercalate (edits.map editText) ++ "]"
  | lintedCommit =>
    "Linting arbitrary commits is not supported. Please use -r \x7b<rev>|<rev>..|<rev>...\x7d instead."
  | notEquivalent reason => reason
  | refused reason => reason
  | unknownLevel name => s!"Unknown level: {Quoted.render name}"
  | badWidth width => s!"invalid width {width} (must be > 0)"
  | noItem => "list index out of range"
  | broken reason => reason
  | malformed complaint => complaint
  | noArgument => "not enough values to unpack (expected 1, got 0)"
  | noPiece => "list index out of range"
  | emptyPiece => "string index out of range"
  | noContributors =>
    "The contributors table couldn't be found in README.rst using the pattern " ++
      "'\\nThanks goes .*\\nThis project follows '"
  | _ => ""

end Failure
end Retouch
