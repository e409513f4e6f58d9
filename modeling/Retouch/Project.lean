import Retouch.Session

/-! The directory a set of paths has in common, the root of the project around them, and the readme
there: a release describes itself by it, with a link in place of the table of contributors. -/
namespace Retouch

def ancestry (tree : FileTree) (cwd p : Path) : List Path :=
  if tree.isDirectory cwd p then p.ancestors ++ [p] else p.ancestors

def commonPath : List (List Path) → Option Path
  | [] => none
  | first :: rest =>
    let depth := rest.foldl (fun n l => min n l.length) first.length
    ((first.take depth).zipIdx.reverse.find? (fun (p, n) => rest.all (fun l => l[n]? == some p))).map (·.1)

def commonRoot (paths : List Path) : Run Path := do
  let s ← get
  let resolved := paths.map (Path.resolve s.cwd)
  Run.ofOption .noCommonRoot (commonPath (resolved.map (ancestry s.tree s.cwd)))

def isProjectRoot (tree : FileTree) (directory : Path) : Bool :=
  let child (name : String) : Path := ⟨directory.anchor, directory.parts ++ [name]⟩
  tree.isPresent directory (child ".git") || tree.isDirectory directory (child ".hg") ||
    tree.isFile directory (child "pyproject.toml")

def projectRootOf (tree : FileTree) (cwd : Path) (sources : List String) : Path :=
  let resolved := sources.map (fun s => Path.resolve cwd (Path.ofString s))
  match commonPath (resolved.map (ancestry tree cwd)) with
  | none => ⟨.root, []⟩
  | some base => ((base.ancestors ++ [base]).reverse.find? (isProjectRoot tree)).getD ⟨.root, []⟩

/-- The project root; the answer for a list of sources is kept, whatever the working directory. -/
def projectRoot (sources : List String) : Run Path := do
  let s ← get
  match s.projectRoots.lookup sources with
  | some root => return root
  | none =>
    let root := projectRootOf s.tree s.cwd sources
    set { s with projectRoots := (sources, root) :: s.projectRoots }
    return root

def projectFile? (sources : List String) : Run (Option Path) := do
  let file := (← projectRoot sources).join ⟨.relative, ["pyproject.toml"]⟩
  let s ← get
  return if s.tree.isFile s.cwd file then some file else none

end Retouch

namespace Retouch.Readme

def tableStart : String := "\nThanks goes "

def tableEnd : String := "\nThis project follows "

def link : String := "\nSee README.rst_ for the list of contributors.\n\nThis project follows "

def withoutTable? (readme : String) : Option String :=
  match readme.splitOn tableStart with
  | before :: rest@(_ :: _) =>
    match ((tableStart.intercalate rest).splitOn tableEnd).reverse with
    | after :: _ :: _ => some (before ++ link ++ after)
    | _ => none
  | _ => none

def description : Run String := do
  let readme ← Run.readText ⟨.relative, ["README.rst"]⟩
  Run.ofOption .noContributors (withoutTable? readme)

end Retouch.Readme
