import Retouch.Proofs.Arrangement

/-! The root of a run, by what lies above what. The directories that lead to a path stand in its ancestry by their depth, so
what several paths share at one depth is a directory above all of them, and the deepest of these is their root. -/
namespace Retouch.Roots
open Execution Arrangement

structure Above (q p : Path) : Prop where
  anchor : q.anchor = p.anchor
  deeper : ∃ name rest, p.parts = q.parts ++ name :: rest

def Hosts (tree : FileTree) (cwd q p : Path) : Prop := Above q p ∨ q = p ∧ tree.isDirectory cwd p = true

structure Deepest (tree : FileTree) (cwd : Path) (paths : List Path) (root : Path) : Prop where
  hosts : ∀ p ∈ paths, Hosts tree cwd root p
  deepest : ∀ q, (∀ p ∈ paths, Hosts tree cwd q p) → q = root ∨ Above q root

theorem ancestorAt {p q : Path} {n : Nat} : p.ancestors[n]? = some q ↔ n = q.parts.length ∧ Above q p := by
  unfold Path.ancestors
  rw [List.getElem?_map,Option.map_eq_some_iff]
  constructor
  · rintro ⟨k,found,rfl⟩
    obtain ⟨short,same⟩ := List.getElem?_eq_some_iff.mp found
    rw [List.length_range] at short
    obtain rfl : n = k := by rw [← same,List.getElem_range]
    refine ⟨by simp; omega,rfl,p.parts[n],p.parts.drop (n + 1),?_⟩
    rw [List.getElem_cons_drop,List.take_append_drop]
  · rintro ⟨rfl,same,name,rest,whole⟩
    refine ⟨q.parts.length,by rw [List.getElem?_range (by simp [whole])],?_⟩
    rw [whole,← same,List.take_left]

theorem ancestryAt {tree : FileTree} {cwd p q : Path} {n : Nat} :
    (ancestry tree cwd p)[n]? = some q ↔ n = q.parts.length ∧ Hosts tree cwd q p := by
  have size : p.ancestors.length = p.parts.length := by simp [Path.ancestors]
  unfold ancestry Hosts
  by_cases directory : tree.isDirectory cwd p = true
  · rw [if_pos directory,List.getElem?_append,size]
    split
    · rename_i short
      rw [ancestorAt]
      refine and_congr_right (fun depth => ⟨.inl,fun hosts => hosts.resolve_right ?_⟩)
      rintro ⟨rfl,_⟩
      omega
    · rename_i long
      rw [List.getElem?_singleton]
      constructor
      · intro found
        split at found
        · cases Option.some.inj found
          exact ⟨by omega,.inr ⟨rfl,directory⟩⟩
        · cases found
      · rintro ⟨depth,⟨_,name,rest,whole⟩ | ⟨rfl,_⟩⟩
        · have longer := congrArg List.length whole
          rw [List.length_append,List.length_cons] at longer
          omega
        · rw [if_pos (by omega)]
  · rw [if_neg directory,ancestorAt]
    simp [directory]

theorem hostsChain {tree : FileTree} {cwd q q' p : Path} (hosts : Hosts tree cwd q p) (hosts' : Hosts tree cwd q' p)
    (depth : q.parts.length ≤ q'.parts.length) : q = q' ∨ Above q q' := by
  have start {r : Path} (hosts : Hosts tree cwd r p) : r.anchor = p.anchor ∧ r.parts <+: p.parts := by
    rcases hosts with ⟨anchor,name,rest,whole⟩ | ⟨rfl,_⟩
    · exact ⟨anchor,name :: rest,whole.symm⟩
    · exact ⟨rfl,List.prefix_rfl⟩
  obtain ⟨anchor,front⟩ := start hosts
  obtain ⟨anchor',front'⟩ := start hosts'
  obtain ⟨rest,whole⟩ := List.prefix_of_prefix_length_le front front' depth
  cases rest with
  | nil =>
    left
    obtain ⟨_,parts⟩ := q
    obtain ⟨_,parts'⟩ := q'
    simp_all
  | cons name rest => exact .inr ⟨anchor.trans anchor'.symm,name,rest,whole.symm⟩

theorem hostsAll (tree : FileTree) (cwd base p : Path) : Hosts tree cwd ⟨.root,[]⟩ (Path.resolve base p) := by
  unfold Path.resolve
  cases parts : Path.settle [] (base.join p).parts with
  | nil => exact .inr ⟨rfl,rfl⟩
  | cons name rest => exact .inl ⟨rfl,name,rest,rfl⟩

theorem sharedHosts {tree : FileTree} {cwd : Path} {paths : List Path} (filled : paths ≠ []) {n : Nat} {q : Path} :
    Shared (paths.map (ancestry tree cwd)) n q ↔ n = q.parts.length ∧ ∀ p ∈ paths, Hosts tree cwd q p := by
  simp only [Shared,List.forall_mem_map,ancestryAt]
  constructor
  · intro shared
    obtain ⟨first,member⟩ := List.exists_mem_of_ne_nil paths filled
    exact ⟨(shared first member).1,fun p member => (shared p member).2⟩
  · exact fun ⟨depth,hosts⟩ p member => ⟨depth,hosts p member⟩

theorem commonPathDeepest {tree : FileTree} {cwd : Path} {paths : List Path} {root : Path} (filled : paths ≠ [])
    (found : commonPath (paths.map (ancestry tree cwd)) = some root) : Deepest tree cwd paths root := by
  obtain ⟨n,shared,deepest⟩ := commonPathShared found
  obtain ⟨depth,hosts⟩ := (sharedHosts filled).mp shared
  refine ⟨hosts,fun q others => ?_⟩
  obtain ⟨first,member⟩ := List.exists_mem_of_ne_nil paths filled
  have short := deepest q.parts.length q ((sharedHosts filled).mpr ⟨rfl,others⟩)
  exact hostsChain (others first member) (hosts first member) (by omega)

theorem commonPathFound (tree : FileTree) (cwd base : Path) {paths : List Path} (filled : paths ≠ []) :
    ∃ root, commonPath ((paths.map (Path.resolve base)).map (ancestry tree cwd)) = some root := by
  cases found : commonPath ((paths.map (Path.resolve base)).map (ancestry tree cwd)) with
  | some root => exact ⟨root,rfl⟩
  | none =>
    have shared : Shared ((paths.map (Path.resolve base)).map (ancestry tree cwd)) 0 ⟨.root,[]⟩ := by
      refine (sharedHosts (by simpa using filled)).mpr ⟨rfl,?_⟩
      simpa using fun p _ => hostsAll tree cwd base p
    cases paths with
    | nil => exact absurd rfl filled
    | cons first rest => exact absurd shared (commonPathUnshared found 0 _)

theorem commonRootDeepest (paths : List Path) (tools : Tools) (s : Session) :
    (∀ f t, exec (commonRoot paths) tools s = (.error f,t) ↔ paths = [] ∧ f = .noCommonRoot ∧ t = s) ∧
    (paths ≠ [] → ∃ root, exec (commonRoot paths) tools s = (.ok root,s) ∧
      Deepest s.tree s.cwd (paths.map (Path.resolve s.cwd)) root ∧
      (∀ paths', SameMembers paths paths' → exec (commonRoot paths') tools s = (.ok root,s)) ∧
      ∃ below, exec (belowRoot root paths) tools s = (.ok below,s)) := by
  have rooted (filled : paths ≠ []) : ∃ root, exec (commonRoot paths) tools s = (.ok root,s) ∧
      Deepest s.tree s.cwd (paths.map (Path.resolve s.cwd)) root := by
    obtain ⟨root,found⟩ := commonPathFound s.tree s.cwd s.cwd filled
    exact ⟨root,by rw [execCommonRoot,found]; rfl,commonPathDeepest (by simpa using filled) found⟩
  refine ⟨fun f t => ⟨fun failed => ?_,?_⟩,fun filled => ?_⟩
  · by_cases empty : paths = []
    · subst empty
      cases failed
      exact ⟨rfl,rfl,rfl⟩
    · obtain ⟨root,run,_⟩ := rooted empty
      rw [run] at failed
      cases failed
  · rintro ⟨rfl,rfl,rfl⟩
    rfl
  · obtain ⟨root,run,deepest⟩ := rooted filled
    refine ⟨root,run,deepest,fun paths' same => ?_,_,execBelowRoot (commonRootAbove run).2 tools⟩
    rw [← commonRootSame same tools tools s]
    exact run

theorem directoryRoot :
    exec (commonRoot [Path.ofString "a.py",Path.ofString ".",Path.ofString "b/../c/d.py"]) Rewriting.returnTools
      Rewriting.returnSession = (.ok ⟨.root,["r"]⟩,Rewriting.returnSession) := by
  obtain ⟨root,run,⟨hosts,deepest⟩,_⟩ := (commonRootDeepest
    [Path.ofString "a.py",Path.ofString ".",Path.ofString "b/../c/d.py"] Rewriting.returnTools
    Rewriting.returnSession).2 (by simp)
  have resolved : [Path.ofString "a.py",Path.ofString ".",Path.ofString "b/../c/d.py"].map
      (Path.resolve Rewriting.returnSession.cwd) = [⟨.root,["r","a.py"]⟩,⟨.root,["r"]⟩,⟨.root,["r","c","d.py"]⟩] := by
    decide +kernel
  rw [resolved] at hosts deepest
  rw [run]
  have own : Hosts Rewriting.returnSession.tree Rewriting.returnSession.cwd ⟨.root,["r"]⟩ ⟨.root,["r"]⟩ :=
    .inr ⟨rfl,by decide +kernel⟩
  rcases deepest ⟨.root,["r"]⟩ (by simpa using ⟨.inl ⟨rfl,_,_,rfl⟩,own,.inl ⟨rfl,_,_,rfl⟩⟩) with rfl | ⟨_,name,rest,whole⟩
  · rfl
  · rcases hosts ⟨.root,["r"]⟩ (by simp) with ⟨_,name',rest',whole'⟩ | ⟨rfl,_⟩
    · rw [whole] at whole'
      simp at whole'
    · rfl

end Retouch.Roots
