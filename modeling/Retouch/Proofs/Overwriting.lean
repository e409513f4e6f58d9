import Retouch.FileTree
import Retouch.Proofs.Lookup

/-! Trees in which files were overwritten. Such trees have the same directories and files at the same
places, so paths lead to the same places in both; what is read differs at the overwritten places only. -/
namespace Retouch.Overwriting

def kindAt (t : FileTree) (place : List String) : Option Bool :=
  (t.at? place).map (fun node => match node with
    | .directory => true
    | .file _ _ => false)

structure Overwritten (places : List (List String)) (t t' : FileTree) : Prop where
  kinds : ∀ place, kindAt t' place = kindAt t place
  others : ∀ place, place ∉ places → t'.at? place = t.at? place

theorem overwrittenRefl (places : List (List String)) (t : FileTree) : Overwritten places t t :=
  ⟨fun _ => rfl,fun _ _ => rfl⟩

theorem overwrittenTrans {ps qs : List (List String)} {t t' t'' : FileTree} (h : Overwritten ps t t')
    (h' : Overwritten qs t' t'') : Overwritten (ps ++ qs) t t'' := by
  refine ⟨fun place => (h'.kinds place).trans (h.kinds place),fun place outside => ?_⟩
  simp only [List.mem_append,not_or] at outside
  exact (h'.others place outside.2).trans (h.others place outside.1)

theorem atPut {t : FileTree} {place : List String} (named : place ≠ []) (node : Node) (q : List String) :
    (t.put place node).at? q = if q = place then some node else t.at? q := by
  have found : (t.put place node).nodes.lookup q = if q = place then some node else t.nodes.lookup q := by
    have nodes : (t.put place node).nodes = if t.nodes.any (·.1 == place) then
        t.nodes.map (fun e => if e.1 == place then (place,node) else e) else t.nodes ++ [(place,node)] := by
      unfold FileTree.put
      split <;> rfl
    rw [nodes,Lookup.lookupPut]
    simp only [beq_iff_eq]
  unfold FileTree.at?
  rw [found]
  by_cases root : q = []
  · simp [root,named.symm]
  · simp [root]

section
variable {places : List (List String)} {t t' : FileTree} (h : Overwritten places t t')
include h

theorem nodeCases (place : List String) :
    (t.at? place = none ∧ t'.at? place = none) ∨
    (t.at? place = some .directory ∧ t'.at? place = some .directory) ∨
    ∃ content time content' time', t.at? place = some (.file content time) ∧
      t'.at? place = some (.file content' time') := by
  have kinds := h.kinds place
  unfold kindAt at kinds
  cases here : t.at? place with
  | none =>
    rw [here] at kinds
    exact .inl ⟨rfl,by simpa using kinds⟩
  | some node =>
    cases there : t'.at? place with
    | none => simp [here,there] at kinds
    | some node' =>
      cases node <;> cases node' <;> simp_all

theorem walkSame (here names : List String) : (t'.walk here names).map Prod.fst = (t.walk here names).map Prod.fst := by
  induction names generalizing here with
  | nil =>
    rcases nodeCases h here with ⟨a,b⟩ | ⟨a,b⟩ | ⟨_,_,_,_,a,b⟩ <;> simp [FileTree.walk,a,b,Except.map]
  | cons name rest ih =>
    rcases nodeCases h here with ⟨a,b⟩ | ⟨a,b⟩ | ⟨_,_,_,_,a,b⟩
    · simp [FileTree.walk,a,b]
    · simp only [FileTree.walk,a,b]
      split
      · exact ih _
      · exact ih _
    · simp [FileTree.walk,a,b]

end

theorem walkNode {t : FileTree} {here names place : List String} {node : Node}
    (led : t.walk here names = .ok (place,node)) : t.at? place = some node := by
  induction names generalizing here with
  | nil =>
    unfold FileTree.walk at led
    split at led
    · rename_i found
      cases led
      exact found
    · cases led
  | cons name rest ih =>
    unfold FileTree.walk at led
    split at led
    · cases led
    · cases led
    · split at led
      · exact ih led
      · exact ih led

theorem walkPlain {t : FileTree} {here names place : List String} {node : Node} (plain : ".." ∉ names)
    (led : t.walk here names = .ok (place,node)) : place = here ++ names := by
  induction names generalizing here with
  | nil =>
    unfold FileTree.walk at led
    split at led
    · cases led
      simp
    · cases led
  | cons name rest ih =>
    simp only [List.mem_cons,not_or] at plain
    unfold FileTree.walk at led
    split at led
    · cases led
    · cases led
    · have forward : (name == "..") = false := by simpa using fun h => plain.1 h.symm
      rw [forward] at led
      simpa using ih plain.2 led

theorem walkNamed {t : FileTree} {here names place : List String} {name : String} {node : Node}
    (forward : name ≠ "..") (led : t.walk here (names ++ [name]) = .ok (place,node)) :
    ∃ directory, place = directory ++ [name] := by
  induction names generalizing here with
  | nil =>
    have plain : ".." ∉ [name] := by simpa using fun h => forward h.symm
    exact ⟨here,walkPlain plain led⟩
  | cons first rest ih =>
    rw [List.cons_append,FileTree.walk] at led
    split at led
    · cases led
    · cases led
    · split at led
      · exact ih led
      · exact ih led

def Apart (places : List (List String)) (t : FileTree) (cwd p : Path) : Prop :=
  ∀ place node, t.follow cwd p = .ok (place,node) → place ∉ places

section
variable {places : List (List String)} {t t' : FileTree} (h : Overwritten places t t') (cwd p : Path)
include h

theorem followCases :
    (∃ fault, t.follow cwd p = .error fault ∧ t'.follow cwd p = .error fault) ∨
    (∃ place, t.follow cwd p = .ok (place,.directory) ∧ t'.follow cwd p = .ok (place,.directory)) ∨
    ∃ place content time content' time', t.follow cwd p = .ok (place,.file content time) ∧
      t'.follow cwd p = .ok (place,.file content' time') := by
  have same := walkSame h [] (cwd.join p).parts
  unfold FileTree.follow
  cases led : t.walk [] (cwd.join p).parts with
  | error fault =>
    rw [led] at same
    cases led' : t'.walk [] (cwd.join p).parts with
    | error fault' =>
      rw [led'] at same
      cases same
      exact .inl ⟨fault,rfl,rfl⟩
    | ok found =>
      rw [led'] at same
      cases same
  | ok found =>
    rw [led] at same
    cases led' : t'.walk [] (cwd.join p).parts with
    | error fault =>
      rw [led'] at same
      cases same
    | ok found' =>
      rw [led'] at same
      obtain ⟨place,node⟩ := found
      obtain ⟨place',node'⟩ := found'
      cases Except.ok.inj same
      have here := walkNode led
      have there := walkNode led'
      rcases nodeCases h place with ⟨a,_⟩ | ⟨a,b⟩ | ⟨_,_,_,_,a,b⟩
      · rw [a] at here
        cases here
      · rw [a] at here
        rw [b] at there
        cases here
        cases there
        exact .inr (.inl ⟨place,rfl,rfl⟩)
      · rw [a] at here
        rw [b] at there
        cases here
        cases there
        exact .inr (.inr ⟨place,_,_,_,_,rfl,rfl⟩)

theorem isFileSame : t'.isFile cwd p = t.isFile cwd p := by
  rcases followCases h cwd p with ⟨_,a,b⟩ | ⟨_,a,b⟩ | ⟨_,_,_,_,_,a,b⟩ <;> simp [FileTree.isFile,a,b]

theorem isDirectorySame : t'.isDirectory cwd p = t.isDirectory cwd p := by
  rcases followCases h cwd p with ⟨_,a,b⟩ | ⟨_,a,b⟩ | ⟨_,_,_,_,_,a,b⟩ <;> simp [FileTree.isDirectory,a,b]

theorem isPresentSame : t'.isPresent cwd p = t.isPresent cwd p := by
  rcases followCases h cwd p with ⟨_,a,b⟩ | ⟨_,a,b⟩ | ⟨_,_,_,_,_,a,b⟩ <;>
    simp [FileTree.isPresent,a,b,Except.toBool]

theorem readSame (apart : Apart places t cwd p) : t'.read cwd p = t.read cwd p := by
  rcases followCases h cwd p with ⟨_,a,b⟩ | ⟨_,a,b⟩ | ⟨place,content,time,content',time',a,b⟩
  · simp [FileTree.read,a,b]
  · simp [FileTree.read,a,b]
  · have same := h.others place (apart place _ a)
    rw [walkNode a,walkNode b] at same
    cases same
    simp [FileTree.read,a,b]

end

theorem apartNothing (t : FileTree) (cwd p : Path) : Apart [] t cwd p := by
  intro _ _ _ inside
  cases inside

structure Plain (p : Path) : Prop where
  absolute : p.isAbsolute = true
  forward : ".." ∉ p.parts

theorem followPlain {t : FileTree} {cwd p : Path} (plain : Plain p) {place : List String} {node : Node}
    (led : t.follow cwd p = .ok (place,node)) : place = p.parts := by
  unfold FileTree.follow Path.join at led
  rw [if_pos plain.absolute] at led
  simpa using walkPlain plain.forward led

theorem apartPlain {places : List (List String)} {p : Path} (plain : Plain p) (outside : p.parts ∉ places)
    (t : FileTree) (cwd : Path) : Apart places t cwd p := by
  intro place node led
  rw [followPlain plain led]
  exact outside

theorem followNamed {t : FileTree} {cwd p : Path} {name : String} (last : p.parts.getLast? = some name)
    (forward : name ≠ "..") {place : List String} {node : Node} (led : t.follow cwd p = .ok (place,node)) :
    ∃ directory, place = directory ++ [name] := by
  obtain ⟨front,whole⟩ := List.getLast?_eq_some_iff.mp last
  unfold FileTree.follow Path.join at led
  split at led
  · rw [whole] at led
    exact walkNamed forward led
  · rw [whole,← List.append_assoc] at led
    exact walkNamed forward led

theorem readPlain {t : FileTree} {cwd p : Path} (plain : Plain p) {content : ByteArray} {time : Int}
    (read : t.read cwd p = .ok (content,time)) : t.at? p.parts = some (.file content time) := by
  unfold FileTree.read at read
  split at read
  · rename_i place held modified led
    cases read
    rw [← followPlain plain led]
    exact walkNode led
  · cases read
  · cases read

theorem writeOver {t : FileTree} {cwd p : Path} {found : ByteArray × Int} (read : t.read cwd p = .ok found)
    (content : ByteArray) (now : Int) :
    ∃ t' place held time, t.write cwd p content now = .ok t' ∧ t.follow cwd p = .ok (place,.file held time) ∧
      Overwritten [place] t t' ∧ t'.at? place = some (.file content now) := by
  unfold FileTree.read at read
  split at read
  · rename_i place held time led
    have here := walkNode led
    have named : place ≠ [] := by
      rintro rfl
      simp [FileTree.at?] at here
    refine ⟨t.put place (.file content now),place,held,time,by simp [FileTree.write,led],led,⟨?_,?_⟩,?_⟩
    · intro q
      unfold kindAt
      rw [atPut named]
      split
      · rename_i same
        rw [same,here]
        rfl
      · rfl
    · intro q outside
      rw [atPut named,if_neg (by simpa using outside)]
    · rw [atPut named,if_pos rfl]
  · cases read
  · cases read

end Retouch.Overwriting
