import Retouch.Proofs.Changes
import Retouch.Proofs.Planning
import Retouch.Proofs.Rewriting

/-! Where a run leaves its mark. Files are written one after the other, each after its change was found and
before the next file is opened; different names lead to different places, so what is written stays, and a
file that was not reached yet is still as it was. -/
namespace Retouch.Footprint
open Execution Candidates Listing Overwriting Stillness Planning Changes

def places (handed : List Change) : List (List String) := handed.map (fun c => c.1.parts)

structure Marked (tools : Tools) (root : Path) (sorted diff check : Bool) (files : List Path) (s : Session)
    (handed : List Change) (u : Session) : Prop where
  cwd : u.cwd = s.cwd
  listed : ∀ c ∈ handed, ∃ path ∈ files, c.1 = root.join path
  vetted : ∀ c ∈ handed, Vetted tools sorted s u c
  recorded : Adds s u
  overwritten : Overwritten (places handed) s.tree u.tree
  kept : check = true ∨ diff = true → u.tree = s.tree
  written : check = false → diff = false → ∀ c ∈ handed,
    u.tree.at? c.1.parts = some (.file c.2.2.text.toUTF8 0)

theorem markedNothing {tools root sorted diff check files s u} (still : Still s u) (recorded : Adds s u) :
    Marked tools root sorted diff check files s [] u :=
  ⟨still.cwd,by simp,by simp,recorded,still.tree ▸ overwrittenRefl _ _,fun _ => still.tree,by simp⟩

theorem apartFiles {root : Path} {files files' : List Path} {c d : Change} (normal : ∀ p ∈ files ++ files', Normal p)
    (distinct : ∀ p ∈ files, ∀ q ∈ files', p ≠ q) (here : ∃ path ∈ files, c.1 = root.join path)
    (there : ∃ path ∈ files', d.1 = root.join path) : c.1.parts ≠ d.1.parts := by
  obtain ⟨p,inside,eq⟩ := here
  obtain ⟨q,inside',eq'⟩ := there
  intro same
  rw [eq,eq'] at same
  exact distinct p inside q inside' (joinInjective (normal p (by simp [inside])) (normal q (by simp [inside'])) same)

theorem markedThen {tools root sorted diff check files files' s t u handed handed'} (plain : Plain root)
    (normal : ∀ p ∈ files ++ files', Normal p) (distinct : ∀ p ∈ files, ∀ q ∈ files', p ≠ q)
    (first : Marked tools root sorted diff check files s handed t)
    (second : Marked tools root sorted diff check files' t handed' u) :
    Marked tools root sorted diff check (files ++ files') s (handed ++ handed') u := by
  have apart {c d : Change} (here : c ∈ handed) (there : d ∈ handed') : c.1.parts ≠ d.1.parts :=
    apartFiles normal distinct (first.listed c here) (second.listed d there)
  refine ⟨second.cwd.trans first.cwd,?_,?_,addsLasting.trans first.recorded second.recorded,?_,?_,?_⟩
  · intro c member
    rcases List.mem_append.mp member with here | there
    · obtain ⟨p,inside,eq⟩ := first.listed c here
      exact ⟨p,by simp [inside],eq⟩
    · obtain ⟨p,inside,eq⟩ := second.listed c there
      exact ⟨p,by simp [inside],eq⟩
  · intro d member
    rcases List.mem_append.mp member with here | there
    · exact vettedLater (first.vetted d here) second.recorded
    · obtain ⟨q,inside,eq⟩ := second.listed d there
      have outside : d.1.parts ∉ places handed := by
        intro found
        obtain ⟨c,here,same⟩ := List.mem_map.mp found
        exact apart here there same
      have away := apartPlain (eq ▸ joinPlain plain (normal q (by simp [inside]))) outside s.tree s.cwd
      refine vettedEarlier first.recorded (second.vetted d there) ?_
      rw [first.cwd,readSame first.overwritten s.cwd d.1 away]
  · unfold places
    rw [List.map_append]
    exact overwrittenTrans first.overwritten second.overwritten
  · exact fun still => (second.kept still).trans (first.kept still)
  · intro unchecked undiffed c member
    rcases List.mem_append.mp member with here | there
    · have outside : c.1.parts ∉ places handed' := by
        intro found
        obtain ⟨d,there,same⟩ := List.mem_map.mp found
        exact apart here there same.symm
      rw [second.overwritten.others _ outside]
      exact first.written unchecked undiffed c here
    · exact second.written unchecked undiffed c there

theorem standsShown (file : Path) (old new : Document) : Stands (Program.printDiff file old new) := by
  refine standsBind (withinGet calmLasting) (fun s => ?_)
  refine standsBind (withinOfOption calmLasting (by simp [Refusals.Aligned]) _) (fun relative => ?_)
  exact standsBind (withinRead calmLasting) (fun tools => standsPrint _)

theorem standsSink {diff check : Bool} (diverted : check = true ∨ diff = true) (g : Bool) (file : Path)
    (old new : Document) : Stands (Program.sink diff check g file old new) := by
  have written : (!check && !diff) = false := by
    rcases diverted with rfl | rfl
    · rfl
    · simp
  refine withinAside (fun rest => standsBind (standsShown file old new) (fun _ => rest)) ?_
  rw [written]
  exact standsPure _

theorem addsSink (diff check g : Bool) (file : Path) (old new : Document) :
    Within Adds (fun _ => True) (Program.sink diff check g file old new) := by
  intro tools s
  refine ⟨?_,fun _ _ => trivial⟩
  by_cases diverted : check = true ∨ diff = true
  · exact calmAdds (standsSink diverted g file old new tools s).1
  · simp only [not_or,Bool.not_eq_true] at diverted
    obtain ⟨rfl,rfl⟩ := diverted
    exact keptAdds (keptSink g file old new tools s).1

theorem sinkGathers {diff check g file old new tools s g' t}
    (run : exec (Program.sink diff check g file old new) tools s = (.ok g',t)) : g' = true := by
  obtain ⟨u,rest⟩ := asideOk run
  obtain ⟨v,last⟩ := asideOk rest
  cases last
  rfl

theorem sinkMarked {tools root sorted diff check path s t g file old new r u} (plain : Plain root)
    (normal : Normal path) (named : file = root.join path) (vetted : Vetted tools sorted s t (file,old,new))
    (still : Still s t) (recorded : Adds s u) (run : exec (Program.sink diff check g file old new) tools t = (r,u)) :
    Marked tools root sorted diff check [path] s [(file,old,new)] u ∧ ∀ f, r = .error f → u.tree = s.tree := by
  have listed : ∀ c ∈ [(file,old,new)], ∃ p ∈ [path], c.1 = root.join p := by simpa using named
  have added : Adds t u := by
    have adds := (addsSink diff check g file old new tools t).1
    rwa [run] at adds
  have seen : ∀ c ∈ [(file,old,new)], Vetted tools sorted s u c := by simpa using vettedLater vetted added
  by_cases diverted : check = true ∨ diff = true
  · have calm := withinEnds (standsSink diverted g file old new) run
    have tree := calm.tree.trans still.tree
    refine ⟨⟨calm.cwd.trans still.cwd,listed,seen,recorded,tree ▸ overwrittenRefl _ _,fun _ => tree,?_⟩,fun _ _ => tree⟩
    rintro rfl rfl
    simp at diverted
  · simp only [not_or,Bool.not_eq_true] at diverted
    obtain ⟨rfl,rfl⟩ := diverted
    obtain ⟨modified,raw,found,_⟩ := vetted.read
    obtain ⟨tree,place,_,_,wrote,led,replaced,content⟩ := writeOver found new.text.toUTF8 0
    obtain rfl : place = file.parts := followPlain (named ▸ joinPlain plain normal) led
    obtain ⟨cwd,⟨⟨g',rfl⟩,written⟩ | ⟨_,⟨fault,failed⟩,_⟩⟩ := sinkWrites run
    · rw [still.tree,still.cwd,wrote] at written
      cases written
      refine ⟨⟨cwd.trans still.cwd,listed,seen,recorded,replaced,by simp,?_⟩,by simp⟩
      intro _ _ c member
      rw [List.mem_singleton.mp member]
      exact content
    · rw [still.tree,still.cwd,wrote] at failed
      cases failed

theorem fileMarked {tools root range sorted diff check progress path s r u} (plain : Plain root) (normal : Normal path)
    (run : exec (reformatFile root range sorted (Program.sink diff check) progress path) tools s = (r,u)) :
    Marked tools root sorted diff check [path] s (changeAt root range sorted progress.options path tools s).toList u ∧
    (∀ next, r = .ok next → next.gathered =
      (progress.gathered || (changeAt root range sorted progress.options path tools s).isSome)) ∧
    ∀ f, r = .error f → u.tree = s.tree := by
  have recorded : Adds s u := by
    have adds := (Course.withinReformatFile addsJudges (addsSink diff check) root range sorted progress path tools s).1
    rwa [run] at adds
  rw [reformatFileChange] at run
  unfold changeAt
  rcases execBindCases run with ⟨e,failed,rfl⟩ | ⟨⟨found,left⟩,t,looked,rest⟩
  · rw [failed]
    have still := changeStill failed
    exact ⟨markedNothing still recorded,by simp,fun _ _ => still.tree⟩
  have still := changeStill looked
  rw [looked]
  cases found with
  | none =>
    cases rest
    exact ⟨markedNothing still recorded,by simp,by simp⟩
  | some c =>
    obtain ⟨file,old,new⟩ := c
    obtain ⟨named,vetted⟩ := changeVetted looked
    rcases execBindCases rest with ⟨e,sunk,rfl⟩ | ⟨g,x,sunk,last⟩
    · obtain ⟨marked,kept⟩ := sinkMarked plain normal named vetted still recorded sunk
      exact ⟨marked,by simp,fun _ _ => kept e rfl⟩
    · cases last
      obtain ⟨marked,_⟩ := sinkMarked plain normal named vetted still recorded sunk
      refine ⟨marked,?_,by simp⟩
      rintro next ⟨⟩
      simpa using sinkGathers sunk

theorem filesMarked {tools root range sorted diff check files progress s r u} (plain : Plain root)
    (normal : ∀ p ∈ files, Normal p) (distinct : files.Nodup)
    (run : exec (files.foldlM (reformatFile root range sorted (Program.sink diff check)) progress) tools s = (r,u)) :
    Marked tools root sorted diff check files s
      (changes root range sorted (Program.sink diff check) tools files progress s) u ∧
    ∀ last, r = .ok last → last.gathered =
      (progress.gathered || !(changes root range sorted (Program.sink diff check) tools files progress s).isEmpty) := by
  induction files generalizing progress s with
  | nil =>
    cases run
    exact ⟨markedNothing (stillLasting.refl _) (addsLasting.refl _),by simp [changes]⟩
  | cons path rest ih =>
    rw [List.foldlM_cons] at run
    obtain ⟨outside,distinct⟩ := List.nodup_cons.mp distinct
    have apart : ∀ p ∈ [path], ∀ q ∈ rest, p ≠ q := by
      rintro p inside q later rfl
      rw [List.mem_singleton.mp inside] at later
      exact outside later
    unfold changes
    rcases execBindCases run with ⟨e,failed,rfl⟩ | ⟨next,t,visited,later⟩
    · obtain ⟨marked,_,_⟩ := fileMarked plain (normal path (by simp)) failed
      rw [failed]
      exact ⟨markedThen plain normal apart marked (markedNothing (stillLasting.refl _) (addsLasting.refl _)),by simp⟩
    · obtain ⟨marked,gathers,_⟩ := fileMarked plain (normal path (by simp)) visited
      obtain ⟨marked',gathers'⟩ := ih (fun p inside => normal p (by simp [inside])) distinct later
      rw [visited]
      refine ⟨markedThen plain normal apart marked marked',fun last finished => ?_⟩
      rw [gathers' last finished,gathers next rfl]
      cases changeAt root range sorted progress.options path tools s <;> simp

theorem failingUntouched {tools root range sorted diff check before path rest progress reached s t f u}
    (plain : Plain root) (normal : ∀ p ∈ before ++ path :: rest, Normal p) (distinct : (before ++ path :: rest).Nodup)
    (visited : exec (before.foldlM (reformatFile root range sorted (Program.sink diff check)) progress) tools s =
      (.ok reached,t))
    (failed : exec (reformatFile root range sorted (Program.sink diff check) reached path) tools t = (.error f,u)) :
    exec ((before ++ path :: rest).foldlM (reformatFile root range sorted (Program.sink diff check)) progress) tools s =
      (.error f,u) ∧
    ∀ q ∈ path :: rest, u.tree.at? (root.join q).parts = s.tree.at? (root.join q).parts := by
  refine ⟨?_,fun q member => ?_⟩
  · rw [List.foldlM_append,execBindOk visited,List.foldlM_cons,execBindError failed]
  obtain ⟨early,_,apart⟩ := List.nodup_append.mp distinct
  obtain ⟨marked,_⟩ := filesMarked plain (fun p inside => normal p (by simp [inside])) early visited
  obtain ⟨_,_,kept⟩ := fileMarked plain (normal path (by simp)) failed
  rw [kept f rfl]
  refine marked.overwritten.others _ (fun found => ?_)
  obtain ⟨c,handed,same⟩ := List.mem_map.mp found
  obtain ⟨p,inside,named⟩ := marked.listed c handed
  rw [named] at same
  have equal := joinInjective (normal p (by simp [inside])) (normal q (List.mem_append_right _ member)) same
  exact apart p inside q member equal

structure Confined (name : String) (args : List String) (tools : Tools) (s : Session) (handed : List Change)
    (r : Except Failure Int) (u : Session) : Prop where
  differing : ∀ place, u.tree.at? place ≠ s.tree.at? place →
    ∃ c ∈ handed, c.1.parts = place ∧ u.tree.at? place = some (.file c.2.2.text.toUTF8 0)
  vetted : ∀ reading t, exec (Config.read args) tools s = (.ok reading,t) →
    ∀ c ∈ handed, Vetted tools (settingIn reading "isort").truthy s u c
  written : ∀ reading t, exec (Config.read args) tools s = (.ok reading,t) → ¬Given reading "check" →
    ¬Given reading "diff" → ∀ c ∈ handed, u.tree.at? c.1.parts = some (.file c.2.2.text.toUTF8 0)
  kept : ∀ reading t, exec (Config.read args) tools s = (.ok reading,t) →
    Given reading "check" ∨ Given reading "diff" → u.tree = s.tree
  failing : ∀ plan t root files v before path rest reached w f x,
    exec (Program.prepare name args) tools s = (.ok plan,t) →
    exec (listing plan.paths plan.range) tools t = (.ok (root,files),v) → files = before ++ path :: rest →
    exec (before.foldlM (reformatFile root plan.range plan.sorted (Program.sink plan.diff plan.check))
      ⟨false,plan.options⟩) tools v = (.ok reached,w) →
    exec (reformatFile root plan.range plan.sorted (Program.sink plan.diff plan.check) reached path) tools w =
      (.error f,x) →
    r = .error f ∧ u = x ∧ files.Pairwise (fun p q => Path.leNames p.key q.key = true ∧ p ≠ q) ∧
      ∀ q ∈ path :: rest, u.tree.at? (root.join q).parts = s.tree.at? (root.join q).parts
  status : ∀ n, r = .ok n → ∃ reading t, exec (Config.read args) tools s = (.ok reading,t) ∧
    (n = 1 ↔ Given reading "check" ∧ handed ≠ []) ∧ (n ≠ 1 → n = 0)

theorem listedNodup {files : List Path} (ordered : files.Pairwise (fun p q => Path.leNames p.key q.key = true ∧ p ≠ q)) :
    files.Nodup :=
  ordered.imp (fun both => both.2)

theorem confinedUnvisited {name args tools s f u} (calm : Calm s u)
    (unlisted : ∀ plan t root files v, exec (Program.prepare name args) tools s = (.ok plan,t) →
      exec (listing plan.paths plan.range) tools t ≠ (.ok (root,files),v)) :
    Confined name args tools s [] (.error f) u where
  differing _ differs := absurd (by rw [calm.tree]) differs
  vetted := by simp
  written := by simp
  kept _ _ _ _ := calm.tree
  failing plan t root files v _ _ _ _ _ _ _ prepared listed := absurd listed (unlisted plan t root files v prepared)
  status := by simp

theorem markedCalm {tools root sorted diff check files s t handed u v} (before : Calm s t)
    (marked : Marked tools root sorted diff check files t handed u) (after : Calm u v) :
    Marked tools root sorted diff check files s handed v := by
  have recorded := addsLasting.trans (calmAdds before) (addsLasting.trans marked.recorded (calmAdds after))
  refine ⟨?_,marked.listed,fun c member => ?_,recorded,?_,fun diverted => ?_,fun unchecked undiffed c member => ?_⟩
  · rw [after.cwd,marked.cwd,before.cwd]
  · refine vettedEarlier (calmAdds before) (vettedLater (marked.vetted c member) (calmAdds after)) ?_
    rw [before.tree,before.cwd]
  · rw [after.tree,← before.tree]
    exact marked.overwritten
  · rw [after.tree,marked.kept diverted,before.tree]
  · rw [after.tree]
    exact marked.written unchecked undiffed c member

structure Visiting (name : String) (args : List String) (tools : Tools) (s : Session) (r : Except Failure Int) (u : Session)
    (plan : Program.Plan) (root : Path) (files : List Path) (v : Session) : Prop where
  plain : Plain root
  normal : ∀ p ∈ files, Normal p
  ordered : files.Pairwise (fun p q => Path.leNames p.key q.key = true ∧ p ≠ q)
  calm : Calm s v
  marked : Marked tools root plan.sorted plan.diff plan.check files s (handedOn name args tools s) u
  stopped : ∀ f w, exec (files.foldlM (reformatFile root plan.range plan.sorted (Program.sink plan.diff plan.check))
    ⟨false,plan.options⟩) tools v = (.error f,w) → r = .error f ∧ u = w
  status : ∀ n, r = .ok n → n = if plan.check && !(handedOn name args tools s).isEmpty then 1 else 0

theorem runVisits {name args tools s r u} (normally : NamesNormally tools)
    (run : exec (Program.run name args) tools s = (r,u)) :
    (∃ f, r = .error f ∧ Calm s u ∧ handedOn name args tools s = [] ∧
      ∀ plan t root files v, exec (Program.prepare name args) tools s = (.ok plan,t) →
        exec (listing plan.paths plan.range) tools t ≠ (.ok (root,files),v)) ∨
    ∃ plan t root files v, exec (Program.prepare name args) tools s = (.ok plan,t) ∧
      exec (listing plan.paths plan.range) tools t = (.ok (root,files),v) ∧
      Visiting name args tools s r u plan root files v := by
  rcases runCases run with unvisited | ⟨plan,t,root,files,v,visited,w,prepared,listed,calm,handed,folded,ending⟩
  · exact .inl unvisited
  have plain := listingRoot listed
  have ordered := listingOrdered listed
  have normal : ∀ p ∈ files, Normal p := fun p member => (listedFile listed member).2 normally
  obtain ⟨marked,gathers⟩ := filesMarked plain normal (listedNodup ordered) folded
  rw [← handed] at marked gathers
  refine .inr ⟨plan,t,root,files,v,prepared,listed,plain,normal,ordered,calm,?_,?_,?_⟩
  · -- after the last file only linters run, and they write nothing
    rcases ending with ⟨f,_,_,rfl⟩ | ⟨progress,_,concluded⟩
    · exact markedCalm calm marked (calmLasting.refl _)
    · exact markedCalm calm marked (withinEnds (standsConclude _ _ _ _) concluded)
  · intro f x failed
    rw [folded] at failed
    cases failed
    rcases ending with ⟨e,same,rfl,rfl⟩ | ⟨progress,impossible,_⟩
    · cases same
      exact ⟨rfl,rfl⟩
    · cases impossible
  · intro n finished
    rcases ending with ⟨e,_,rfl,_⟩ | ⟨progress,rfl,concluded⟩
    · cases finished
    · subst finished
      rw [concludeStatus concluded,gathers progress rfl,Bool.false_or]

theorem runConfinedToHanded (name : String) (args : List String) (tools : Tools) (s : Session)
    (normally : NamesNormally tools) :
    Confined name args tools s (handedOn name args tools s) (exec (Program.run name args) tools s).1
      (exec (Program.run name args) tools s).2 := by
  rcases run : exec (Program.run name args) tools s with ⟨r,u⟩
  rcases runVisits normally run with ⟨f,rfl,calm,nothing,unlisted⟩ | ⟨plan,t,root,files,v,prepared,listed,visiting⟩
  · rw [nothing]
    exact confinedUnvisited calm unlisted
  obtain ⟨reading,_,read,follows⟩ := prepareFollows prepared
  have only {other : Config.Reading} {x : Session} (again : exec (Config.read args) tools s = (.ok other,x)) :
      other = reading := by
    rw [read] at again
    cases again
    rfl
  have marked := visiting.marked
  refine ⟨?_,?_,?_,?_,?_,?_⟩
  · intro place differs
    have inside : place ∈ places (handedOn name args tools s) := by
      by_cases member : place ∈ places (handedOn name args tools s)
      · exact member
      · exact absurd (marked.overwritten.others place member) differs
    obtain ⟨c,member,rfl⟩ := List.mem_map.mp inside
    by_cases diverted : plan.check = true ∨ plan.diff = true
    · exact absurd (by rw [marked.kept diverted]) differs
    · simp only [not_or,Bool.not_eq_true] at diverted
      exact ⟨c,member,rfl,marked.written diverted.1 diverted.2 c member⟩
  · intro other x again c member
    rw [only again,← follows.sorted]
    exact marked.vetted c member
  · intro other x again unchecked undiffed
    rw [only again] at unchecked undiffed
    exact marked.written (by rw [follows.check]; simpa [Given] using unchecked)
      (by rw [follows.diff]; simpa [Given] using undiffed)
  · intro other x again diverted
    rw [only again] at diverted
    exact marked.kept (by rw [follows.check,follows.diff]; exact diverted)
  · intro plan' t' root' files' v' before path rest reached x f y prepared' listed' split visited failed
    rw [prepared] at prepared'
    cases prepared'
    rw [listed] at listed'
    cases listed'
    subst split
    obtain ⟨whole,untouched⟩ := failingUntouched visiting.plain visiting.normal (listedNodup visiting.ordered) visited failed
    obtain ⟨rfl,rfl⟩ := visiting.stopped f y whole
    exact ⟨rfl,rfl,visiting.ordered,visiting.calm.tree ▸ untouched⟩
  · intro n finished
    refine ⟨reading,_,read,?_⟩
    rw [visiting.status n finished,follows.check]
    unfold Given
    cases (settingIn reading "check").truthy <;> cases handedOn name args tools s <;> simp

theorem returnNamesNormally : NamesNormally Rewriting.returnTools := by
  intro command args text kind decoded name member
  rcases kind with rfl | rfl
  · have printed : String.fromUTF8? "a.py\n".toUTF8 = some "a.py\n" := by decide +kernel
    cases decoded.symm.trans printed
    have only : splitLines "a.py\n" = ["a.py"] := by decide +kernel
    rw [only,List.mem_singleton] at member
    subst member
    exact ⟨by decide +kernel,by decide +kernel⟩
  · have printed : String.fromUTF8? "".toUTF8 = some "" := by decide +kernel
    cases decoded.symm.trans printed
    rw [splitLinesEmpty] at member
    cases member

theorem returnRunHandsOn :
    NamesNormally Rewriting.returnTools ∧
    ∃ c ∈ handedOn "darker" ["a.py"] Rewriting.returnTools Rewriting.returnSession,
      c.1.parts = ["r","a.py"] ∧ c.2.2.text = "a = 1\nb = 2\n" := by
  refine ⟨returnNamesNormally,?_⟩
  have confined := runConfinedToHanded "darker" ["a.py"] Rewriting.returnTools Rewriting.returnSession returnNamesNormally
  have holds (text : String) : (Rewriting.returnTree text).at? ["r","a.py"] = some (.file text.toUTF8 0) := rfl
  have same {text text' : String} (equal : some (Node.file text.toUTF8 0) = some (.file text'.toUTF8 0)) : text = text' := by
    simp only [Option.some.injEq,Node.file.injEq,and_true] at equal
    exact String.toByteArray_inj.mp equal
  have differing := confined.differing ["r","a.py"]
  rw [Rewriting.returnRun,holds] at differing
  obtain ⟨c,member,place,content⟩ := differing (fun equal => absurd (same equal) (by decide))
  exact ⟨c,member,place,(same content).symm⟩

end Retouch.Footprint
