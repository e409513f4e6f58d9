import Mathlib
import Retouch.Proofs.Stillness
import Retouch.Proofs.Terminators

/-! What a run writes. Without sorting, checking and diffing a run changes the tree by rewriting files one
after the other, each with the lines that were read and, where chunks were selected, the formatted ones. A
line outside the selected chunks is found in the new file as it was if and only if a line feed ended it. -/
namespace Retouch.Rewriting
open Execution Inquiry Candidates Course Listing Stillness Terminators

structure Rewrite where
  file : Path
  text : String
  old : Document
  formatted : Document
  context : Nat

namespace Rewrite

def edited (w : Rewrite) : List Int := editedLines (diffLines w.old.lines (splitLines w.text)) w.context

def selected (w : Rewrite) : List Edit :=
  (diffLines (splitLines w.text) w.formatted.lines).filter (Choice.Selects w.edited)

def written (w : Rewrite) : String :=
  joinLines (Choice.replaced (splitLines w.text) w.formatted.lines 0 w.selected)

def untouched (w : Rewrite) : List (String × String) := Choice.spared w.selected (pieces w.text)

end Rewrite

/- A file of the list is rewritten: the old revision is that of the range, and comparisons `n`, `n + 1` and so on were
made for it, of which the last one passed. -/
structure Made (tools : Tools) (range : RevisionRange) (root : Path) (files : List Path) (cwd : Path)
    (before after : FileTree) (w : Rewrite) : Prop where
  read : ∃ modified, before.read cwd w.file = .ok (w.text.toUTF8,modified)
  revision : ∃ path ∈ files, w.file = root.join path ∧ ∀ s : Session, s.tree = before → s.cwd = cwd →
    (exec (contentAt path range.source root) tools s).1 = .ok w.old
  formatted : ∃ mode text, tools.format mode (readBreaks w.text) = .ok text ∧ w.formatted = Document.ofText text
  judged : ∃ n, (∀ c < w.context, ∃ formatted, (tools.objection (n + c) (readBreaks w.text)
    { w with formatted := formatted, context := c }.written).isSome) ∧
    tools.objection (n + w.context) (readBreaks w.text) w.written = none
  changed : w.written ≠ readBreaks w.text
  wrote : before.write cwd w.file w.written.toUTF8 0 = .ok after

inductive Rewrites (tools : Tools) (range : RevisionRange) (root : Path) (files : List Path) (cwd : Path) :
    FileTree → List Rewrite → FileTree → Prop where
  | none {tree} : Rewrites tools range root files cwd tree [] tree
  | more {before tree after w ws} (made : Made tools range root files cwd before tree w)
      (rest : Rewrites tools range root files cwd tree ws after) : Rewrites tools range root files cwd before (w :: ws) after

theorem writtenChosen (w : Rewrite) : w.written = joinLines (chooseLines w.edited
    ((diffLines (splitLines w.text) w.formatted.lines).map (Chunk.ofEdit (splitLines w.text) w.formatted.lines))) := by
  rw [Choice.chosenReplaced w.edited (Script.diffLeads (splitLines w.text) w.formatted.lines)]
  rfl

theorem untouchedComeBack {tools range root files cwd before after w}
    (made : Made tools range root files cwd before after w) :
    w.untouched.Sublist (pieces w.written) ↔ ∀ p ∈ w.untouched, p.2 = "\n" := by
  obtain ⟨_,text,_,plain⟩ := made.formatted
  have unbroken : ∀ line ∈ w.formatted.lines, Unbroken line := by
    rw [plain]
    exact splitUnbroken text
  rw [writtenChosen]
  exact sparedComeBack w.text w.edited unbroken (Script.diffLeads _ _)

theorem triedWritten {tools j context a t b raw} (lines : j.edited.lines = splitLines raw)
    (tries : Tries tools j context a t b) :
    t.result.text = (Rewrite.mk j.file raw t.old t.formatted context).written := by
  rw [tries.built,writtenChosen,candidate,lines]
  rfl

/- Every attempt asks for the same old revision, so one context differs from the next in nothing else. -/
theorem earlierRefused {tools root range options path s v t raw c old}
    (visit : Searched tools root range false options path s v t)
    (lines : v.job.edited.lines = splitLines raw) (steady : Steady v.opened c)
    (revision : (exec (contentAt v.job.path v.job.range.source v.job.root) tools c).1 = .ok old)
    {k : Nat} (earlier : k < v.trials.length - 1) :
    ∃ formatted, (tools.objection (v.opened.verified + k) v.job.edited.text
      (Rewrite.mk v.job.file raw old formatted k).written).isSome := by
  have bound : k < v.trials.length := Nat.lt_of_lt_of_le earlier (Nat.sub_le _ _)
  obtain ⟨d,_,tries,steady',number⟩ := triedAt visit.trials (List.getElem?_eq_getElem bound)
  rw [Nat.zero_add] at tries
  have stable := contentStable tools v.job.path v.job.range.source v.job.root
    (steady'.tree.trans steady.tree.symm) (steady'.cwd.trans steady.cwd.symm)
  rw [tries.revision,revision] at stable
  have written := triedWritten lines tries
  rw [Except.ok.inj stable] at written
  have refused := visit.concluded.refused v.trials[k] (by
    rw [List.dropLast_eq_take]
    exact List.mem_take_iff_getElem.mpr ⟨k,by omega,rfl⟩)
  refine ⟨(v.trials[k]).formatted,?_⟩
  rw [← written,← number,← tries.objection]
  exact refused

theorem handedMade {tools root range options path files s v t file old new tree} (listed : path ∈ files)
    (visit : Searched tools root range false options path s v t) (given : v.handed = some (file,old,new))
    (wrote : t.tree.write t.cwd file new.text.toUTF8 0 = .ok tree) :
    ∃ w, Made tools range root files s.cwd s.tree tree w := by
  obtain ⟨rfl,rfl,differ,trial,last,agreed,rfl⟩ := (handedIff visit).mp given
  obtain ⟨rfl,rfl,rfl,_⟩ := visit.opened.place
  obtain ⟨modified,raw,found,text⟩ := readTextSource visit.opened.read
  have same := visit.opened.unsorted rfl
  have lines : v.job.edited.lines = splitLines raw := by rw [visit.opened.lines,same,text,splitReadBreaks]
  have read : v.job.edited.text = readBreaks raw := by rw [same,text]
  have ended := searchedSteady visit
  rw [List.getLast?_eq_getElem?] at last
  obtain ⟨c,d,tries,steady,number⟩ := triedAt visit.trials last
  rw [Nat.zero_add] at tries
  have start := steadyTrans (undisturbedSteady (openJobOpened visit.opening).2) steady
  have written := triedWritten lines tries
  refine ⟨⟨v.job.file,raw,trial.old,trial.formatted,v.trials.length - 1⟩,⟨modified,found⟩,?_,?_,
    ⟨v.opened.verified,?_,?_⟩,?_,?_⟩
  · refine ⟨v.job.path,listed,rfl,fun x tree cwd => ?_⟩
    rw [← tries.revision]
    exact contentStable tools _ _ _ (tree.trans start.tree.symm) (cwd.trans start.cwd.symm)
  · exact read ▸ tries.formatted
  · intro k earlier
    rw [← read]
    exact earlierRefused visit lines steady tries.revision earlier
  · rw [← read,← written,← number,← tries.objection,agreed]
  · rw [← written,← text]
    exact differ
  · rw [← written,← ended.tree,← ended.cwd]
    exact wrote

theorem walkRewrites {tools root range g options s rest files visits r u} (listed : ∀ path ∈ rest, path ∈ files)
    (h : Walk tools root range false (Program.sink false false) g options s rest visits r u) :
    u.cwd = s.cwd ∧ ∃ ws, Rewrites tools range root files s.cwd s.tree ws u.tree := by
  have unmoved {s u : Session} (still : Still s u) :
      u.cwd = s.cwd ∧ ∃ ws, Rewrites tools range root files s.cwd s.tree ws u.tree :=
    ⟨still.cwd,[],still.tree ▸ .none⟩
  induction h with
  | done => exact unmoved (stillLasting.refl _)
  | unopened opening => exact unmoved (undisturbedStill (withinError (asksOpenJob _ _ _ _ _) opening).1)
  | stopped visit => exact unmoved (steadyStill (searchedSteady visit))
  | silent visit _ _ _ ih =>
    have steady := searchedSteady visit
    have later := ih (fun path member => listed path (List.mem_cons_of_mem _ member))
    rw [steady.cwd,steady.tree] at later
    exact later
  | handed visit _ given sunk _ ih =>
    have steady := searchedSteady visit
    obtain ⟨cwd,⟨_,wrote⟩ | ⟨⟨_,impossible⟩,_⟩⟩ := sinkWrites sunk
    · obtain ⟨w,made⟩ := handedMade (listed _ List.mem_cons_self) visit given wrote
      obtain ⟨cwd',ws,rest⟩ := ih (fun path member => listed path (List.mem_cons_of_mem _ member))
      rw [cwd,steady.cwd] at cwd' rest
      exact ⟨cwd',w :: ws,.more made rest⟩
    · cases impossible
  | refused visit _ _ sunk =>
    have steady := searchedSteady visit
    obtain ⟨cwd,⟨⟨_,impossible⟩,_⟩ | ⟨_,_,tree⟩⟩ := sinkWrites sunk
    · cases impossible
    · exact unmoved ⟨tree.trans steady.tree,cwd.trans steady.cwd⟩

theorem rewriteMade {tools range root files cwd before ws after}
    (h : Rewrites tools range root files cwd before ws after) :
    ∀ w ∈ ws, ∃ tree tree', Made tools range root files cwd tree tree' w := by
  induction h with
  | none => simp
  | more made _ ih => simpa using ⟨⟨_,_,made⟩,ih⟩

theorem planRewrites {plan : Program.Plan} {tools s r u} (unsorted : plan.sorted = false)
    (unchecked : plan.check = false) (undiffed : plan.diff = false) (run : exec plan.carryOut tools s = (r,u)) :
    (∃ f t, exec (listing plan.paths plan.range) tools s = (.error f,t) ∧ u.tree = s.tree) ∨
    ∃ root files t, exec (listing plan.paths plan.range) tools s = (.ok (root,files),t) ∧
      ∃ ws, Rewrites tools plan.range root files s.cwd s.tree ws u.tree := by
  rw [Program.Plan.carryOut,unsorted,unchecked,undiffed,reformatEditedListed,bind_assoc] at run
  rcases execBindCases run with ⟨e,failed,_⟩ | ⟨⟨root,files⟩,t,listed,rest⟩
  · exact .inl ⟨e,u,failed,(withinError (asksListing _ _) failed).1.tree⟩
  have quiet := withinEnds (asksListing _ _) listed
  obtain ⟨visits,_,v,walk,_,final⟩ := foldWalk root plan.range false (Program.sink false false) tools files
    ⟨false,plan.options⟩ t
  obtain ⟨_,ws,rewritten⟩ := walkRewrites (fun _ member => member) walk
  rw [quiet.cwd,quiet.tree] at rewritten
  rw [bind_assoc] at rest
  refine .inr ⟨root,files,t,listed,ws,?_⟩
  rcases execBindCases rest with ⟨e,failed,_⟩ | ⟨progress,w,folded,rest⟩
  · rw [failed] at final
    cases final
    exact rewritten
  · rw [folded] at final
    cases final
    have linted := withinEnds (standsBind (standsLinters _ _ _ _ progress) (fun _ => standsPure _)) rest
    exact linted.tree ▸ rewritten

section
variable {tools : Tools} {root path : Path} {range : RevisionRange} {job : Job} {options left : Settings}
  {old formatted : Document} {t u v w : Session} {tree : FileTree}
  (opened : exec (openJob root range false options path) tools t = (.ok job,u))
  (content : exec (contentAt path range.source root) tools u = (.ok old,v))
  (done : exec (Formatter.format job.file job.edited options) tools
    (exec (diffDocuments old job.edited) tools v).2 = (.ok (formatted,left),w))
  (agreed : tools.objection u.verified job.edited.text (candidate old job.edited formatted 0).text = none)
  (differs : (candidate old job.edited formatted 0).text ≠ job.worktree.text)
  (wrote : t.tree.write t.cwd job.file (candidate old job.edited formatted 0).text.toUTF8 0 = .ok tree)
include opened content done agreed differs wrote

theorem firstCandidateWritten (g : Bool) :
    ∃ progress x, exec (reformatFile root range false (Program.sink false false) ⟨g,options⟩ path) tools t =
      (.ok progress,x) ∧ x.tree = tree := by
  obtain ⟨facts,quiet⟩ := openJobOpened opened
  obtain ⟨rfl,rfl,rfl,unsorted⟩ := facts.place
  obtain ⟨x,run,steady,_⟩ := firstCandidatePasses unsorted content done agreed job.edited.lines.length
  have known : TextKnown (candidate old job.edited formatted 0) := textKnownJoined _
  have same := sameIffText known facts.worktree
  have new : ((candidate old job.edited formatted 0).same job.worktree).1 = false :=
    Bool.eq_false_iff.mpr (fun equal => differs (same.mp equal))
  rw [reformatFile,execBindOk opened,execBindOk run]
  simp only [new,Bool.not_false,if_true]
  rcases sunk : exec (Program.sink false false g job.file job.worktree (candidate old job.edited formatted 0)) tools x with ⟨r,y⟩
  have still := stillLasting.trans (undisturbedStill quiet) (steadyStill steady)
  rw [← still.tree,← still.cwd] at wrote
  obtain ⟨_,⟨⟨g',rfl⟩,written⟩ | ⟨_,⟨fault,failed⟩,_⟩⟩ := sinkWrites sunk
  · rw [execBindOk sunk]
    exact ⟨_,y,rfl,Except.ok.inj (written.symm.trans wrote)⟩
  · rw [wrote] at failed
    cases failed

theorem onlyFileWritten {paths : List Path} {linters : Value} {s : Session}
    (listed : exec (listing paths range) tools s = (.ok (root,[path]),t)) :
    (exec (Program.Plan.carryOut ⟨paths,range,false,false,false,linters,options⟩) tools s).2.tree = tree := by
  obtain ⟨progress,x,run,written⟩ := firstCandidateWritten opened content done agreed differs wrote false
  have folded : exec ([path].foldlM (reformatFile root range false (Program.sink false false)) ⟨false,options⟩) tools t =
      (.ok progress,x) := by
    rw [List.foldlM_cons,execBindOk run]
    rfl
  rcases whole : exec (Program.Plan.carryOut ⟨paths,range,false,false,false,linters,options⟩) tools s with ⟨r,y⟩
  rw [Program.Plan.carryOut,reformatEditedListed,bind_assoc,execBindOk listed,bind_assoc,execBindOk folded] at whole
  have linted := withinEnds (standsBind (standsLinters _ _ _ _ progress) (fun _ => standsPure _)) whole
  exact linted.tree.trans written

end

def Diverted (name : String) (args : List String) (tools : Tools) (s : Session) : Prop :=
  ∃ plan, (exec (Program.prepare name args) tools s).1 = .ok plan ∧
    (plan.sorted = true ∨ plan.check = true ∨ plan.diff = true)

def Lists (name : String) (args : List String) (tools : Tools) (s : Session) (range : RevisionRange) (root : Path)
    (files : List Path) : Prop :=
  ∃ plan t u, exec (Program.prepare name args) tools s = (.ok plan,t) ∧ plan.range = range ∧
    exec (listing plan.paths range) tools t = (.ok (root,files),u)

theorem runRewrites (name : String) (args : List String) (tools : Tools) (s : Session) :
    Diverted name args tools s ∨
      (∀ range root files, ¬Lists name args tools s range root files) ∧ (exec (Program.run name args) tools s).2.tree = s.tree ∨
      ∃ range root files ws, Lists name args tools s range root files ∧
        Rewrites tools range root files s.cwd s.tree ws (exec (Program.run name args) tools s).2.tree := by
  rcases run : exec (Program.run name args) tools s with ⟨r,u⟩
  rcases execBindCases run with ⟨e,failed,_⟩ | ⟨plan,t,prepared,rest⟩
  · refine .inr (.inl ⟨?_,(withinError (standsPrepare name args) failed).1.tree⟩)
    rintro _ _ _ ⟨plan,_,_,prepared,_⟩
    cases failed.symm.trans prepared
  have still := withinEnds (standsPrepare name args) prepared
  have planned : (exec (Program.prepare name args) tools s).1 = .ok plan := by rw [prepared]
  by_cases sorted : plan.sorted = true
  · exact .inl ⟨plan,planned,.inl sorted⟩
  by_cases checked : plan.check = true
  · exact .inl ⟨plan,planned,.inr (.inl checked)⟩
  by_cases diffed : plan.diff = true
  · exact .inl ⟨plan,planned,.inr (.inr diffed)⟩
  rcases planRewrites (Bool.eq_false_iff.mpr sorted) (Bool.eq_false_iff.mpr checked) (Bool.eq_false_iff.mpr diffed) rest with
    ⟨f,v,unlisted,same⟩ | ⟨root,files,v,listed,ws,chain⟩
  · refine .inr (.inl ⟨?_,same.trans still.tree⟩)
    rintro _ _ _ ⟨other,_,_,prepared',rfl,listed⟩
    cases prepared.symm.trans prepared'
    cases unlisted.symm.trans listed
  · rw [still.cwd,still.tree] at chain
    exact .inr (.inr ⟨plan.range,root,files,ws,⟨plan,t,v,prepared,rfl,listed⟩,chain⟩)

/- The pieces of a text are all of it, so a line that is found among the pieces of the new text is found with every byte
it had. -/
theorem untouchedReturnWithLineFeeds (name : String) (args : List String) (tools : Tools) (s : Session) :
    Diverted name args tools s ∨
    (∀ range root files, ¬Lists name args tools s range root files) ∧ (exec (Program.run name args) tools s).2.tree = s.tree ∨
    ∃ range root files ws, Lists name args tools s range root files ∧
      Rewrites tools range root files s.cwd s.tree ws (exec (Program.run name args) tools s).2.tree ∧
      ∀ w ∈ ws, String.join ((pieces w.text).map (fun p => p.1 ++ p.2)) = w.text ∧
        (w.untouched.Sublist (pieces w.written) ↔ ∀ p ∈ w.untouched, p.2 = "\n") := by
  rcases runRewrites name args tools s with diverted | unlisted | ⟨range,root,files,ws,lists,chain⟩
  · exact .inl diverted
  · exact .inr (.inl unlisted)
  · refine .inr (.inr ⟨range,root,files,ws,lists,chain,fun w member => ?_⟩)
    obtain ⟨_,_,made⟩ := rewriteMade chain w member
    exact ⟨piecesWhole w.text,untouchedComeBack made⟩

def returnText : String := "a=1\r\nb = 2\r\n"

def returnTools : Tools where
  git args := match args with
    | "diff" :: _ => ⟨"a.py\n".toUTF8,0⟩
    | "show" :: _ => ⟨"a=0\r\nb = 2\r\n".toUTF8,0⟩
    | _ => ⟨"".toUTF8,0⟩
  format _ _ := .ok "a = 1\nb = 2\n"
  sortImports := none
  objection _ _ _ := none
  lint _ _ := "".toUTF8
  environment := []
  terminal := ⟨80,false,none⟩

def returnTree (content : String) : FileTree := ⟨[(["r"],.directory),(["r","a.py"],.file content.toUTF8 0)]⟩

def returnSession : Session where
  tree := returnTree returnText
  cwd := ⟨.root,["r"]⟩
  log := #[]
  out := ""
  err := ""
  events := #[]
  console := none
  verified := 0
  linted := 0
  formatterConfig := none
  comparison := none
  projectRoots := []

def returnRewrite : Rewrite :=
  ⟨⟨.root,["r","a.py"]⟩,returnText,Document.ofText "a=0\nb = 2\n",Document.ofText "a = 1\nb = 2\n",0⟩

theorem returnWritten : returnRewrite.written = "a = 1\nb = 2\n" := by
  cbv

theorem returnUntouched : returnRewrite.untouched = [("b = 2","\r\n")] := by
  have selected : returnRewrite.selected = [⟨.replace,0,1,0,1⟩] := by cbv
  rw [Rewrite.untouched,selected]
  decide +kernel

/- A run on fixed inputs with a single file, step by step. Each step is computed from the session that the steps
before it leave, which is never written out. -/
theorem onlyFileRun (name : String) (args : List String) (tools : Tools) (s : Session) (path root : Path)
    (range : RevisionRange) (edited old formatted : Document) (text : String) (tree : FileTree) :
    let first := (exec (Program.prepare name args) tools s).2
    let second := (exec (listing [path] range) tools first).2
    let third := (exec (openJob root range false [] path) tools second).2
    let fourth := (exec (contentAt path range.source root) tools third).2
    (exec (Program.prepare name args) tools s).1.toOption.map
      (fun p => (p.paths,p.range,p.sorted,p.check,p.diff,p.options.isEmpty)) = some ([path],range,false,false,false,true) →
    (exec (listing [path] range) tools first).1.toOption = some (root,[path]) →
    (exec (openJob root range false [] path) tools second).1.toOption = some ⟨root,range,path,edited,edited,false⟩ →
    (exec (contentAt path range.source root) tools third).1.toOption = some old →
    (exec (Formatter.format (root.join path) edited []) tools (exec (diffDocuments old edited) tools fourth).2).1.toOption.map
      Prod.fst = some formatted →
    (candidate old edited formatted 0).text = text → tools.objection third.verified edited.text text = none →
    text ≠ edited.text → s.tree.write s.cwd (root.join path) text.toUTF8 0 = .ok tree →
    (exec (Program.run name args) tools s).2.tree = tree := by
  intro first second third fourth planned listing opening content formatting candidate agreed differs wrote
  obtain ⟨⟨_,_,_,_,_,linters,options⟩,prepared,fields⟩ := execOkPart planned
  simp only [Prod.mk.injEq,List.isEmpty_iff] at fields
  obtain ⟨rfl,rfl,rfl,rfl,rfl,rfl⟩ := fields
  have listed := execOk listing
  obtain ⟨⟨_,left⟩,done,rfl⟩ := execOkPart formatting
  subst candidate
  have still : Still s second := stillLasting.trans (calmStill (withinEnds (standsPrepare _ _) prepared))
    (undisturbedStill (withinEnds (asksListing _ _) listed))
  rw [← still.tree,← still.cwd] at wrote
  rw [Program.run,execBindOk prepared]
  exact onlyFileWritten (execOk opening) (execOk content) done agreed differs wrote listed

def returnRange : RevisionRange := ⟨"HEAD",.workingTree,false⟩

theorem returnPlanned :
    (exec (Program.prepare "darker" ["a.py"]) returnTools returnSession).1.toOption.map
      (fun p => (p.paths,p.range,p.sorted,p.check,p.diff,p.options.isEmpty)) =
      some ([⟨.relative,["a.py"]⟩],returnRange,false,false,false,true) := by
  decide +kernel

theorem returnListed :
    (exec (listing [⟨.relative,["a.py"]⟩] returnRange) returnTools
      (exec (Program.prepare "darker" ["a.py"]) returnTools returnSession).2).1.toOption =
      some (⟨.root,["r"]⟩,[⟨.relative,["a.py"]⟩]) := by
  decide +kernel

theorem returnRun :
    (exec (Program.run "darker" ["a.py"]) returnTools returnSession).2.tree = returnTree "a = 1\nb = 2\n" :=
  onlyFileRun "darker" ["a.py"] returnTools returnSession ⟨.relative,["a.py"]⟩ ⟨.root,["r"]⟩ returnRange
    (Document.ofText "a=1\nb = 2\n").keepLines (Document.ofText "a=0\nb = 2\n") (Document.ofText "a = 1\nb = 2\n")
    "a = 1\nb = 2\n" _ returnPlanned returnListed (by decide +kernel) (by decide +kernel) (by decide +kernel)
    (by cbv) rfl (by decide) rfl

/- Lines outside the edited chunks can change: the second line is in no chunk with an edited line, it ended with a
carriage return and a line feed, and the new file has it with the line feed alone. -/
theorem carriageReturnDropped :
    ¬Diverted "darker" ["a.py"] returnTools returnSession ∧
    Lists "darker" ["a.py"] returnTools returnSession returnRange ⟨.root,["r"]⟩ [⟨.relative,["a.py"]⟩] ∧
    Rewrites returnTools returnRange ⟨.root,["r"]⟩ [⟨.relative,["a.py"]⟩] returnSession.cwd returnSession.tree [returnRewrite]
      (exec (Program.run "darker" ["a.py"]) returnTools returnSession).2.tree ∧
    ("b = 2","\r\n") ∈ returnRewrite.untouched ∧ ("b = 2","\r\n") ∉ pieces returnRewrite.written := by
  obtain ⟨plan,prepared,fields⟩ := execOkPart returnPlanned
  simp only [Prod.mk.injEq] at fields
  obtain ⟨paths,range,sorted,check,diff,_⟩ := fields
  refine ⟨?_,?_,?_,?_,?_⟩
  · rintro ⟨other,planned,diverted⟩
    rw [prepared] at planned
    cases planned
    simp [sorted,check,diff] at diverted
  · exact ⟨plan,_,_,prepared,range,by rw [paths]; exact execOk returnListed⟩
  · rw [returnRun]
    refine .more ⟨⟨0,rfl⟩,?_,⟨⟨.none,true⟩,_,rfl,rfl⟩,⟨0,?_,rfl⟩,?_,?_⟩ .none
    · refine ⟨_,List.mem_singleton.mpr rfl,rfl,fun x tree cwd => ?_⟩
      rw [contentStable returnTools _ _ _ tree cwd,@execOk _ (contentAt ⟨.relative,["a.py"]⟩ returnRange.source ⟨.root,["r"]⟩)
        returnTools returnSession (Document.ofText "a=0\nb = 2\n") (by decide +kernel)]
      rfl
    · intro c earlier
      cases earlier
    · rw [returnWritten]
      decide
    · rw [returnWritten]
      rfl
  · simp [returnUntouched]
  · rw [returnWritten]
    decide +kernel

end Retouch.Rewriting
