import Retouch.Proofs.Rewriting

/-! The two sides of a comparison. Files are listed between the base of a range and its target, but the lines of
a listed file are numbered between the source of the range and the file that was read. Both ways agree where
the base holds what the source holds, and the target what was read. -/
namespace Retouch.Baseline
open Execution Inquiry Candidates Course Listing

def changedLines (old new : Document) : List Int := editedLines (diffLines old.lines new.lines) 0

structure Listed (tools : Tools) (root : Path) (range : RevisionRange) (base : String) (t : Session) : Prop where
  own : range.commonAncestor = false → base = range.source
  ancestor : range.commonAncestor = true → ∃ text, String.fromUTF8? (tools.git ["merge-base",range.source,
    if range.target.isWorkingTree then "HEAD" else range.target.name]).output = some text ∧
      (splitLines text).head? = some base
  asked : ∃ below, .git root (["diff","--name-only","--relative"] ++ endsOf base range.target ++ "--" :: below) ∈
    t.events.toList

structure Numbered (tools : Tools) (range : RevisionRange) (base : String) (s : Session) (job : Job) (c : Trial) :
    Prop where
  read : (exec (Run.readText job.file) tools s).1 = .ok job.edited.text
  source : (exec (contentAt job.path range.source job.root) tools s).1 = .ok c.old
  chosen : c.result.lines = chooseLines (changedLines c.old job.edited)
    ((diffLines job.edited.lines c.formatted.lines).map (Chunk.ofEdit job.edited.lines c.formatted.lines))
  agree : ∀ first last, (exec (contentAt job.path base job.root) tools s).1 = .ok first →
    (exec (contentAt job.path range.target.name job.root) tools s).1 = .ok last →
    (range.commonAncestor = true → first.lines = c.old.lines) →
    (range.target.isWorkingTree = false → last.lines = job.edited.lines) →
    changedLines c.old job.edited = changedLines first last

theorem baseSource {range root tools s base t} (run : exec (baseRevision range root) tools s = (.ok base,t)) :
    (range.commonAncestor = false → base = range.source) ∧
    (range.commonAncestor = true → ∃ text, String.fromUTF8? (tools.git ["merge-base",range.source,
      if range.target.isWorkingTree then "HEAD" else range.target.name]).output = some text ∧
        (splitLines text).head? = some base) := by
  unfold baseRevision at run
  cases ancestor : range.commonAncestor with
  | false =>
    rw [ancestor] at run
    cases run
    exact ⟨fun _ => rfl,by simp⟩
  | true =>
    rw [ancestor] at run
    rcases execBindCases run with ⟨e,_,impossible⟩ | ⟨lines,u,asked,rest⟩
    · cases impossible
    obtain ⟨text,decoded,rfl⟩ := gitLinesSource asked
    cases head : (splitLines text).head? with
    | none =>
      rw [head] at rest
      cases rest
    | some first =>
      rw [head] at rest
      cases rest
      exact ⟨by simp,fun _ => ⟨text,decoded,head⟩⟩

theorem gitLinesAsked {root args tools s lines t} (run : exec (gitLines root args) tools s = (.ok lines,t)) :
    .git root args ∈ t.events.toList := by
  rcases execBindCases run with ⟨e,_,impossible⟩ | ⟨answer,u,asked,rest⟩
  · cases impossible
  have recorded : Event.git root args ∈ u.events.toList := by
    cases asked
    simp
  split at rest
  · cases rest
  · split at rest
    · cases rest
    · have kept := withinEnds (withinBind undisturbedLasting (withinDecode undisturbed _)
        (fun text => withinPure undisturbedLasting (splitLines text))) rest
      obtain ⟨asked,more,_⟩ := kept.events
      rw [more]
      exact List.mem_append_left _ recorded

theorem listingListed {sources range tools s root files t}
    (run : exec (listing sources range) tools s = (.ok (root,files),t)) : ∃ base, Listed tools root range base t := by
  obtain ⟨_,_,listed⟩ := listingSource run
  obtain ⟨below,base,changed,added,_,_,w,_,found,third,fourth,_⟩ := modifiedFilesSource listed
  obtain ⟨own,ancestor⟩ := baseSource found
  refine ⟨base,own,ancestor,below,?_⟩
  have asked := gitLinesAsked third
  rcases fourth with ⟨_,fourth⟩ | ⟨_,rfl⟩
  · obtain ⟨later,more,_⟩ := (withinEnds (withinGitLines undisturbed _ _) fourth).events
    rw [more]
    exact List.mem_append_left _ asked
  · exact asked

theorem worktreeLines {path root tools s text last} (read : (exec (Run.readText (root.join path)) tools s).1 = .ok text)
    (content : (exec (contentAt path workingTreeName root) tools s).1 = .ok last) : last.lines = splitLines text := by
  rw [contentAt,if_pos (beq_self_eq_true _)] at content
  rcases bytes : exec (Run.readBytes (root.join path)) tools s with ⟨f | ⟨found,modified⟩,t⟩
  · rw [loadDocument,execBindError bytes] at content
    cases content
  rw [loadDocument,execBindOk bytes] at content
  rw [Run.readText,execBindOk bytes] at read
  rcases decoded : exec (Run.decode found) tools t with ⟨f | raw,u⟩
  · rw [execBindError decoded] at content
    cases content
  rw [execBindOk decoded] at content read
  cases content
  cases read
  rfl

theorem firstNumbered {tools root range base options path s v s' c}
    (visit : Searched tools root range false options path s v s') {t : Session} (listed : Listed tools root range base t) (first : v.trials.head? = some c) :
    Numbered tools range base s v.job c := by
  obtain ⟨rfl,rfl,rfl,_⟩ := visit.opened.place
  have unsorted := visit.opened.unsorted rfl
  rw [List.head?_eq_getElem?] at first
  obtain ⟨d,_,tries,steady,_⟩ := triedAt visit.trials first
  have start := steadyTrans (undisturbedSteady (openJobOpened visit.opening).2) steady
  have source : (exec (contentAt v.job.path v.job.range.source v.job.root) tools s).1 = .ok c.old := by
    rw [← contentStable tools _ _ _ start.tree start.cwd]
    exact tries.revision
  have read : (exec (Run.readText v.job.file) tools s).1 = .ok v.job.edited.text := by
    rw [unsorted]
    exact visit.opened.read
  refine ⟨read,source,by rw [tries.built]; rfl,?_⟩
  intro first last atBase atTarget sameSource sameTarget
  have old : first.lines = c.old.lines := by
    cases ancestor : v.job.range.commonAncestor with
    | true => exact sameSource ancestor
    | false =>
      rw [listed.own ancestor,source] at atBase
      cases atBase
      rfl
  have new : last.lines = v.job.edited.lines := by
    cases worktree : v.job.range.target.isWorkingTree with
    | false => exact sameTarget worktree
    | true =>
      rw [visit.opened.lines]
      have named : v.job.range.target.name = workingTreeName := by simpa [Target.isWorkingTree] using worktree
      exact worktreeLines read (named ▸ atTarget)
  rw [changedLines,changedLines,old,new]

theorem linesNumberedFromSource {σ : Type} (sources : List Path) (range : RevisionRange) (linters : Value)
    (options : Settings) (sink : Sink σ) (start : σ) (tools : Tools) (s : Session) :
    (∃ f t, exec (listing sources range) tools s = (.error f,t) ∧
      exec (reformatEdited sources range false linters options sink start) tools s = (.error f,t)) ∨
    ∃ root files t visits r u base, exec (listing sources range) tools s = (.ok (root,files),t) ∧
      Listed tools root range base t ∧ Walk tools root range false sink start options t files visits r u ∧
      visits.map (fun v => v.job.path) <+: files ∧ (∀ g, r = .ok g → visits.map (fun v => v.job.path) = files) ∧
      (∀ f, r = .error f → exec (reformatEdited sources range false linters options sink start) tools s = (.error f,u)) ∧
      ∀ v ∈ visits, ∃ n a b, Searched tools root range false (optionsLeft options n) v.job.path a v b ∧
        ∀ c, v.trials.head? = some c → Numbered tools range base a v.job c := by
  rw [reformatEditedListed]
  rcases found : exec (listing sources range) tools s with ⟨f | ⟨root,files⟩,t⟩
  · exact .inl ⟨f,t,rfl,execBindError found⟩
  obtain ⟨base,listed⟩ := listingListed found
  obtain ⟨visits,r,u,walk,result,final⟩ := foldWalk root range false sink tools files ⟨start,options⟩ t
  refine .inr ⟨root,files,t,visits,r,u,base,rfl,listed,walk,visitedInOrder walk,fun _ => finishedAll walk,?_,?_⟩
  · intro f failed
    rw [execBindOk found]
    rcases run : exec (files.foldlM (reformatFile root range false sink) ⟨start,options⟩) tools t with ⟨e | progress,v⟩
    · rw [run] at result final
      subst failed final
      cases result
      exact execBindError run
    · rw [run] at result
      subst failed
      cases result
  · intro v member
    obtain ⟨n,a,b,visit⟩ := visitsSearched walk v member
    exact ⟨n,a,b,visit,fun c first => firstNumbered visit listed first⟩

def branchTools : Tools where
  git args := match args with
    | ["merge-base","main","HEAD"] => ⟨"b0\n".toUTF8,0⟩
    | ["show","main:./a.py"] => ⟨"a=0\nc = 5\nb=3\n".toUTF8,0⟩
    | ["show","b0:./a.py"] => ⟨"a=0\nc = 5\nb=2\n".toUTF8,0⟩
    | "diff" :: _ => ⟨"a.py\n".toUTF8,0⟩
    | _ => ⟨"".toUTF8,0⟩
  format _ _ := .ok "a = 1\nc = 5\nb = 2\n"
  sortImports := none
  objection _ _ _ := none
  lint _ _ := "".toUTF8
  environment := []
  terminal := ⟨80,false,none⟩

def branchSession : Session :=
  { Rewriting.returnSession with tree := Rewriting.returnTree "a=1\nc = 5\nb=2\n" }

/- Since the base only the first line was changed, and choosing by that would leave the third line alone. The run
counts the third line too, because `main` has changed it, and rewrites it. -/
theorem branchNumberedFromSource :
    let root : Path := ⟨.root,["r"]⟩
    let path : Path := ⟨.relative,["a.py"]⟩
    let edited : Document := (Document.ofText "a=1\nc = 5\nb=2\n").keepLines
    let formatted : Document := Document.ofText "a = 1\nc = 5\nb = 2\n"
    let first : Document := Document.ofText "a=0\nc = 5\nb=2\n"
    let source : Document := Document.ofText "a=0\nc = 5\nb=3\n"
    (exec (RevisionRange.parse "main...") branchTools branchSession).1.toOption = some ⟨"main",.workingTree,true⟩ ∧
    (exec (baseRevision ⟨"main",.workingTree,true⟩ root) branchTools branchSession).1.toOption = some "b0" ∧
    (exec (contentAt path "b0" root) branchTools branchSession).1.toOption = some first ∧
    (exec (contentAt path "main" root) branchTools branchSession).1.toOption = some source ∧
    changedLines first edited = [1] ∧ changedLines source edited = [1,3] ∧
    (candidate first edited formatted 0).text = "a = 1\nc = 5\nb=2\n" ∧
    (exec (Program.run "darker" ["-r","main...","a.py"]) branchTools branchSession).2.tree =
      Rewriting.returnTree "a = 1\nc = 5\nb = 2\n" := by
  refine ⟨by decide +kernel,by decide +kernel,by decide +kernel,by decide +kernel,by cbv,by cbv,by cbv,?_⟩
  exact Rewriting.onlyFileRun "darker" ["-r","main...","a.py"] branchTools branchSession ⟨.relative,["a.py"]⟩ ⟨.root,["r"]⟩
    ⟨"main",.workingTree,true⟩ (Document.ofText "a=1\nc = 5\nb=2\n").keepLines (Document.ofText "a=0\nc = 5\nb=3\n")
    (Document.ofText "a = 1\nc = 5\nb = 2\n") "a = 1\nc = 5\nb = 2\n" _ (by decide +kernel) (by decide +kernel)
    (by decide +kernel) (by decide +kernel) (by decide +kernel) (by cbv) rfl (by decide) rfl

end Retouch.Baseline
