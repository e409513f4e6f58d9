import Retouch.Proofs.Inquiry
import Retouch.Proofs.Overwriting

/-! The list of modified files: sorted name by name, and each path once. The root lies above every file, and
where Git names files normally, different names lead to different places. -/
namespace Retouch.Listing
open Execution Inquiry

theorem leNamesTrans {a b c : List String} (ab : Path.leNames a b = true) (bc : Path.leNames b c = true) :
    Path.leNames a c = true := by
  induction a generalizing b c with
  | nil => rfl
  | cons x a ih =>
    cases b with
    | nil => simp [Path.leNames] at ab
    | cons y b =>
      cases c with
      | nil => simp [Path.leNames] at bc
      | cons z c =>
        simp only [Path.leNames] at ab bc ⊢
        by_cases xy : x = y
        · subst y
          simp only [beq_self_eq_true,if_true] at ab
          by_cases xz : x = z
          · subst z
            simp only [beq_self_eq_true,if_true] at bc ⊢
            exact ih ab bc
          · simpa [xz] using bc
        · have lt : x < y := by simpa [xy] using ab
          by_cases yz : y = z
          · subst z
            simpa [xy] using lt
          · have lt' : y < z := by simpa [yz] using bc
            have far := String.lt_trans lt lt'
            have apart : x ≠ z := by
              intro same
              subst z
              exact String.lt_irrefl x far
            simpa [apart] using far

theorem leNamesTotal (a b : List String) : (Path.leNames a b || Path.leNames b a) = true := by
  induction a generalizing b with
  | nil => rfl
  | cons x a ih =>
    cases b with
    | nil => simp [Path.leNames]
    | cons y b =>
      simp only [Path.leNames]
      by_cases same : x = y
      · subst y
        simpa using ih b
      · have other : y ≠ x := fun h => same h.symm
        by_cases lt : x < y
        · simp [same,lt]
        · have le := String.not_lt.mp lt
          have back : y < x := by
            by_cases lt' : y < x
            · exact lt'
            · exact absurd (String.le_antisymm (String.not_lt.mp lt') le) same
          simp [other,back]

theorem eraseDupsNodup [BEq α] [LawfulBEq α] (xs : List α) : xs.eraseDups.Nodup := by
  match xs with
  | [] => simp
  | x :: xs =>
    rw [List.eraseDups_cons,List.nodup_cons]
    refine ⟨?_,eraseDupsNodup _⟩
    intro member
    have kept := (List.mem_filter.mp (List.mem_eraseDups.mp member)).2
    simp at kept
termination_by xs.length
decreasing_by exact Nat.lt_succ_of_le (List.length_filter_le _ _)

theorem execFilterM {g : α → Run Bool} {keep : α → Bool} {tools : Tools} {s : Session}
    (answers : ∀ x, exec (g x) tools s = (.ok (keep x),s)) (xs : List α) :
    exec (xs.filterM g) tools s = (.ok (xs.filter keep),s) := by
  have loop (kept : List α) : exec (xs.filterAuxM g kept) tools s = (.ok ((xs.filter keep).reverse ++ kept),s) := by
    induction xs generalizing kept with
    | nil => rfl
    | cons x xs ih =>
      rw [List.filterAuxM,execBindOk (answers x),ih]
      cases h : keep x <;> simp [h]
  rw [List.filterM,execBindOk (loop [])]
  simp

theorem sortOrdered (ps : List Path) : (Path.sort ps).Pairwise (fun p q => Path.leNames p.key q.key = true) := by
  have trans (p q r : Path) (pq : Path.leNames p.key q.key = true) (qr : Path.leNames q.key r.key = true) :
      Path.leNames p.key r.key = true := leNamesTrans pq qr
  exact List.pairwise_mergeSort trans (fun p q => leNamesTotal p.key q.key) ps

theorem sortedDistinct (names : List Path) (keep : Path → Bool) :
    (Path.sort (names.eraseDups.filter keep)).Pairwise (fun p q => Path.leNames p.key q.key = true ∧ p ≠ q) := by
  have distinct := (eraseDupsNodup names).filter keep
  have sorted : (Path.sort (names.eraseDups.filter keep)).Nodup :=
    (List.mergeSort_perm _ _).symm.nodup distinct
  exact (sortOrdered _).and sorted

theorem modifiedFilesSource {paths range root tools s files t}
    (run : exec (modifiedFiles paths range root) tools s = (.ok files,t)) :
    ∃ below base changed added u v w, exec (belowRoot root paths) tools s = (.ok below,u) ∧
      exec (baseRevision range root) tools u = (.ok base,v) ∧
      exec (gitLines root (["diff","--name-only","--relative"] ++ endsOf base range.target ++ "--" :: below)) tools v =
        (.ok changed,w) ∧
      ((range.target.isWorkingTree = true ∧
        exec (gitLines root (["ls-files","--others","--exclude-standard","--"] ++ below)) tools w = (.ok added,t)) ∨
        (added = [] ∧ t = w)) ∧
      files = Path.sort (((changed ++ added).map Path.ofString).eraseDups.filter (fun p =>
        t.tree.isPresent t.cwd (root.join p) && (root.join p).suffix == ".py")) := by
  have listed (names : List String) (u : Session) (done : exec (do
      let files ← (names.map Path.ofString).eraseDups.filterM (fun p => shouldReformat (root.join p))
      return Path.sort files) tools u = (.ok files,t)) :
      t = u ∧ files = Path.sort ((names.map Path.ofString).eraseDups.filter (fun p =>
        u.tree.isPresent u.cwd (root.join p) && (root.join p).suffix == ".py")) := by
    have answers (p : Path) : exec (shouldReformat (root.join p)) tools u =
        (.ok (u.tree.isPresent u.cwd (root.join p) && (root.join p).suffix == ".py"),u) := rfl
    rw [execBindOk (execFilterM answers _)] at done
    cases done
    exact ⟨rfl,rfl⟩
  rcases execBindCases run with ⟨e,_,impossible⟩ | ⟨below,u,first,rest⟩
  · cases impossible
  rcases execBindCases rest with ⟨e,_,impossible⟩ | ⟨base,v,second,rest⟩
  · cases impossible
  rcases execBindCases rest with ⟨e,_,impossible⟩ | ⟨changed,w,third,rest⟩
  · cases impossible
  dsimp only at rest
  split at rest
  · rename_i worktree
    rcases execBindCases rest with ⟨e,_,impossible⟩ | ⟨added,x,fourth,rest⟩
    · cases impossible
    · obtain ⟨rfl,same⟩ := listed (changed ++ added) x rest
      exact ⟨below,base,changed,added,u,v,w,first,second,third,.inl ⟨worktree,fourth⟩,same⟩
  · obtain ⟨rfl,same⟩ := listed (changed ++ []) w rest
    exact ⟨below,base,changed,[],u,v,t,first,second,third,.inr ⟨rfl,rfl⟩,same⟩

theorem listedInOrder {paths range root tools s files t}
    (run : exec (modifiedFiles paths range root) tools s = (.ok files,t)) :
    files.Pairwise (fun p q => Path.leNames p.key q.key = true ∧ p ≠ q) := by
  obtain ⟨_,_,_,_,_,_,_,_,_,_,_,rfl⟩ := modifiedFilesSource run
  exact sortedDistinct _ _

def listing (sources : List Path) (range : RevisionRange) : Run (Path × List Path) := do
  let root ← commonRoot sources
  let files ← modifiedFiles sources range root
  return (root,files)

theorem withinListing {R : Session → Session → Prop} {F : Failure → Prop} (tolerant : Tolerates R F)
    (sources : List Path) (range : RevisionRange) : Within R F (listing sources range) := by
  refine withinBind tolerant.lasting (withinCommonRoot tolerant _) (fun root => ?_)
  exact withinBind tolerant.lasting (withinModifiedFiles tolerant _ _ _) (fun _ => withinPure tolerant.lasting _)

theorem asksListing (sources : List Path) (range : RevisionRange) : Asks (listing sources range) :=
  withinListing undisturbed sources range

theorem listingSource {sources range tools s root files t}
    (run : exec (listing sources range) tools s = (.ok (root,files),t)) :
    ∃ u, exec (commonRoot sources) tools s = (.ok root,u) ∧ exec (modifiedFiles sources range root) tools u = (.ok files,t) := by
  rcases execBindCases run with ⟨e,_,impossible⟩ | ⟨found,u,first,rest⟩
  · cases impossible
  rcases execBindCases rest with ⟨e,_,impossible⟩ | ⟨names,v,second,last⟩
  · cases impossible
  cases last
  exact ⟨u,first,second⟩

theorem listingOrdered {sources range tools s root files t}
    (run : exec (listing sources range) tools s = (.ok (root,files),t)) :
    files.Pairwise (fun p q => Path.leNames p.key q.key = true ∧ p ≠ q) := by
  obtain ⟨_,_,listed⟩ := listingSource run
  exact listedInOrder listed

structure Normal (p : Path) : Prop where
  relative : p.anchor = .relative
  forward : ".." ∉ p.parts

def NamesNormally (tools : Tools) : Prop :=
  ∀ command args text, command = "diff" ∨ command = "ls-files" →
    String.fromUTF8? (tools.git (command :: args)).output = some text →
    ∀ name ∈ splitLines text, Normal (Path.ofString name)

theorem gitLinesSource {root args tools s lines t} (run : exec (gitLines root args) tools s = (.ok lines,t)) :
    ∃ text, String.fromUTF8? (tools.git args).output = some text ∧ lines = splitLines text := by
  rcases execBindCases run with ⟨e,_,impossible⟩ | ⟨answer,u,asked,rest⟩
  · cases impossible
  have same : answer = tools.git args := by
    cases asked
    rfl
  subst same
  split at rest
  · cases rest
  · split at rest
    · cases rest
    · rcases execBindCases rest with ⟨e,_,impossible⟩ | ⟨text,v,decoded,last⟩
      · cases impossible
      cases last
      refine ⟨text,?_,rfl⟩
      unfold Run.decode at decoded
      cases found : String.fromUTF8? (tools.git args).output with
      | none =>
        rw [found] at decoded
        cases decoded
      | some text' =>
        rw [found] at decoded
        cases decoded
        rfl

theorem listedAs {sources range tools s root files t place kept} (changed : String)
    (run : exec (listing sources range) tools s = (.ok (root,files),t))
    (common : commonPath ((sources.map (Path.resolve s.cwd)).map (ancestry s.tree s.cwd)) = some place)
    (differing : ∀ args, String.fromUTF8? (tools.git ("diff" :: args)).output = some changed)
    (unlisted : ∀ args, String.fromUTF8? (tools.git ("ls-files" :: args)).output = some "")
    (selected : ((splitLines changed).map Path.ofString).eraseDups.filter (fun p =>
      s.tree.isPresent s.cwd (place.join p) && (place.join p).suffix == ".py") = kept)
    (ordered : kept.Pairwise (fun p q => Path.leNames p.key q.key = true)) : root = place ∧ files = kept := by
  have undisturbed := withinEnds (asksListing _ _) run
  obtain ⟨u,found,listed⟩ := listingSource run
  obtain rfl : place = root := by
    rw [commonRoot,execBindOk (execGet _ _)] at found
    dsimp only at found
    rw [common] at found
    cases found
    rfl
  obtain ⟨below,base,names,added,_,_,_,_,_,asked,others,rfl⟩ := modifiedFilesSource listed
  obtain ⟨text,printed,rfl⟩ := gitLinesSource asked
  cases printed.symm.trans (differing _)
  have none : added = [] := by
    rcases others with ⟨_,asked⟩ | ⟨none,_⟩
    · obtain ⟨text,printed,rfl⟩ := gitLinesSource asked
      cases printed.symm.trans (unlisted _)
      rw [splitLines,String.toList_empty]
      rfl
    · exact none
  rw [none,List.append_nil,undisturbed.tree,undisturbed.cwd,selected]
  exact ⟨rfl,List.mergeSort_of_pairwise ordered⟩

theorem listedFile {sources range tools s root files t}
    (run : exec (listing sources range) tools s = (.ok (root,files),t)) {p : Path} (member : p ∈ files) :
    (root.join p).suffix = ".py" ∧ (NamesNormally tools → Normal p) := by
  obtain ⟨_,_,listed⟩ := listingSource run
  obtain ⟨below,base,changed,added,_,_,_,_,_,third,fourth,rfl⟩ := modifiedFilesSource listed
  obtain ⟨named,kept⟩ := List.mem_filter.mp ((List.mergeSort_perm _ _).mem_iff.mp member)
  simp only [Bool.and_eq_true,beq_iff_eq] at kept
  refine ⟨kept.2,fun normally => ?_⟩
  obtain ⟨name,printed,rfl⟩ := List.mem_map.mp (List.mem_eraseDups.mp named)
  rcases List.mem_append.mp printed with inDiff | inNew
  · obtain ⟨text,decoded,rfl⟩ := gitLinesSource third
    exact normally "diff" _ text (.inl rfl) decoded name inDiff
  · rcases fourth with ⟨_,fourth⟩ | ⟨none,_⟩
    · obtain ⟨text,decoded,rfl⟩ := gitLinesSource fourth
      exact normally "ls-files" _ text (.inr rfl) decoded name inNew
    · rw [none] at inNew
      cases inNew

theorem settleForward {done names : List String} (clean : ".." ∉ done) : ".." ∉ Path.settle done names := by
  fun_induction Path.settle done names with
  | case1 done => simpa using clean
  | case2 done rest ih => exact ih (fun member => clean (List.mem_of_mem_tail member))
  | case3 done name rest apart ih =>
    refine ih ?_
    simp only [List.mem_cons,not_or]
    exact ⟨fun same => apart same.symm,clean⟩

theorem commonPathMember {first : List Path} {rest : List (List Path)} {p : Path}
    (found : commonPath (first :: rest) = some p) : p ∈ first := by
  unfold commonPath at found
  obtain ⟨⟨q,n⟩,here,rfl⟩ := Option.map_eq_some_iff.mp found
  have member := List.mem_of_find?_eq_some here
  rw [List.mem_reverse] at member
  exact List.mem_of_mem_take (List.fst_mem_of_mem_zipIdx member)

theorem commonPathPlain {tree : FileTree} {cwd base root : Path} {paths : List Path}
    (found : commonPath ((paths.map (Path.resolve base)).map (ancestry tree cwd)) = some root) :
    root.anchor = .root ∧ ".." ∉ root.parts := by
  cases paths with
  | nil => cases found
  | cons first rest =>
    have member := commonPathMember found
    have clean : ".." ∉ (Path.resolve base first).parts := settleForward (by simp)
    have above : ∀ q ∈ (Path.resolve base first).ancestors, q.anchor = .root ∧ ".." ∉ q.parts := by
      intro q inside
      obtain ⟨n,_,rfl⟩ := List.mem_map.mp inside
      exact ⟨rfl,fun back => clean (List.mem_of_mem_take back)⟩
    unfold ancestry at member
    split at member
    · rcases List.mem_append.mp member with inside | own
      · exact above root inside
      · rw [List.mem_singleton.mp own]
        exact ⟨rfl,clean⟩
    · exact above root member

theorem commonRootPlain {paths tools s root t} (run : exec (commonRoot paths) tools s = (.ok root,t)) :
    Overwriting.Plain root := by
  rw [commonRoot,execBindOk (execGet tools s)] at run
  dsimp only at run
  cases found : commonPath ((paths.map (Path.resolve s.cwd)).map (ancestry s.tree s.cwd)) with
  | none =>
    rw [found] at run
    cases run
  | some p =>
    rw [found] at run
    cases run
    obtain ⟨anchor,clean⟩ := commonPathPlain found
    exact ⟨by rw [Path.isAbsolute,anchor]; rfl,clean⟩

theorem listingRoot {sources range tools s root files t}
    (run : exec (listing sources range) tools s = (.ok (root,files),t)) : Overwriting.Plain root := by
  obtain ⟨_,first,_⟩ := listingSource run
  exact commonRootPlain first

theorem joinParts {root p : Path} (normal : Normal p) : (root.join p).parts = root.parts ++ p.parts := by
  unfold Path.join Path.isAbsolute
  rw [normal.relative]
  rfl

theorem joinPlain {root p : Path} (plain : Overwriting.Plain root) (normal : Normal p) :
    Overwriting.Plain (root.join p) := by
  refine ⟨?_,?_⟩
  · have absolute := plain.absolute
    unfold Path.join Path.isAbsolute at *
    rw [normal.relative]
    exact absolute
  · rw [joinParts normal]
    simpa using ⟨plain.forward,normal.forward⟩

theorem joinInjective {root p q : Path} (normal : Normal p) (normal' : Normal q)
    (same : (root.join p).parts = (root.join q).parts) : p = q := by
  rw [joinParts normal,joinParts normal'] at same
  obtain ⟨anchor,parts⟩ := p
  obtain ⟨anchor',parts'⟩ := q
  cases List.append_cancel_left same
  cases normal.relative
  cases normal'.relative
  rfl

end Retouch.Listing
