import Retouch.Proofs.Changes
import Retouch.Proofs.Rewriting

/-! What does not depend on how things are arranged. The root, the list of files and everything that is done with
them are the same however the sources are ordered or repeated, and however Git orders, repeats or divides the
names that it lists. -/
namespace Retouch.Arrangement
open Execution Inquiry Listing Course Changes

def SameMembers (xs ys : List α) : Prop := ∀ x, x ∈ xs ↔ x ∈ ys

theorem sameMap {xs ys : List α} (same : SameMembers xs ys) (f : α → β) : SameMembers (xs.map f) (ys.map f) := by
  intro y
  simp only [List.mem_map]
  constructor
  · rintro ⟨x,member,rfl⟩
    exact ⟨x,(same x).mp member,rfl⟩
  · rintro ⟨x,member,rfl⟩
    exact ⟨x,(same x).mpr member,rfl⟩

theorem eraseDupsPerm [BEq α] [LawfulBEq α] {xs ys : List α} (same : SameMembers xs ys) :
    xs.eraseDups.Perm ys.eraseDups := by
  rw [List.perm_ext_iff_of_nodup (eraseDupsNodup xs) (eraseDupsNodup ys)]
  intro x
  rw [List.mem_eraseDups,List.mem_eraseDups]
  exact same x

theorem sortTextsPerm {xs ys : List String} (perm : xs.Perm ys) : sortTexts xs = sortTexts ys := by
  have trans (a b c : String) (ab : decide (a ≤ b) = true) (bc : decide (b ≤ c) = true) : decide (a ≤ c) = true :=
    decide_eq_true (String.le_trans (of_decide_eq_true ab) (of_decide_eq_true bc))
  have total (a b : String) : (decide (a ≤ b) || decide (b ≤ a)) = true := by
    simpa using String.le_total a b
  refine List.Perm.eq_of_pairwise (fun a b _ _ ab ba => ?_) (List.pairwise_mergeSort trans total xs)
    (List.pairwise_mergeSort trans total ys) ?_
  · exact String.le_antisymm (of_decide_eq_true ab) (of_decide_eq_true ba)
  · exact (List.mergeSort_perm xs _).trans (perm.trans (List.mergeSort_perm ys _).symm)

theorem leNamesAntisymm {a b : List String} (ab : Path.leNames a b = true) (ba : Path.leNames b a = true) : a = b := by
  induction a generalizing b with
  | nil =>
    cases b with
    | nil => rfl
    | cons y b => simp [Path.leNames] at ba
  | cons x a ih =>
    cases b with
    | nil => simp [Path.leNames] at ab
    | cons y b =>
      simp only [Path.leNames] at ab ba
      by_cases same : x = y
      · subst y
        simp only [beq_self_eq_true,if_true] at ab ba
        rw [ih ab ba]
      · have lt : x < y := by simpa [same] using ab
        have lt' : y < x := by simpa [Ne.symm same] using ba
        exact absurd (String.lt_trans lt lt') (String.lt_irrefl x)

/- A path without a slash in its names, so that none of them is taken for a root. -/
def Slashless (p : Path) : Prop := ∀ name ∈ p.parts, '/' ∉ name.toList

theorem namesAfterSlashless {name cs : List Char} (clean : '/' ∉ name) :
    ∀ part ∈ Path.namesAfter name cs, '/' ∉ part.toList := by
  fun_induction Path.namesAfter name cs with
  | case1 name => simpa using clean
  | case2 name rest ih => simpa using ⟨clean,ih (by simp)⟩
  | case3 name c rest other ih =>
    refine ih ?_
    simp only [List.mem_cons,not_or]
    exact ⟨fun slash => other slash.symm,clean⟩

theorem ofStringSlashless (s : String) : Slashless (Path.ofString s) :=
  fun part member => namesAfterSlashless (by simp) part (List.mem_filter.mp member).1

theorem keyInjective {p q : Path} (clean : Slashless p) (clean' : Slashless q) (same : p.key = q.key) : p = q := by
  have rooted (anchor : Anchor) (parts : List String) (clean : Slashless ⟨.relative,parts⟩) (others : List String)
      (other : anchor ≠ .relative) : parts ≠ Path.prefixText anchor :: others := by
    rintro rfl
    cases anchor with
    | relative => exact other rfl
    | root => exact clean "/" (by simp [Path.prefixText]) (by decide)
    | doubleRoot => exact clean "//" (by simp [Path.prefixText]) (by decide)
  obtain ⟨anchor,parts⟩ := p
  obtain ⟨anchor',parts'⟩ := q
  cases anchor <;> cases anchor' <;> simp only [Path.key,List.cons.injEq] at same
  · rw [same]
  · exact absurd same (rooted .root parts clean parts' (by simp))
  · exact absurd same (rooted .doubleRoot parts clean parts' (by simp))
  · exact absurd same.symm (rooted .root parts' clean' parts (by simp))
  · rw [same.2]
  · exact absurd same.1 (by decide)
  · exact absurd same.symm (rooted .doubleRoot parts' clean' parts (by simp))
  · exact absurd same.1 (by decide)
  · rw [same.2]

theorem pathSortPerm {ps qs : List Path} (perm : ps.Perm qs) (clean : ∀ p ∈ ps, Slashless p) :
    Path.sort ps = Path.sort qs := by
  refine List.Perm.eq_of_pairwise (fun p q inside inside' pq qp => ?_) (sortOrdered ps) (sortOrdered qs) ?_
  · have member := (List.mergeSort_perm ps _).mem_iff.mp inside
    have member' := perm.mem_iff.mpr ((List.mergeSort_perm qs _).mem_iff.mp inside')
    exact keyInjective (clean p member) (clean q member') (leNamesAntisymm pq qp)
  · exact (List.mergeSort_perm ps _).trans (perm.trans (List.mergeSort_perm qs _).symm)

def Shared (lists : List (List Path)) (n : Nat) (p : Path) : Prop := ∀ l ∈ lists, l[n]? = some p

theorem belowShortest (lists : List (List Path)) (m k : Nat) :
    k < lists.foldl (fun n l => min n l.length) m ↔ k < m ∧ ∀ l ∈ lists, k < l.length := by
  induction lists generalizing m with
  | nil => simp
  | cons l lists ih =>
    rw [List.foldl_cons,ih,Nat.lt_min,and_assoc]
    simp only [List.mem_cons,forall_eq_or_imp]

theorem foundFirst {R : α → α → Prop} {xs : List α} (ordered : xs.Pairwise R) {test : α → Bool} {a b : α}
    (found : xs.find? test = some b) (member : a ∈ xs) (passes : test a = true) : a = b ∨ R b a := by
  induction xs with
  | nil => cases member
  | cons x xs ih =>
    obtain ⟨before,ordered⟩ := List.pairwise_cons.mp ordered
    rw [List.find?_cons] at found
    split at found
    · cases Option.some.inj found
      rcases List.mem_cons.mp member with rfl | later
      · exact .inl rfl
      · exact .inr (before a later)
    · rename_i fails
      rcases List.mem_cons.mp member with rfl | later
      · rw [passes] at fails
        cases fails
      · exact ih ordered found later

theorem zipIdxDescending (xs : List α) : xs.zipIdx.reverse.Pairwise (fun a b => b.2 < a.2) := by
  rw [List.pairwise_reverse]
  have ascending := List.pairwise_lt_range' (s := 0) (n := xs.length)
  rw [← List.zipIdx_map_snd,List.pairwise_map] at ascending
  exact ascending

theorem sharedListed {first : List Path} {rest : List (List Path)} {n : Nat} {p : Path} (shared : Shared (first :: rest) n p) :
    (p,n) ∈ (first.take (rest.foldl (fun n l => min n l.length) first.length)).zipIdx.reverse ∧
      rest.all (fun l => l[n]? == some p) = true := by
  have here := shared first (by simp)
  have short : n < rest.foldl (fun n l => min n l.length) first.length := by
    rw [belowShortest]
    refine ⟨(List.getElem?_eq_some_iff.mp here).1,fun l member => ?_⟩
    exact (List.getElem?_eq_some_iff.mp (shared l (by simp [member]))).1
  refine ⟨?_,?_⟩
  · rw [List.mem_reverse,List.mem_zipIdx_iff_getElem?,List.getElem?_take_of_lt short]
    exact here
  · simpa using fun l member => shared l (by simp [member])

theorem commonPathShared {lists : List (List Path)} {p : Path} (found : commonPath lists = some p) :
    ∃ n, Shared lists n p ∧ ∀ k q, Shared lists k q → k ≤ n := by
  cases lists with
  | nil => cases found
  | cons first rest =>
    obtain ⟨⟨q,n⟩,here,rfl⟩ := Option.map_eq_some_iff.mp found
    have member := List.mem_of_find?_eq_some here
    have agreed := List.find?_some here
    refine ⟨n,?_,fun k q shared => ?_⟩
    · rw [List.mem_reverse,List.mem_zipIdx_iff_getElem?] at member
      obtain ⟨inside,eq⟩ := List.getElem?_eq_some_iff.mp member
      intro l among
      rcases List.mem_cons.mp among with rfl | later
      · rw [← eq,List.getElem_take]
        exact List.getElem?_eq_getElem _
      · simpa using List.all_eq_true.mp agreed l later
    · obtain ⟨listed,passes⟩ := sharedListed shared
      rcases foundFirst (zipIdxDescending _) here listed passes with same | later
      · cases same
        exact Nat.le_refl _
      · exact Nat.le_of_lt later

theorem commonPathUnshared {first : List Path} {rest : List (List Path)} (missing : commonPath (first :: rest) = none)
    (n : Nat) (p : Path) : ¬Shared (first :: rest) n p := by
  intro shared
  obtain ⟨listed,passes⟩ := sharedListed shared
  have none := List.find?_eq_none.mp (Option.map_eq_none_iff.mp missing) (p,n) listed
  exact none passes

theorem sharedSame {lists lists' : List (List Path)} (same : SameMembers lists lists') {n : Nat} {p : Path} :
    Shared lists n p ↔ Shared lists' n p :=
  ⟨fun h l member => h l ((same l).mpr member),fun h l member => h l ((same l).mp member)⟩

theorem commonPathSame {lists lists' : List (List Path)} (same : SameMembers lists lists') :
    commonPath lists = commonPath lists' := by
  cases lists with
  | nil =>
    cases lists' with
    | nil => rfl
    | cons first rest => exact absurd ((same first).mpr (by simp)) (by simp)
  | cons first rest =>
    cases lists' with
    | nil => exact absurd ((same first).mp (by simp)) (by simp)
    | cons first' rest' =>
      cases found : commonPath (first :: rest) with
      | none =>
        cases found' : commonPath (first' :: rest') with
        | none => rfl
        | some p =>
          obtain ⟨n,shared,_⟩ := commonPathShared found'
          exact absurd ((sharedSame same).mpr shared) (commonPathUnshared found n p)
      | some p =>
        obtain ⟨n,shared,deepest⟩ := commonPathShared found
        cases found' : commonPath (first' :: rest') with
        | none => exact absurd ((sharedSame same).mp shared) (commonPathUnshared found' n p)
        | some q =>
          obtain ⟨k,shared',deepest'⟩ := commonPathShared found'
          have le := deepest k q ((sharedSame same).mpr shared')
          have ge := deepest' n p ((sharedSame same).mp shared)
          obtain rfl : n = k := Nat.le_antisymm ge le
          have one := shared first (by simp)
          have other := (sharedSame same).mpr shared' first (by simp)
          rw [← one,other]

theorem ancestryAbove {tree : FileTree} {cwd root p : Path} (above : root ∈ ancestry tree cwd p) :
    p.relativeTo? root = some ⟨.relative,p.parts.drop root.parts.length⟩ := by
  have own : p.relativeTo? p = some ⟨.relative,p.parts.drop p.parts.length⟩ := by
    simp [Path.relativeTo?]
  have proper (inside : root ∈ p.ancestors) :
      p.relativeTo? root = some ⟨.relative,p.parts.drop root.parts.length⟩ := by
    obtain ⟨n,_,rfl⟩ := List.mem_map.mp inside
    simp [Path.relativeTo?,List.take_prefix]
  unfold ancestry at above
  split at above
  · rcases List.mem_append.mp above with inside | self
    · exact proper inside
    · rw [List.mem_singleton.mp self]
      exact own
  · exact proper above

theorem execMapM {g : α → Run β} {f : α → β} {tools : Tools} {s : Session} {xs : List α}
    (answers : ∀ x ∈ xs, exec (g x) tools s = (.ok (f x),s)) : exec (xs.mapM g) tools s = (.ok (xs.map f),s) := by
  induction xs with
  | nil => rfl
  | cons x xs ih =>
    rw [List.mapM_cons,execBindOk (answers x (by simp)),
      execBindOk (ih (fun y member => answers y (by simp [member])))]
    rfl

theorem execCommonRoot (paths : List Path) (tools : Tools) (s : Session) :
    exec (commonRoot paths) tools s =
      exec (Run.ofOption .noCommonRoot (commonPath ((paths.map (Path.resolve s.cwd)).map (ancestry s.tree s.cwd)))) tools s :=
  rfl

theorem commonRootSame {paths paths' : List Path} (same : SameMembers paths paths') (tools tools' : Tools) (s : Session) :
    exec (commonRoot paths) tools s = exec (commonRoot paths') tools' s := by
  rw [execCommonRoot,execCommonRoot,commonPathSame (sameMap (sameMap same _) _)]
  cases commonPath ((paths'.map s.cwd.resolve).map (ancestry s.tree s.cwd)) <;> rfl

def seenFrom (root cwd p : Path) : Path := ⟨.relative,(Path.resolve cwd p).parts.drop root.parts.length⟩

theorem commonRootAbove {paths tools s root t} (run : exec (commonRoot paths) tools s = (.ok root,t)) :
    t = s ∧ ∀ p ∈ paths, (Path.resolve s.cwd p).relativeTo? root = some (seenFrom root s.cwd p) := by
  rw [execCommonRoot] at run
  cases found : commonPath ((paths.map (Path.resolve s.cwd)).map (ancestry s.tree s.cwd)) with
  | none =>
    rw [found] at run
    cases run
  | some p =>
    rw [found] at run
    cases run
    obtain ⟨n,shared,_⟩ := commonPathShared found
    refine ⟨rfl,fun p member => ?_⟩
    have here := shared (ancestry s.tree s.cwd (Path.resolve s.cwd p))
      (List.mem_map_of_mem (List.mem_map_of_mem member))
    exact ancestryAbove (List.mem_of_getElem? here)

theorem execBelowRoot {paths : List Path} {root : Path} {s : Session}
    (above : ∀ p ∈ paths, (Path.resolve s.cwd p).relativeTo? root = some (seenFrom root s.cwd p)) (tools : Tools) :
    exec (belowRoot root paths) tools s =
      (.ok (sortTexts ((paths.map (seenFrom root s.cwd)).eraseDups.map Path.render)),s) := by
  have placed (p : Path) (member : p ∈ paths) :
      exec (Run.ofOption (.outside (Path.resolve s.cwd p) root) ((Path.resolve s.cwd p).relativeTo? root)) tools s =
        (.ok (seenFrom root s.cwd p),s) := by
    rw [above p member]
    rfl
  rw [belowRoot,execBindOk (execGet tools s)]
  exact execBindOk (execMapM placed)

theorem belowSame {paths paths' : List Path} (same : SameMembers paths paths') (root cwd : Path) :
    sortTexts ((paths.map (seenFrom root cwd)).eraseDups.map Path.render) =
      sortTexts ((paths'.map (seenFrom root cwd)).eraseDups.map Path.render) :=
  sortTextsPerm (List.Perm.map Path.render (eraseDupsPerm (sameMap same _)))

def linesOf (answer : GitAnswer) : List String := ((String.fromUTF8? answer.output).map splitLines).getD []

def namesListed (git : List String → GitAnswer) (target : Target) (base : String) (below : List String) : List String :=
  linesOf (git (["diff","--name-only","--relative"] ++ endsOf base target ++ "--" :: below)) ++
    if target.isWorkingTree then linesOf (git (["ls-files","--others","--exclude-standard","--"] ++ below)) else []

/- Answers that differ from those of Git in nothing but how the names are arranged that are listed for a run: in which
order, how often, and for the working tree under which of the two questions. -/
structure Rearranged (range : RevisionRange) (tools : Tools) (git' : List String → GitAnswer) : Prop where
  others : ∀ args, args.head? ≠ some "diff" → args.head? ≠ some "ls-files" → git' args = tools.git args
  status : ∀ args, (git' args).status = (tools.git args).status
  readable : ∀ args, (String.fromUTF8? (git' args).output).isSome = (String.fromUTF8? (tools.git args).output).isSome
  names : ∀ root s base t below, exec (baseRevision range root) tools s = (.ok base,t) →
    SameMembers (namesListed tools.git range.target base below) (namesListed git' range.target base below)

def answered (answer : GitAnswer) : Except Failure (List String) :=
  if answer.status == 128 then .error (.exit 123)
  else if answer.status != 0 then .error (.git answer.status)
  else if (String.fromUTF8? answer.output).isSome then .ok (linesOf answer)
  else .error .undecodable

theorem execGitLines (root : Path) (args : List String) (tools : Tools) (s : Session) :
    exec (gitLines root args) tools s = (answered (tools.git args),(exec (askGit root args) tools s).2) := by
  have asked : exec (askGit root args) tools s = (.ok (tools.git args),(exec (askGit root args) tools s).2) := rfl
  rw [gitLines,execBindOk asked]
  generalize (exec (askGit root args) tools s).2 = t
  unfold answered linesOf
  split
  · rfl
  · split
    · rfl
    · cases decoded : String.fromUTF8? (tools.git args).output with
      | none => simp only [Run.decode,decoded]; rfl
      | some text => simp only [Run.decode,decoded]; rfl

theorem answeredMatched {answer answer' : GitAnswer} (status : answer'.status = answer.status)
    (readable : (String.fromUTF8? answer'.output).isSome = (String.fromUTF8? answer.output).isSome) :
    (∃ f, answered answer = .error f ∧ answered answer' = .error f) ∨
      (answered answer = .ok (linesOf answer) ∧ answered answer' = .ok (linesOf answer')) := by
  unfold answered
  rw [status,readable]
  split
  · exact .inl ⟨_,rfl,rfl⟩
  · split
    · exact .inl ⟨_,rfl,rfl⟩
    · split
      · exact .inr ⟨rfl,rfl⟩
      · exact .inl ⟨_,rfl,rfl⟩

def selected (root : Path) (s : Session) (names : List String) : List Path :=
  Path.sort ((names.map Path.ofString).eraseDups.filter (fun p =>
    s.tree.isPresent s.cwd (root.join p) && (root.join p).suffix == ".py"))

theorem execSelected (root : Path) (names : List String) (tools : Tools) (s : Session) :
    exec (do
      let files ← (names.map Path.ofString).eraseDups.filterM (fun p => shouldReformat (root.join p))
      return Path.sort files) tools s = (.ok (selected root s names),s) := by
  have answers (p : Path) : exec (shouldReformat (root.join p)) tools s =
      (.ok (s.tree.isPresent s.cwd (root.join p) && (root.join p).suffix == ".py"),s) := rfl
  rw [execBindOk (execFilterM answers _)]
  rfl

theorem selectedSame {names names' : List String} (same : SameMembers names names') (root : Path) (s : Session) :
    selected root s names = selected root s names' := by
  refine pathSortPerm ((eraseDupsPerm (sameMap same _)).filter _) (fun p member => ?_)
  obtain ⟨name,_,rfl⟩ := List.mem_map.mp (List.mem_eraseDups.mp (List.mem_filter.mp member).1)
  exact ofStringSlashless name

section
variable {tools : Tools} {git' : List String → GitAnswer}

def Alike (tools : Tools) (git' : List String → GitAnswer) (m : Run α) : Prop :=
  ∀ s, exec m tools s = exec m { tools with git := git' } s

theorem alikePure (a : α) : Alike tools git' (pure a) := fun _ => rfl

theorem alikeFail (f : Failure) : Alike tools git' (Run.fail f : Run α) := fun _ => rfl

theorem alikeBind {m : Run α} {g : α → Run β} (first : Alike tools git' m) (next : ∀ a, Alike tools git' (g a)) :
    Alike tools git' (m >>= g) := by
  intro s
  rcases run : exec m tools s with ⟨f | a,t⟩
  · rw [execBindError run,execBindError ((first s).symm.trans run)]
  · rw [execBindOk run,execBindOk ((first s).symm.trans run)]
    exact next a t

theorem alikeForM {g : α → Run PUnit} (xs : List α) (each : ∀ x, Alike tools git' (g x)) :
    Alike tools git' (xs.forM g) := by
  induction xs with
  | nil => exact alikePure _
  | cons x xs ih => exact alikeBind (each x) (fun _ => ih)

theorem alikeFoldlM {g : β → α → Run β} (xs : List α) (b : β) (each : ∀ b x, Alike tools git' (g b x)) :
    Alike tools git' (xs.foldlM g b) := by
  induction xs generalizing b with
  | nil => exact alikePure _
  | cons x xs ih =>
    rw [List.foldlM_cons]
    exact alikeBind (each b x) (fun c => ih c)

theorem alikeOption (f : Failure) (o : Option α) : Alike tools git' (Run.ofOption f o) := by
  cases o with
  | none => exact alikeFail f
  | some a => exact alikePure a

theorem alikeGet {g : Session → Run α} (next : ∀ s, Alike tools git' (g s)) : Alike tools git' (get >>= g) :=
  alikeBind (fun _ => rfl) next

theorem alikeAside {c : Prop} [Decidable c] {m n : Run α} (aside : Alike tools git' n → Alike tools git' m)
    (rest : Alike tools git' n) : Alike tools git' (if c then m else n) := by
  split
  · exact aside rest
  · exact rest

/- The tools differ in Git alone, so a step that reads another tool finds the same. -/
theorem alikeRead {g : Tools → Run α} (next : ∀ git, Alike tools git' (g { tools with git := git }))
    (unasked : ∀ git, g { tools with git := git } = g tools) : Alike tools git' (read >>= g) := by
  intro s
  rw [execBindOk (execRead tools s),execBindOk (execRead { tools with git := git' } s),unasked git']
  exact next tools.git s

theorem alikeDebug (channel : Channel) (message : String) : Alike tools git' (Run.debug channel message) := fun _ => rfl

theorem alikeModify (g : Session → Session) : Alike tools git' (modify g) := fun _ => rfl

theorem alikeReadBytes (p : Path) : Alike tools git' (Run.readBytes p) := by
  refine alikeGet (fun s => ?_)
  split
  · exact alikePure _
  · exact alikeFail _

theorem alikeReadText (p : Path) : Alike tools git' (Run.readText p) :=
  alikeBind (alikeReadBytes p) (fun _ => alikeBind (alikeOption _ _) (fun _ => alikePure _))

theorem alikeProjectRoot (sources : List String) : Alike tools git' (projectRoot sources) := by
  refine alikeGet (fun s => ?_)
  split
  · exact alikePure _
  · exact fun _ => rfl

theorem alikeReadSettings (file : String) : Alike tools git' (Formatter.readSettings file) := by
  refine alikeGet (fun s => ?_)
  split
  · exact alikeFail _
  · refine alikeBind (alikeOption _ _) (fun text => alikeBind (alikeOption _ _) (fun config => ?_))
    exact alikeBind (alikeOption _ _) (fun settings => alikePure _)

theorem alikeSettingsFile (source : Path) (requested : Value) :
    Alike tools git' (Formatter.settingsFile? source requested) := by
  unfold Formatter.settingsFile?
  split
  · split
    · exact alikePure _
    · exact alikeFail _
  · refine alikeBind (alikeBind (alikeProjectRoot _) (fun root => ?_)) (fun _ => alikePure _)
    exact alikeGet (fun _ => alikePure _)

theorem alikeFormatterConfig (source : Path) (requested : Value) : Alike tools git' (Formatter.config source requested) := by
  have kept (settings : Settings) : Alike tools git' (do
      modify fun s => { s with formatterConfig := some ((source,requested),settings) }
      return settings : Run Settings) := fun _ => rfl
  have fresh : Alike tools git' (Formatter.config.fresh source requested) := by
    refine alikeBind (alikeSettingsFile _ _) (fun file => ?_)
    cases file with
    | none => exact alikeBind (alikePure _) kept
    | some file => exact alikeBind (alikeReadSettings _) kept
  refine alikeAside (fun rest => alikeBind (alikeFail _) (fun _ => rest)) (alikeGet (fun s => ?_))
  split
  · split
    · exact alikePure _
    · exact fresh
  · exact fresh

theorem alikeFormat (source : Path) (content : Document) (options : Settings) :
    Alike tools git' (Formatter.format source content options) := by
  refine alikeBind (alikeFormatterConfig _ _) (fun settings => alikeBind (alikeModify _) (fun _ => ?_))
  refine alikeBind (alikeModify _) (fun _ => alikeRead (fun _ => ?_) (fun _ => rfl))
  dsimp only
  split
  · exact alikePure _
  · exact alikeFail _

theorem alikeSort (content : Document) (source : Path) (requested lineLength : Value) :
    Alike tools git' (Imports.sort content source requested lineLength) := by
  have settings : Alike tools git' (Imports.settingsFor source requested lineLength) := by
    unfold Imports.settingsFor
    dsimp only
    split
    · exact alikeBind (alikePure _) (fun _ => alikePure _)
    · exact alikeBind (alikeProjectRoot _) (fun _ => alikeBind (alikePure _) (fun _ => alikePure _))
  refine alikeBind settings (fun _ => alikeBind (alikeDebug _ _) (fun _ => alikeRead (fun _ => ?_) (fun _ => rfl)))
  dsimp only
  split
  · exact alikeFail _
  · refine alikeBind (alikeModify _) (fun _ => ?_)
    split
    · exact alikePure _
    · exact alikeFail _

theorem alikeObjection (edited result : Document) (chunks : List Chunk) (lines : List Int) :
    Alike tools git' (objectionTo edited result chunks lines) := by
  refine alikeGet (fun s => alikeBind (fun _ => rfl) (fun _ => alikeRead (fun _ => ?_) (fun _ => rfl)))
  refine alikeBind (alikeModify _) (fun _ => ?_)
  dsimp only
  split
  · exact alikeBind (alikeModify _) (fun _ => alikePure _)
  · exact alikePure _

theorem alikeOpenJob (root : Path) (range : RevisionRange) (sorted : Bool) (options : Settings) (path : Path) :
    Alike tools git' (openJob root range sorted options path) := by
  refine alikeBind (alikeReadText _) (fun text => ?_)
  dsimp only
  split
  · exact alikeBind (alikeSort _ _ _ _) (fun _ => alikePure _)
  · exact alikeBind (alikePure _) (fun _ => alikePure _)

theorem alikeParseLine (line : String) (root : Path) : Alike tools git' (Linting.parseLine line root) := by
  unfold Linting.parseLine
  split
  · exact alikeBind (alikeDebug _ _) (fun _ => alikePure _)
  · exact alikeGet (fun s => alikeBind (alikeOption _ _) (fun _ => alikePure _))

theorem alikeCommands (v : Value) : Alike tools git' (commandsOf v) := by
  unfold commandsOf
  split
  · exact alikePure _
  · exact alikePure _
  · exact alikePure _
  · exact alikeFail _

variable {range : RevisionRange} (rearranged : Rearranged range tools git')
include rearranged

theorem alikeGit {args : List String} (undiffed : args.head? ≠ some "diff") (unlisted : args.head? ≠ some "ls-files")
    (root : Path) : Alike tools git' (askGit root args) := by
  intro s
  have same := rearranged.others args undiffed unlisted
  change (Except.ok (tools.git args),_) = (Except.ok (git' args),_)
  rw [same]

theorem alikeGitLines {args : List String} (undiffed : args.head? ≠ some "diff") (unlisted : args.head? ≠ some "ls-files")
    (root : Path) : Alike tools git' (gitLines root args) := by
  refine alikeBind (alikeGit rearranged undiffed unlisted root) (fun answer => ?_)
  split
  · exact alikeFail _
  · split
    · exact alikeFail _
    · exact alikeBind (alikeOption _ _) (fun _ => alikePure _)

theorem alikeBaseRevision (root : Path) : Alike tools git' (baseRevision range root) := by
  unfold baseRevision
  split
  · exact alikeBind (alikeGitLines rearranged (by simp) (by simp) root) (fun _ => alikeOption _ _)
  · exact alikePure _

theorem gitLinesMatched (root : Path) (args : List String) (s : Session) :
    ∃ t, (∃ f, exec (gitLines root args) tools s = (.error f,t) ∧
        exec (gitLines root args) { tools with git := git' } s = (.error f,t)) ∨
      (exec (gitLines root args) tools s = (.ok (linesOf (tools.git args)),t) ∧
        exec (gitLines root args) { tools with git := git' } s = (.ok (linesOf (git' args)),t)) := by
  have asked := execGitLines root args tools s
  have asked' : exec (gitLines root args) { tools with git := git' } s =
      (answered (git' args),(exec (askGit root args) tools s).2) := execGitLines root args { tools with git := git' } s
  refine ⟨(exec (askGit root args) tools s).2,?_⟩
  rcases answeredMatched (rearranged.status args) (rearranged.readable args) with ⟨f,failed,failed'⟩ | ⟨found,found'⟩
  · exact .inl ⟨f,asked.trans (by rw [failed]),asked'.trans (by rw [failed'])⟩
  · exact .inr ⟨asked.trans (by rw [found]),asked'.trans (by rw [found'])⟩

theorem modifiedFilesSame {paths paths' : List Path} (same : SameMembers paths paths') {root : Path} {s : Session}
    (above : ∀ p ∈ paths, (Path.resolve s.cwd p).relativeTo? root = some (seenFrom root s.cwd p)) :
    exec (modifiedFiles paths range root) tools s = exec (modifiedFiles paths' range root) { tools with git := git' } s := by
  have above' := fun p member => above p ((same p).mpr member)
  rw [modifiedFiles,modifiedFiles,execBindOk (execBelowRoot above tools),execBindOk (execBelowRoot above' _),belowSame same]
  generalize sortTexts ((paths'.map (seenFrom root s.cwd)).eraseDups.map Path.render) = below
  have based := alikeBaseRevision rearranged root s
  rcases run : exec (baseRevision range root) tools s with ⟨f | base,t⟩
  · rw [execBindError run,execBindError (based.symm.trans run)]
  rw [execBindOk run,execBindOk (based.symm.trans run)]
  obtain ⟨u,⟨f,failed,failed'⟩ | ⟨asked,asked'⟩⟩ := gitLinesMatched rearranged root
    (["diff","--name-only","--relative"] ++ endsOf base range.target ++ "--" :: below) t
  · rw [execBindError failed,execBindError failed']
  rw [execBindOk asked,execBindOk asked']
  have arranged (u : Session) := selectedSame (rearranged.names root s base t below run) root u
  unfold namesListed at arranged
  dsimp only
  cases worktree : range.target.isWorkingTree with
  | true =>
    rw [worktree] at arranged
    obtain ⟨v,⟨f,failed,failed'⟩ | ⟨asked,asked'⟩⟩ := gitLinesMatched rearranged root
      (["ls-files","--others","--exclude-standard","--"] ++ below) u
    · rw [if_pos rfl,if_pos rfl,execBindError failed,execBindError failed']
    · rw [if_pos rfl,if_pos rfl,execBindOk asked,execBindOk asked',execSelected,execSelected]
      exact congrArg (fun files => (Except.ok files,v)) (arranged v)
  | false =>
    rw [worktree] at arranged
    rw [if_neg (by simp),if_neg (by simp),execBindOk (execPure _ _ _),execBindOk (execPure _ _ _),execSelected,execSelected]
    exact congrArg (fun files => (Except.ok files,u)) (arranged u)

theorem listingSame {sources sources' : List Path} (same : SameMembers sources sources') (s : Session) :
    exec (listing sources range) tools s = exec (listing sources' range) { tools with git := git' } s := by
  have rooted := commonRootSame same tools { tools with git := git' } s
  rcases run : exec (commonRoot sources) tools s with ⟨f | root,t⟩
  · rw [listing,listing,execBindError run,execBindError (rooted.symm.trans run)]
  obtain ⟨rfl,above⟩ := commonRootAbove run
  have listed := modifiedFilesSame rearranged same above
  rw [listing,listing,execBindOk run,execBindOk (rooted.symm.trans run)]
  rcases found : exec (modifiedFiles sources range root) tools t with ⟨f | files,u⟩
  · rw [execBindError found,execBindError (listed.symm.trans found)]
  · rw [execBindOk found,execBindOk (listed.symm.trans found)]
    rfl

end

section
variable {tools : Tools} {git' : List String → GitAnswer} {asked : RevisionRange} (rearranged : Rearranged asked tools git')
include rearranged

theorem alikeContentAt (path : Path) (revision : String) (root : Path) : Alike tools git' (contentAt path revision root) := by
  unfold contentAt
  split
  · exact alikeBind (alikeReadBytes _) (fun _ => alikeBind (alikeOption _ _) (fun _ => alikePure _))
  · refine alikeBind (alikeGit rearranged (by simp) (by simp) root) (fun answer => ?_)
    split
    · exact alikePure _
    · split
      · exact alikeFail _
      · exact alikeBind (alikeOption _ _) (fun _ => alikePure _)

theorem alikeEditedSince (root : Path) (range : RevisionRange) (path : Path) (content : Document) (context : Int) :
    Alike tools git' (editedSince root range path content context) :=
  alikeBind (alikeContentAt rearranged _ _ _) (fun _ => alikeBind (fun _ => rfl) (fun _ => alikeOption _ _))

theorem alikeAttempt (j : Job) (context : Nat) (options : Settings) : Alike tools git' (j.attempt context options) := by
  refine alikeBind (alikeEditedSince rearranged _ _ _ _ _) (fun lines => ?_)
  split
  · exact alikeBind (alikeDebug _ _) (fun _ => alikePure _)
  refine alikeBind (alikeFormat _ _ _) (fun (formatted,left) => ?_)
  refine alikeBind (alikeDebug _ _) (fun _ => alikeBind (alikeDebug _ _) (fun _ => ?_))
  refine alikeBind (fun _ => rfl) (fun edits => alikeBind (alikeOption _ _) (fun chunks => ?_))
  refine alikeBind (alikeBind (alikeForM _ (fun _ => alikeDebug _ _)) (fun _ => alikePure _)) (fun chosen => ?_)
  refine alikeBind (alikeDebug _ _) (fun _ => alikeBind (alikeObjection _ _ _ _) (fun objection => ?_))
  split
  · exact alikePure _
  · exact alikePure _

theorem alikeAttempts (j : Job) (left context : Nat) (options : Settings) :
    Alike tools git' (j.attempts left context options) := by
  induction left generalizing context options with
  | zero =>
    rw [Job.attempts]
    refine alikeBind (alikeAttempt rearranged _ _ _) (fun found => ?_)
    obtain ⟨outcome,after⟩ := found
    cases outcome with
    | idle => exact alikePure _
    | accepted result => exact alikePure _
    | objected reason => exact alikeFail _
  | succ left ih =>
    rw [Job.attempts]
    refine alikeBind (alikeAttempt rearranged _ _ _) (fun found => ?_)
    obtain ⟨outcome,after⟩ := found
    cases outcome with
    | idle => exact alikePure _
    | accepted result => exact alikePure _
    | objected reason => exact alikeBind (alikeDebug _ _) (fun _ => ih _ _)

theorem alikeFile {σ : Type} {sink : Sink σ} (apart : ∀ g file old new, Alike tools git' (sink g file old new))
    (root : Path) (range : RevisionRange) (sorted : Bool) (progress : Progress σ) (path : Path) :
    Alike tools git' (reformatFile root range sorted sink progress path) := by
  refine alikeBind (alikeOpenJob _ _ _ _ _) (fun job => alikeBind (alikeAttempts rearranged _ _ _ _) (fun (result,left) => ?_))
  cases result with
  | none => exact alikePure _
  | some result =>
    dsimp only
    split
    · exact alikeBind (apart _ _ _ _) (fun _ => alikePure _)
    · exact alikePure _

theorem alikeEditedInTarget (root : Path) (range : RevisionRange) (path : Path) (context : Int) :
    Alike tools git' (editedInTarget root range path context) := by
  have compared (key : ComparisonKey) : Alike tools git' (editedInTarget.compare root range path context key) := by
    refine alikeBind (alikeContentAt rearranged _ _ _) (fun content => ?_)
    exact alikeBind (alikeEditedSince rearranged _ _ _ _ _) (fun lines => alikeBind (alikeModify _) (fun _ => alikePure _))
  refine alikeGet (fun s => ?_)
  split
  · split
    · exact alikePure _
    · exact compared _
  · exact compared _

theorem alikeRelay (root : Path) (range : RevisionRange) (line : String) : Alike tools git' (Linting.relay root range line) := by
  refine alikeBind (alikeParseLine line root) (fun place => ?_)
  split
  · exact alikePure _
  · refine alikeBind (alikeEditedInTarget rearranged _ _ _ _) (fun edited => ?_)
    split
    · exact alikeModify _
    · exact alikePure _

theorem alikeLinter (command : Value) (root : Path) (files : List Path) (range : RevisionRange) :
    Alike tools git' (Linting.run command root files range) := by
  unfold Linting.run
  split
  · exact alikePure _
  refine alikeAside (fun rest => alikeBind (alikeFail _) (fun _ => rest)) ?_
  split
  · refine alikeBind (alikeModify _) (fun _ => alikeGet (fun s => alikeBind (fun _ => rfl) (fun _ => ?_)))
    refine alikeRead (fun _ => ?_) (fun _ => rfl)
    dsimp only
    refine alikeBind (alikeForM _ (fun line => alikeRelay rearranged root range line)) (fun _ => ?_)
    split
    · exact alikeFail _
    · exact alikePure _
  · exact alikeFail _

theorem changesSame {σ : Type} {sink : Sink σ} (apart : ∀ g file old new, Alike tools git' (sink g file old new))
    (root : Path) (range : RevisionRange) (sorted : Bool) (files : List Path) (progress : Progress σ) (s : Session) :
    changes root range sorted sink tools files progress s =
      changes root range sorted sink { tools with git := git' } files progress s := by
  induction files generalizing progress s with
  | nil => rfl
  | cons path rest ih =>
    have found : changeAt root range sorted progress.options path tools s =
        changeAt root range sorted progress.options path { tools with git := git' } s := by
      rw [changeAt,changeAt,changeOf,alikeFile rearranged (fun _ _ _ _ => alikePure _) root range sorted _ path s]
    rw [changes,changes,found,← alikeFile rearranged apart root range sorted progress path s]
    rcases exec (reformatFile root range sorted sink progress path) tools s with ⟨f | next,t⟩
    · rfl
    · dsimp only
      rw [ih next t]

end

def yielded {σ : Type} (sources : List Path) (range : RevisionRange) (sorted : Bool) (options : Settings) (sink : Sink σ)
    (start : σ) (tools : Tools) (s : Session) : List Change :=
  match exec (listing sources range) tools s with
  | (.error _,_) => []
  | (.ok (root,files),t) => changes root range sorted sink tools files ⟨start,options⟩ t

theorem runIgnoresArrangement {σ : Type} (sources sources' : List Path) (range : RevisionRange) (sorted : Bool)
    (linters : Value) (options : Settings) (sink : Sink σ) (start : σ) (tools : Tools)
    (git' : List String → GitAnswer) (s : Session) (same : SameMembers sources sources')
    (rearranged : Rearranged range tools git')
    (apart : ∀ g file old new, Alike tools git' (sink g file old new)) :
    exec (listing sources range) tools s = exec (listing sources' range) { tools with git := git' } s ∧
    yielded sources range sorted options sink start tools s =
      yielded sources' range sorted options sink start { tools with git := git' } s ∧
    exec (reformatEdited sources range sorted linters options sink start) tools s =
      exec (reformatEdited sources' range sorted linters options sink start) { tools with git := git' } s := by
  have listed := listingSame rearranged same s
  refine ⟨listed,?_,?_⟩
  · rw [yielded,yielded,← listed]
    rcases exec (listing sources range) tools s with ⟨f | ⟨root,files⟩,t⟩
    · rfl
    · exact changesSame rearranged apart root range sorted files _ t
  · rw [reformatEditedListed,reformatEditedListed]
    rcases run : exec (listing sources range) tools s with ⟨f | ⟨root,files⟩,t⟩
    · rw [execBindError run,execBindError (listed.symm.trans run)]
    · rw [execBindOk run,execBindOk (listed.symm.trans run)]
      refine alikeBind (alikeFoldlM files _ (fun _ _ => alikeFile rearranged apart root range sorted _ _)) (fun progress => ?_) t
      refine alikeBind (alikeCommands linters) (fun commands => alikeBind (alikeForM commands (fun command => ?_)) (fun _ => ?_))
      · exact alikeLinter rearranged command root files range
      · exact alikePure progress

def pairGit (changed new : String) (args : List String) : GitAnswer :=
  match args with
  | "diff" :: _ => ⟨changed.toUTF8,0⟩
  | "ls-files" :: _ => ⟨new.toUTF8,0⟩
  | _ => ⟨"a=0\n".toUTF8,0⟩

def pairTools : Tools := { Rewriting.returnTools with git := pairGit "a.py\nb.py\n" "" }

def pairSession : Session :=
  { Rewriting.returnSession with tree := ⟨[(["r"],.directory),(["r","a.py"],.file "a=1\n".toUTF8 0),
    (["r","b.py"],.file "a=2\n".toUTF8 0)]⟩ }

theorem pairDecoded (changed new : String) (args : List String) :
    (String.fromUTF8? (pairGit changed new args).output).isSome = true := by
  have decoded (text : String) : (String.fromUTF8? text.toUTF8).isSome = true := by
    rw [textDecoded]
    rfl
  unfold pairGit
  split
  · exact decoded changed
  · exact decoded new
  · exact decoded "a=0\n"

theorem pairRearranged :
    Rearranged ⟨"HEAD",.workingTree,false⟩ pairTools (pairGit "b.py\n" "b.py\na.py\n") where
  others args undiffed unlisted := by
    change pairGit _ _ args = pairGit _ _ args
    unfold pairGit
    split <;> simp_all
  status args := by
    change (pairGit _ _ args).status = (pairGit _ _ args).status
    unfold pairGit
    split <;> rfl
  readable args := (pairDecoded _ _ args).trans (pairDecoded _ _ args).symm
  names root s base t below _ := by
    have listed : linesOf ⟨"a.py\nb.py\n".toUTF8,0⟩ ++ linesOf ⟨"".toUTF8,0⟩ = ["a.py","b.py"] := by decide +kernel
    have listed' : linesOf ⟨"b.py\n".toUTF8,0⟩ ++ linesOf ⟨"b.py\na.py\n".toUTF8,0⟩ = ["b.py","b.py","a.py"] := by
      decide +kernel
    intro name
    change name ∈ linesOf ⟨"a.py\nb.py\n".toUTF8,0⟩ ++ linesOf ⟨"".toUTF8,0⟩ ↔
      name ∈ linesOf ⟨"b.py\n".toUTF8,0⟩ ++ linesOf ⟨"b.py\na.py\n".toUTF8,0⟩
    rw [listed,listed']
    grind

theorem pairRunsAlike :
    exec (reformatEdited [⟨.relative,["a.py"]⟩,⟨.relative,["b.py"]⟩] ⟨"HEAD",.workingTree,false⟩ false (.list [.text "lint"]) []
      keepChanges []) pairTools pairSession =
    exec (reformatEdited [⟨.relative,["b.py"]⟩,⟨.relative,["a.py"]⟩,⟨.relative,["b.py"]⟩] ⟨"HEAD",.workingTree,false⟩ false
      (.list [.text "lint"]) [] keepChanges []) { pairTools with git := pairGit "b.py\n" "b.py\na.py\n" } pairSession := by
  refine (runIgnoresArrangement _ _ _ false _ [] keepChanges [] pairTools _ pairSession ?_ pairRearranged ?_).2.2
  · intro p
    grind
  · exact fun _ _ _ _ => alikePure _

end Retouch.Arrangement
