import Retouch.Proofs.Rewriting

/-! What becomes of the linters' messages. A message is passed on when it is about an edited line. The comparison that
is kept from one message to the next is the one that would be made again, so neither the order of the messages
nor the number of linters matters. -/
namespace Retouch.Relaying
open Execution Inquiry Candidates Listing Course
open Linting (place? withoutEnd outputLines relay)

def editedNow (root : Path) (range : RevisionRange) (tools : Tools) (s : Session) (path : Path) :
    Except Failure (List Int) := do
  let new ← (exec (contentAt path range.target.name root) tools s).1
  let old ← (exec (contentAt path range.source root) tools s).1
  return editedLines (diffLines old.lines new.lines) 0

def placeBelow (cwd root : Path) (line : String) : Except Failure (Option (Path × Int)) :=
  match place? (withoutEnd line) with
  | none => .ok none
  | some (name,n) =>
    match (Path.absolute cwd (Path.ofString name)).relativeTo? root with
    | none => .error (.outside (Path.absolute cwd (Path.ofString name)) root)
    | some path => .ok (some (path,n))

def judge (root : Path) (range : RevisionRange) (tools : Tools) (s : Session) (line : String) : Except Failure Bool :=
  match placeBelow s.cwd root line with
  | .error f => .error f
  | .ok none => .ok false
  | .ok (some (path,n)) => (editedNow root range tools s path).map (fun lines => lines.contains n)

def said (line : String) : Except Failure Bool → String
  | .ok true => line
  | _ => ""

def passedOn (judgement : String → Except Failure Bool) : List String → String × Except Failure Unit
  | [] => ("",.ok ())
  | line :: rest =>
    match judgement line with
    | .error f => ("",.error f)
    | .ok edited => (said line (.ok edited) ++ (passedOn judgement rest).1,(passedOn judgement rest).2)

def argsFor (root : Path) (files : List Path) (command : String) : List String :=
  splitWords command ++ (Path.sort files).map (fun p => (root.join p).render)

/- The lines that are read from the linters, the `n`-th one first, and whether all could be read to the end. No linter
is started after one that could not. -/
def heard (tools : Tools) : Nat → List (List String) → List String × Bool
  | _,[] => ([],true)
  | n,args :: rest =>
    if (outputLines (tools.lint n args)).2 then
      ((outputLines (tools.lint n args)).1 ++ (heard tools (n + 1) rest).1,(heard tools (n + 1) rest).2)
    else ((outputLines (tools.lint n args)).1,false)

def outcome (judgement : String → Except Failure Bool) (lines : List String) (whole : Bool) : Except Failure Unit := do
  (passedOn judgement lines).2
  if whole then return () else .error .undecodable

def keyFor (root : Path) (range : RevisionRange) (path : Path) : ComparisonKey :=
  ⟨root,range.source,range.target.name,range.commonAncestor,path,0⟩

def Current (root : Path) (range : RevisionRange) (tools : Tools) (s : Session) : Prop :=
  ∀ path lines, s.comparison = some (keyFor root range path,lines) → editedNow root range tools s path = .ok lines

def Uncompared (s s' : Session) : Prop := s'.comparison = s.comparison

theorem uncompared : Tolerates Uncompared (fun _ => True) where
  lasting := ⟨fun _ => rfl,fun h h' => h'.trans h⟩
  noted _ _ _ := rfl
  asked _ _ _ := rfl
  rooted _ _ _ := rfl
  foreign _ _ := trivial

theorem withinParseLine {R : Session → Session → Prop} {F : Failure → Prop} (tolerant : Tolerates R F) (line : String)
    (root : Path) : Within R F (Linting.parseLine line root) := by
  unfold Linting.parseLine
  split
  · exact withinBind tolerant.lasting (withinDebug tolerant _ _) (fun _ => withinPure tolerant.lasting _)
  · refine withinBind tolerant.lasting (withinGet tolerant.lasting) (fun _ => ?_)
    exact withinBind tolerant.lasting (withinChecked tolerant (by simp [Foreign]) _) (fun _ => withinPure tolerant.lasting _)

theorem parsedPlace (line : String) (root : Path) (tools : Tools) (s : Session) :
    (exec (Linting.parseLine line root) tools s).1 = placeBelow s.cwd root line := by
  unfold Linting.parseLine placeBelow
  cases place? (withoutEnd line) with
  | none => rfl
  | some place =>
    rw [execBindOk (execGet tools s)]
    dsimp only
    cases (Path.absolute s.cwd (Path.ofString place.1)).relativeTo? root <;> rfl

theorem keyForInjective {root range path path'} (same : keyFor root range path = keyFor root range path') :
    path = path' := congrArg ComparisonKey.path same

section
variable {root : Path} {range : RevisionRange} {tools : Tools}

theorem editedNowSame {s t : Session} (tree : t.tree = s.tree) (cwd : t.cwd = s.cwd) (path : Path) :
    editedNow root range tools t path = editedNow root range tools s path := by
  unfold editedNow
  rw [contentStable tools _ _ _ tree cwd,contentStable tools _ _ _ tree cwd]

theorem judgeSame {s t : Session} (tree : t.tree = s.tree) (cwd : t.cwd = s.cwd) :
    judge root range tools t = judge root range tools s := by
  funext line
  unfold judge
  simp only [cwd,editedNowSame tree cwd]

theorem currentSame {s t : Session} (tree : t.tree = s.tree) (cwd : t.cwd = s.cwd) (kept : t.comparison = s.comparison)
    (current : Current root range tools s) : Current root range tools t := by
  intro path lines found
  rw [editedNowSame tree cwd]
  exact current path lines (by rw [← kept,found])

theorem compareCurrent {path : Path} {s t : Session} {r : Except Failure (List Int)}
    (current : Current root range tools s)
    (run : exec (editedInTarget.compare root range path 0 (keyFor root range path)) tools s = (r,t)) :
    r = editedNow root range tools s path ∧ Undisturbed s t ∧ Current root range tools t := by
  rcases execBindCases run with ⟨f,failed,rfl⟩ | ⟨new,u,found,rest⟩
  · have quiet := withinEnds (withinContentAt undisturbed _ _ _) failed
    have kept := withinEnds (withinContentAt uncompared _ _ _) failed
    refine ⟨?_,quiet,currentSame quiet.tree quiet.cwd kept current⟩
    rw [editedNow,failed]
    rfl
  have quiet := withinEnds (withinContentAt undisturbed _ _ _) found
  have kept := withinEnds (withinContentAt uncompared _ _ _) found
  have counted : (exec (editedSince root range path new 0) tools u).1 = editedNow root range tools s path := by
    rw [editedSinceContent,contentStable tools _ _ _ quiet.tree quiet.cwd,editedNow,found]
    cases (exec (contentAt path range.source root) tools s).1 <;> rfl
  rcases execBindCases rest with ⟨f,failed,rfl⟩ | ⟨lines,v,compared,last⟩
  · have quiet' := undisturbedLasting.trans quiet (withinEnds (withinEditedSince undisturbed _ _ _ _ _) failed)
    have kept' := (withinEnds (withinEditedSince uncompared _ _ _ _ _) failed).trans kept
    rw [failed] at counted
    exact ⟨counted,quiet',currentSame quiet'.tree quiet'.cwd kept' current⟩
  · have quiet' := undisturbedLasting.trans quiet (withinEnds (withinEditedSince undisturbed _ _ _ _ _) compared)
    rw [compared] at counted
    cases last
    refine ⟨counted,undisturbedLasting.trans quiet' (undisturbedSilent rfl rfl rfl rfl rfl rfl),?_⟩
    intro other lines' same
    obtain ⟨key,rfl⟩ := Prod.mk.inj (Option.some.inj same)
    cases keyForInjective key
    refine (editedNowSame ?_ ?_ path).trans counted.symm
    · exact quiet'.tree
    · exact quiet'.cwd

theorem targetCurrent {path : Path} {s t : Session} {r : Except Failure (List Int)} (current : Current root range tools s)
    (run : exec (editedInTarget root range path 0) tools s = (r,t)) :
    r = editedNow root range tools s path ∧ Undisturbed s t ∧ Current root range tools t := by
  rw [editedInTarget,execBindOk (execGet tools s)] at run
  split at run
  · rename_i key lines kept
    split at run
    · rename_i same
      cases run
      rw [eq_of_beq same] at kept
      exact ⟨(current path lines kept).symm,undisturbedLasting.refl s,current⟩
    · exact compareCurrent current run
  · exact compareCurrent current run

theorem relayJudged {line : String} {s t : Session} {r : Except Failure Unit} (current : Current root range tools s)
    (run : exec (relay root range line) tools s = (r,t)) :
    Steady s t ∧ Current root range tools t ∧ r = (judge root range tools s line).map (fun _ => ()) ∧
      t.out = s.out ++ said line (judge root range tools s line) := by
  have placed := parsedPlace line root tools s
  unfold judge
  rcases execBindCases run with ⟨f,failed,rfl⟩ | ⟨place,u,parsed,rest⟩
  · have quiet := withinEnds (withinParseLine undisturbed line root) failed
    have kept := withinEnds (withinParseLine uncompared line root) failed
    rw [failed] at placed
    rw [← placed]
    exact ⟨undisturbedSteady quiet,currentSame quiet.tree quiet.cwd kept current,rfl,by simp [said,quiet.out]⟩
  have quiet := withinEnds (withinParseLine undisturbed line root) parsed
  have current := currentSame quiet.tree quiet.cwd (withinEnds (withinParseLine uncompared line root) parsed) current
  rw [parsed] at placed
  rw [← placed,← quiet.out]
  cases place with
  | none =>
    cases rest
    exact ⟨undisturbedSteady quiet,current,rfl,by simp [said]⟩
  | some place =>
    obtain ⟨path,n⟩ := place
    have same := @editedNowSame root range tools _ _ quiet.tree quiet.cwd path
    rcases execBindCases rest with ⟨f,failed,rfl⟩ | ⟨lines,v,found,last⟩
    · obtain ⟨answer,quiet',current'⟩ := targetCurrent current failed
      have steady := undisturbedSteady (undisturbedLasting.trans quiet quiet')
      rw [same] at answer
      dsimp only
      rw [← answer]
      exact ⟨steady,current',rfl,by simp [said,Except.map,quiet'.out]⟩
    · obtain ⟨answer,quiet',current'⟩ := targetCurrent current found
      have steady := undisturbedSteady (undisturbedLasting.trans quiet quiet')
      rw [same] at answer
      dsimp only
      rw [← answer,← quiet'.out,Except.map]
      cases edited : lines.contains n with
      | true =>
        rw [edited,if_pos rfl] at last
        cases last
        exact ⟨⟨steady.tree,steady.cwd,steady.linted⟩,currentSame (s := v) rfl rfl rfl current',rfl,by simp [said]⟩
      | false =>
        rw [edited,if_neg (by simp)] at last
        cases last
        exact ⟨steady,current',rfl,by simp [said]⟩

theorem steadyJudge {s t : Session} (steady : Steady s t) : judge root range tools t = judge root range tools s :=
  judgeSame steady.tree steady.cwd

theorem passedOnError {judgement : String → Except Failure Bool} {line : String} {f : Failure}
    (judged : judgement line = .error f) (rest : List String) : passedOn judgement (line :: rest) = ("",.error f) := by
  simp only [passedOn,judged]

theorem passedOnOk {judgement : String → Except Failure Bool} {line : String} {edited : Bool}
    (judged : judgement line = .ok edited) (rest : List String) : passedOn judgement (line :: rest) =
      (said line (.ok edited) ++ (passedOn judgement rest).1,(passedOn judgement rest).2) := by
  simp only [passedOn,judged]

theorem linesJudged {lines : List String} {s t : Session} {r : Except Failure Unit}
    (current : Current root range tools s) (run : exec (lines.forM (relay root range)) tools s = (r,t)) :
    Steady s t ∧ Current root range tools t ∧ r = (passedOn (judge root range tools s) lines).2 ∧
      t.out = s.out ++ (passedOn (judge root range tools s) lines).1 := by
  induction lines generalizing s with
  | nil =>
    cases run
    exact ⟨⟨rfl,rfl,rfl⟩,current,rfl,by simp [passedOn]⟩
  | cons line rest ih =>
    rcases execBindCases run with ⟨f,failed,rfl⟩ | ⟨_,u,relayed,others⟩
    · obtain ⟨steady,current',result,out⟩ := relayJudged current failed
      cases judged : judge root range tools s line with
      | error g =>
        rw [judged] at result out
        rw [passedOnError judged]
        exact ⟨steady,current',result,out⟩
      | ok edited =>
        rw [judged] at result
        cases result
    · obtain ⟨steady,current',result,out⟩ := relayJudged current relayed
      obtain ⟨steady',current'',result',out'⟩ := ih current' others
      rw [steadyJudge steady] at result' out'
      cases judged : judge root range tools s line with
      | error g =>
        rw [judged] at result
        cases result
      | ok edited =>
        rw [judged] at out
        rw [passedOnOk judged]
        exact ⟨steadyTrans steady steady',current'',result',by rw [out',out,String.append_assoc]⟩

theorem passedOnAppend (judgement : String → Except Failure Bool) (first others : List String) :
    passedOn judgement (first ++ others) = match (passedOn judgement first).2 with
      | .error f => ((passedOn judgement first).1,.error f)
      | .ok _ => ((passedOn judgement first).1 ++ (passedOn judgement others).1,(passedOn judgement others).2) := by
  induction first with
  | nil => simp [passedOn]
  | cons line rest ih =>
    rw [List.cons_append]
    cases judged : judgement line with
    | error f => rw [passedOnError judged,passedOnError judged]
    | ok edited =>
      rw [passedOnOk judged,passedOnOk judged,ih]
      cases (passedOn judgement rest).2 <;> simp [String.append_assoc]

theorem linterJudged {command : String} {files : List Path} {s t : Session} {r : Except Failure Unit}
    {lines : List String} {whole : Bool} (some : files ≠ []) (worktree : range.target = .workingTree)
    (current : Current root range tools s)
    (printed : outputLines (tools.lint s.linted (argsFor root files command)) = (lines,whole))
    (run : exec (Linting.run (.text command) root files range) tools s = (r,t)) :
    Current root range tools t ∧ t.tree = s.tree ∧ t.cwd = s.cwd ∧ t.linted = s.linted + 1 ∧
      r = outcome (judge root range tools s) lines whole ∧
      t.out = s.out ++ (passedOn (judge root range tools s) lines).1 := by
  have filled : files.isEmpty = false := by simpa using some
  rw [Linting.run,filled,if_neg (by simp),worktree,if_neg (by simp)] at run
  change exec ((outputLines (tools.lint s.linted (argsFor root files command))).1.forM (relay root range) >>= fun _ =>
    if !(outputLines (tools.lint s.linted (argsFor root files command))).2 then Run.fail .undecodable else pure ()) tools
    { s with events := s.events.push (.lint (argsFor root files command)), linted := s.linted + 1 } = (r,t) at run
  rw [printed] at run
  have current : Current root range tools { s with
      events := s.events.push (.lint (argsFor root files command)), linted := s.linted + 1 } :=
    currentSame (s := s) rfl rfl rfl current
  have same : judge root range tools { s with
      events := s.events.push (.lint (argsFor root files command)), linted := s.linted + 1 } = judge root range tools s :=
    judgeSame rfl rfl
  unfold outcome
  rcases execBindCases run with ⟨f,failed,rfl⟩ | ⟨_,u,relayed,last⟩
  · obtain ⟨steady,current',result,out⟩ := linesJudged current failed
    rw [same] at result out
    rw [← result]
    exact ⟨current',steady.tree,steady.cwd,steady.linted,rfl,out⟩
  · obtain ⟨steady,current',result,out⟩ := linesJudged current relayed
    rw [same] at result out
    rw [← result]
    cases whole <;> cases last <;> exact ⟨current',steady.tree,steady.cwd,steady.linted,rfl,out⟩

theorem lintersJudged {commands : List String} {files : List Path} {s t : Session} {r : Except Failure Unit}
    {lines : List String} {whole : Bool} (some : files ≠ []) (worktree : range.target = .workingTree)
    (current : Current root range tools s)
    (printed : heard tools s.linted (commands.map (argsFor root files)) = (lines,whole))
    (run : exec ((commands.map Value.text).forM (fun c => Linting.run c root files range)) tools s = (r,t)) :
    r = outcome (judge root range tools s) lines whole ∧
      t.out = s.out ++ (passedOn (judge root range tools s) lines).1 := by
  induction commands generalizing s lines whole with
  | nil =>
    cases printed
    cases run
    exact ⟨rfl,by simp [passedOn]⟩
  | cons command rest ih =>
    rw [List.map_cons,heard] at printed
    rcases own : outputLines (tools.lint s.linted (argsFor root files command)) with ⟨first,complete⟩
    rw [own] at printed
    rcases execBindCases run with ⟨f,failed,rfl⟩ | ⟨_,u,linted,others⟩
    · obtain ⟨_,_,_,_,result,out⟩ := linterJudged some worktree current own failed
      cases complete with
      | false =>
        cases printed
        exact ⟨result,out⟩
      | true =>
        cases printed
        have stopped : (passedOn (judge root range tools s) first).2 = .error f := by
          unfold outcome at result
          cases ended : (passedOn (judge root range tools s) first).2 with
          | error g =>
            rw [ended] at result
            exact result.symm
          | ok _ =>
            rw [ended] at result
            cases result
        rw [outcome,passedOnAppend,stopped]
        exact ⟨rfl,out⟩
    · obtain ⟨current',tree,cwd,next,result,out⟩ := linterJudged some worktree current own linted
      have ended : complete = true ∧ (passedOn (judge root range tools s) first).2 = .ok () := by
        unfold outcome at result
        cases ended : (passedOn (judge root range tools s) first).2 with
        | error g =>
          rw [ended] at result
          cases result
        | ok _ =>
          rw [ended] at result
          cases complete with
          | true => exact ⟨rfl,rfl⟩
          | false => cases result
      obtain ⟨rfl,through⟩ := ended
      cases printed
      rw [← next]
      obtain ⟨result',out'⟩ := ih current' rfl others
      rw [judgeSame tree cwd] at result' out'
      rw [outcome,passedOnAppend,through]
      exact ⟨result',by rw [out',out,String.append_assoc]⟩

end

abbrev Keeps (m : Run α) : Prop := Within Uncompared (fun _ => True) m

theorem keepsBind {m : Run α} {g : α → Run β} (first : Keeps m) (next : ∀ a, Keeps (g a)) : Keeps (m >>= g) :=
  withinBind uncompared.lasting first next

theorem keepsPure (a : α) : Keeps (pure a) := withinPure uncompared.lasting a

theorem keepsModify {g : Session → Session} (kept : ∀ s, (g s).comparison = s.comparison) : Keeps (modify g : Run PUnit) :=
  withinModify kept

theorem keepsServes : Serves Uncompared (fun _ => True) where
  toTolerates := uncompared
  called _ _ _ := rfl
  configured _ _ := rfl

theorem keepsObjection (edited result : Document) (chunks : List Chunk) (lines : List Int) :
    Keeps (objectionTo edited result chunks lines) := by
  refine withinGetSet uncompared.lasting (fun _ => rfl) (fun s => keepsBind (withinRead uncompared.lasting) (fun tools => ?_))
  refine keepsBind (keepsModify (fun _ => rfl)) (fun _ => ?_)
  exact withinAside (fun rest => keepsBind (keepsModify (fun _ => rfl)) (fun _ => rest)) (keepsPure _)

theorem keepsJudges : Judges Uncompared := ⟨keepsServes,keepsObjection⟩

def OnEdited (root : Path) (range : RevisionRange) (tools : Tools) (s : Session) (line : String) : Prop :=
  ∃ path n old new, (exec (Linting.parseLine line root) tools s).1 = .ok (some (path,n)) ∧
    (exec (contentAt path range.target.name root) tools s).1 = .ok new ∧
    (exec (contentAt path range.source root) tools s).1 = .ok old ∧ n ∈ editedLines (diffLines old.lines new.lines) 0

def Readable (root : Path) (range : RevisionRange) (tools : Tools) (s : Session) (line : String) : Prop :=
  ∃ place, (exec (Linting.parseLine line root) tools s).1 = .ok place ∧ ∀ path n, place = some (path,n) →
    ∃ old new, (exec (contentAt path range.target.name root) tools s).1 = .ok new ∧
      (exec (contentAt path range.source root) tools s).1 = .ok old

theorem editedNowOk {root range tools s path lines} :
    editedNow root range tools s path = .ok lines ↔
      ∃ old new, (exec (contentAt path range.target.name root) tools s).1 = .ok new ∧
        (exec (contentAt path range.source root) tools s).1 = .ok old ∧
        lines = editedLines (diffLines old.lines new.lines) 0 := by
  unfold editedNow
  constructor
  · intro found
    obtain ⟨new,current,found⟩ := okBind found
    obtain ⟨old,former,found⟩ := okBind found
    cases found
    exact ⟨old,new,current,former,rfl⟩
  · rintro ⟨old,new,current,former,rfl⟩
    rw [current,former]
    rfl

theorem onEditedJudge {root range tools s line} :
    OnEdited root range tools s line ↔ judge root range tools s line = .ok true := by
  unfold OnEdited judge
  simp only [parsedPlace]
  constructor
  · rintro ⟨path,n,old,new,placed,current,former,member⟩
    rw [placed]
    dsimp only
    rw [editedNowOk.mpr ⟨old,new,current,former,rfl⟩]
    simp [Except.map,member]
  · intro judged
    split at judged
    · cases judged
    · cases judged
    · rename_i path n placed
      cases found : editedNow root range tools s path with
      | error f =>
        rw [found] at judged
        cases judged
      | ok lines =>
        obtain ⟨old,new,current,former,rfl⟩ := editedNowOk.mp found
        rw [found] at judged
        exact ⟨path,n,old,new,placed,current,former,by simpa [Except.map] using judged⟩

instance (root range tools s line) : Decidable (OnEdited root range tools s line) :=
  match judged : judge root range tools s line with
  | .ok true => .isTrue (onEditedJudge.mpr judged)
  | .ok false => .isFalse (fun h => by rw [onEditedJudge,judged] at h; cases h)
  | .error _ => .isFalse (fun h => by rw [onEditedJudge,judged] at h; cases h)

theorem readableJudge {root range tools s line} :
    Readable root range tools s line ↔ ∃ edited, judge root range tools s line = .ok edited := by
  unfold Readable judge
  simp only [parsedPlace]
  constructor
  · rintro ⟨place,placed,contents⟩
    rw [placed]
    cases place with
    | none => exact ⟨false,rfl⟩
    | some place =>
      obtain ⟨old,new,current,former⟩ := contents place.1 place.2 rfl
      dsimp only
      rw [editedNowOk.mpr ⟨old,new,current,former,rfl⟩]
      exact ⟨_,rfl⟩
  · rintro ⟨edited,judged⟩
    split at judged
    · cases judged
    · rename_i placed
      exact ⟨none,placed,by simp⟩
    · rename_i path n placed
      refine ⟨_,placed,?_⟩
      rintro _ _ ⟨⟩
      cases found : editedNow root range tools s path with
      | error f =>
        rw [found] at judged
        cases judged
      | ok lines =>
        obtain ⟨old,new,current,former,_⟩ := editedNowOk.mp found
        exact ⟨old,new,current,former⟩

theorem passedOnReadable {root range tools s} {lines : List String}
    (readable : ∀ line ∈ lines, Readable root range tools s line) :
    passedOn (judge root range tools s) lines = (String.join (lines.filter (OnEdited root range tools s)),.ok ()) := by
  induction lines with
  | nil => rfl
  | cons line rest ih =>
    obtain ⟨edited,judged⟩ := readableJudge.mp (readable line (by simp))
    rw [passedOnOk judged,ih (fun other member => readable other (by simp [member])),List.filter_cons]
    cases edited <;> simp [onEditedJudge,judged,said,String.join_cons]

theorem lintersRelayEdited {σ : Type} (sources : List Path) (range : RevisionRange) (sorted : Bool)
    (commands : List String) (options : Settings) (sink : Sink σ) (start : σ) (tools : Tools) (s v u : Session)
    (root : Path) (files : List Path) (progress : Progress σ) (lines : List String) (whole : Bool)
    (fresh : s.comparison = none) (apart : ∀ g file old new, Keeps (sink g file old new))
    (listed : exec (listing sources range) tools s = (.ok (root,files),v))
    (visited : exec (files.foldlM (reformatFile root range sorted sink) ⟨start,options⟩) tools v = (.ok progress,u))
    (some : files ≠ []) (worktree : range.target = .workingTree)
    (printed : heard tools u.linted (commands.map (argsFor root files)) = (lines,whole)) :
    ∃ r t, exec (reformatEdited sources range sorted (.list (commands.map .text)) options sink start) tools s = (r,t) ∧
      r = (outcome (judge root range tools u) lines whole).map (fun _ => progress) ∧
      t.out = u.out ++ (passedOn (judge root range tools u) lines).1 ∧
      ((∀ line ∈ lines, Readable root range tools u line) →
        r = (if whole then .ok progress else .error .undecodable) ∧
        t.out = u.out ++ String.join (lines.filter (OnEdited root range tools u))) := by
  have kept : u.comparison = none := by
    have listing := withinEnds (withinListing uncompared _ _) listed
    have reformatting := withinEnds (withinReformatting keepsJudges apart _ _ _ _ _) visited
    exact (reformatting.trans listing).trans fresh
  have current : Current root range tools u := by
    intro path lines found
    rw [kept] at found
    cases found
  rw [reformatEditedListed,execBindOk listed,execBindOk visited]
  change ∃ r t, exec ((commands.map Value.text).forM (fun c => Linting.run c root files range) >>= fun _ =>
    pure progress) tools u = (r,t) ∧ _
  rcases run : exec ((commands.map Value.text).forM (fun c => Linting.run c root files range)) tools u with ⟨ended,t⟩
  obtain ⟨result,out⟩ := lintersJudged some worktree current printed run
  refine ⟨ended.map (fun _ => progress),t,?_,by rw [result],out,fun readable => ?_⟩
  · cases ended with
    | error f => exact execBindError run
    | ok _ => exact execBindOk run
  · rw [passedOnReadable readable] at out
    rw [outcome,passedOnReadable readable] at result
    rw [result]
    cases whole <;> exact ⟨rfl,out⟩

def turnTools : Tools where
  git args := match args with
    | "diff" :: _ => ⟨"a.py\n".toUTF8,0⟩
    | "show" :: _ => ⟨"old\n".toUTF8,0⟩
    | _ => ⟨"".toUTF8,0⟩
  format _ text := .ok text
  sortImports := none
  objection _ _ _ := none
  lint n _ := match n with
    | 0 => "b:1: one\nc:1: two\nb:2: three\n".toUTF8
    | _ => "c:2: four\nfive\nb:1: six\n".toUTF8
  environment := []
  terminal := ⟨80,false,none⟩

def turnSession : Session :=
  { Rewriting.returnSession with tree := ⟨[(["r"],.directory),(["r","a.py"],.file "new\n".toUTF8 0),
    (["r","b"],.file "new\nold\n".toUTF8 0),(["r","c"],.file "old\nnew\n".toUTF8 0)]⟩ }

def turnRange : RevisionRange := ⟨"HEAD",.workingTree,false⟩

theorem editedBetween {root : Path} {range : RevisionRange} {tools : Tools} {s : Session} {path : Path}
    {old new : List String}
    (read : (exec (contentAt path range.target.name root) tools s).1.toOption.map Document.lines = some new)
    (read' : (exec (contentAt path range.source root) tools s).1.toOption.map Document.lines = some old) :
    editedNow root range tools s path = .ok (editedLines (diffLines old new) 0) := by
  obtain ⟨current,found,rfl⟩ := execOkPart read
  obtain ⟨former,found',same⟩ := execOkPart read'
  exact editedNowOk.mpr ⟨former,current,congrArg Prod.fst found,congrArg Prod.fst found',by rw [same]⟩

theorem turnEdited {name : String} {new : List String}
    (read : (exec (contentAt ⟨.relative,[name]⟩ ":WORKTREE:" ⟨.root,["r"]⟩) turnTools turnSession).1.toOption.map
      Document.lines = some new)
    (read' : (exec (contentAt ⟨.relative,[name]⟩ "HEAD" ⟨.root,["r"]⟩) turnTools turnSession).1.toOption.map
      Document.lines = some ["old"]) :
    editedNow ⟨.root,["r"]⟩ turnRange turnTools turnSession ⟨.relative,[name]⟩ = .ok (editedLines (diffLines ["old"] new) 0) :=
  editedBetween read read'

theorem onlyFileVisited {tools : Tools} {root path : Path} {range : RevisionRange} {edited old formatted : Document}
    {options left : Settings} {s t u v : Session}
    (opened : exec (openJob root range false options path) tools s = (.ok ⟨root,range,path,edited,edited,false⟩,t))
    (content : exec (contentAt path range.source root) tools t = (.ok old,u))
    (done : exec (Formatter.format (root.join path) edited options) tools (exec (diffDocuments old edited) tools u).2 =
      (.ok (formatted,left),v))
    (agreed : tools.objection t.verified edited.text (candidate old edited formatted 0).text = none) :
    ∃ progress w, exec ([path].foldlM (reformatFile root range false keepChanges) ⟨[],options⟩) tools s = (.ok progress,w) ∧
      Steady s w := by
  have quiet := undisturbedSteady (withinEnds (asksOpenJob _ _ _ _ _) opened)
  obtain ⟨w,run,steady,_⟩ := @firstCandidatePasses ⟨root,range,path,edited,edited,false⟩ tools options left t u v old formatted
    rfl content done agreed edited.lines.length
  rw [List.foldlM_cons,reformatFile,bind_assoc,execBindOk opened,bind_assoc,execBindOk run]
  dsimp only
  split
  · exact ⟨_,w,rfl,steadyTrans quiet steady⟩
  · exact ⟨_,w,rfl,steadyTrans quiet steady⟩

theorem turnVisited : ∃ v progress u,
    exec (listing [⟨.relative,["a.py"]⟩] turnRange) turnTools turnSession = (.ok (⟨.root,["r"]⟩,[⟨.relative,["a.py"]⟩]),v) ∧
    exec ([⟨.relative,["a.py"]⟩].foldlM (reformatFile ⟨.root,["r"]⟩ turnRange false keepChanges) ⟨[],[]⟩) turnTools v =
      (.ok progress,u) ∧ Steady turnSession u := by
  have listed := @execOk _ (listing [⟨.relative,["a.py"]⟩] turnRange) turnTools turnSession
    (⟨.root,["r"]⟩,[⟨.relative,["a.py"]⟩]) (by decide +kernel)
  have opened := @execOk _ (openJob ⟨.root,["r"]⟩ turnRange false [] ⟨.relative,["a.py"]⟩) turnTools
    (exec (listing [⟨.relative,["a.py"]⟩] turnRange) turnTools turnSession).2
    ⟨⟨.root,["r"]⟩,turnRange,⟨.relative,["a.py"]⟩,(Document.ofText "new\n").keepLines,(Document.ofText "new\n").keepLines,false⟩
    (by decide +kernel)
  have content := @execOk _ (contentAt ⟨.relative,["a.py"]⟩ "HEAD" ⟨.root,["r"]⟩) turnTools
    (exec (openJob ⟨.root,["r"]⟩ turnRange false [] ⟨.relative,["a.py"]⟩) turnTools
      (exec (listing [⟨.relative,["a.py"]⟩] turnRange) turnTools turnSession).2).2 (Document.ofText "old\n") (by decide +kernel)
  obtain ⟨⟨formatted,left⟩,done,_⟩ := @execOkPart _ _
    (Formatter.format ⟨.root,["r","a.py"]⟩ (Document.ofText "new\n").keepLines []) (fun p => p.1.text) turnTools
    (exec (diffDocuments (Document.ofText "old\n") (Document.ofText "new\n").keepLines) turnTools
      (exec (contentAt ⟨.relative,["a.py"]⟩ "HEAD" ⟨.root,["r"]⟩) turnTools
        (exec (openJob ⟨.root,["r"]⟩ turnRange false [] ⟨.relative,["a.py"]⟩) turnTools
          (exec (listing [⟨.relative,["a.py"]⟩] turnRange) turnTools turnSession).2).2).2).2 "new\n" (by decide +kernel)
  obtain ⟨progress,u,visited,steady⟩ := onlyFileVisited opened content done rfl
  have quiet := undisturbedSteady (withinEnds (asksListing _ _) listed)
  exact ⟨_,progress,u,listed,visited,steadyTrans quiet steady⟩

theorem turnsRelayed : ∃ before progress,
    (exec (reformatEdited [⟨.relative,["a.py"]⟩] turnRange false (.list [.text "lint",.text "check -v"]) [] keepChanges [])
      turnTools turnSession).1 = .ok progress ∧
    (exec (reformatEdited [⟨.relative,["a.py"]⟩] turnRange false (.list [.text "lint",.text "check -v"]) [] keepChanges [])
      turnTools turnSession).2.out = before ++ "b:1: one\nc:2: four\nb:1: six\n" := by
  obtain ⟨v,progress,u,listed,visited,steady⟩ := turnVisited
  have printed : heard turnTools u.linted (["lint","check -v"].map (argsFor ⟨.root,["r"]⟩ [⟨.relative,["a.py"]⟩])) =
      (["b:1: one\n","c:1: two\n","b:2: three\n","c:2: four\n","five\n","b:1: six\n"],true) := by
    rw [steady.linted]
    decide +kernel
  have first : editedNow ⟨.root,["r"]⟩ turnRange turnTools turnSession ⟨.relative,["b"]⟩ = .ok [1] :=
    (@turnEdited "b" ["new","old"] (by decide +kernel) (by decide +kernel)).trans (congrArg Except.ok (by cbv))
  have last : editedNow ⟨.root,["r"]⟩ turnRange turnTools turnSession ⟨.relative,["c"]⟩ = .ok [2] :=
    (@turnEdited "c" ["old","new"] (by decide +kernel) (by decide +kernel)).trans (congrArg Except.ok (by cbv))
  have judged (line : String) (path : Path) (n : Int) (edited : List Int)
      (placed : placeBelow ⟨.root,["r"]⟩ ⟨.root,["r"]⟩ line = .ok (some (path,n)))
      (found : editedNow ⟨.root,["r"]⟩ turnRange turnTools turnSession path = .ok edited) :
      judge ⟨.root,["r"]⟩ turnRange turnTools u line = .ok (edited.contains n) := by
    rw [steadyJudge steady,judge,show turnSession.cwd = ⟨.root,["r"]⟩ from rfl,placed]
    dsimp only
    rw [found]
    rfl
  have one := judged "b:1: one\n" _ 1 _ (by cbv) first
  have two := judged "c:1: two\n" _ 1 _ (by cbv) last
  have three := judged "b:2: three\n" _ 2 _ (by cbv) first
  have four := judged "c:2: four\n" _ 2 _ (by cbv) last
  have six := judged "b:1: six\n" _ 1 _ (by cbv) first
  have five : judge ⟨.root,["r"]⟩ turnRange turnTools u "five\n" = .ok false := by
    rw [steadyJudge steady]
    cbv
  obtain ⟨r,t,run,_,_,exactly⟩ := lintersRelayEdited [⟨.relative,["a.py"]⟩] turnRange false ["lint","check -v"] [] keepChanges []
    turnTools turnSession v u ⟨.root,["r"]⟩ [⟨.relative,["a.py"]⟩] progress _ true rfl (fun _ _ _ _ => keepsPure _) listed
    visited (by simp) rfl printed
  obtain ⟨result,out⟩ := exactly (by simp [readableJudge,one,two,three,four,five,six])
  refine ⟨u.out,progress,?_,?_⟩
  · exact (congrArg Prod.fst run).trans result
  · refine ((congrArg (fun p => p.2.out) run).trans out).trans ?_
    simp [onEditedJudge,one,two,three,four,five,six]

end Retouch.Relaying
