import Retouch.Proofs.Places

/-! Messages that end the run of their linter. A message without a place is passed over, and so it is with one about a
line that was not edited. A message about a file that lies outside the root or that cannot be read ends the run: what
came before it has been printed, and what comes after it is lost. -/
namespace Retouch.Interruptions
open Execution Inquiry Relaying Places
open Linting (place? withoutEnd linesWithEnds outputLines)

def sourceAnswer (range : RevisionRange) (tools : Tools) (path : Path) : GitAnswer :=
  tools.git ["show",s!"{range.source}:./{path.render}"]

inductive Stumbles (root : Path) (range : RevisionRange) (tools : Tools) (s : Session) (line : String) :
    Failure → Prop where
  | outside {name n} (placed : place? (withoutEnd line) = some (name,n)) (above : ∀ path, ¬ Below s.cwd root name path) :
      Stumbles root range tools s line (.outside (Path.absolute s.cwd (Path.ofString name)) root)
  | unread {name n path fault} (placed : place? (withoutEnd line) = some (name,n)) (below : Below s.cwd root name path)
      (failed : s.tree.read s.cwd (root.join path) = .error fault) :
      Stumbles root range tools s line (.file fault (root.join path).render)
  | undecoded {name n path bytes modified} (placed : place? (withoutEnd line) = some (name,n))
      (below : Below s.cwd root name path) (read : s.tree.read s.cwd (root.join path) = .ok (bytes,modified))
      (binary : String.fromUTF8? bytes = none) : Stumbles root range tools s line .undecodable
  | sourceUndecoded {name n path bytes modified} (placed : place? (withoutEnd line) = some (name,n))
      (below : Below s.cwd root name path) (read : s.tree.read s.cwd (root.join path) = .ok (bytes,modified))
      (asked : range.source ≠ workingTreeName) (answered : (sourceAnswer range tools path).status = 0)
      (binary : String.fromUTF8? (sourceAnswer range tools path).output = none) : Stumbles root range tools s line .undecodable

section
variable {root : Path} {range : RevisionRange} {tools : Tools} {s : Session}

theorem worktreeUnread {path : Path} {fault : FileFault} (failed : s.tree.read s.cwd (root.join path) = .error fault) :
    (exec (contentAt path workingTreeName root) tools s).1 = .error (.file fault (root.join path).render) := by
  simp [contentAt,loadDocument,Run.readBytes,execBind,failed]

theorem worktreeRead {path : Path} {bytes : ByteArray} {modified : Int}
    (read : s.tree.read s.cwd (root.join path) = .ok (bytes,modified)) :
    (exec (contentAt path workingTreeName root) tools s).1 = match String.fromUTF8? bytes with
      | none => .error .undecodable
      | some text => .ok { Document.ofText (readBreaks text) with modified := Moment.short (Moment.ofMicroseconds modified) } := by
  simp only [contentAt,beq_self_eq_true,if_true,loadDocument,Run.readBytes,execBind,execGet,read,execPure,Run.decode]
  cases String.fromUTF8? bytes <;> rfl

theorem sourceFails {path : Path} {f : Failure} (apart : range.source ≠ workingTreeName)
    (known : (sourceAnswer range tools path).status = 0 ∨ (sourceAnswer range tools path).status = 128) :
    (exec (contentAt path range.source root) tools s).1 = .error f ↔
      f = .undecodable ∧ (sourceAnswer range tools path).status = 0 ∧
        String.fromUTF8? (sourceAnswer range tools path).output = none := by
  have other : (range.source == workingTreeName) = false := by simpa using apart
  simp only [contentAt,other,Bool.false_eq_true,if_false,askGit,execBind,execRead,execPure,Run.debug,Run.note,Run.record,
    execModify]
  rcases known with plain | missing
  · rw [sourceAnswer] at plain
    rw [plain,if_neg (by decide),if_neg (by decide),sourceAnswer,execBind,Run.decode]
    cases String.fromUTF8? (tools.git ["show",s!"{range.source}:./{path.render}"]).output <;> simp [Run.ofOption,plain,eq_comm]
  · rw [sourceAnswer] at missing
    simp [missing,sourceAnswer]

theorem boundFails {e : Except Failure α} {g : α → β} {f : Failure} :
    (e >>= fun a => pure (g a)) = .error f ↔ e = .error f := by
  cases e <;> simp [bind,Except.bind,pure,Except.pure]

theorem editedFails {path : Path} {f : Failure} (worktree : range.target = .workingTree)
    (known : (sourceAnswer range tools path).status = 0 ∨ (sourceAnswer range tools path).status = 128) :
    editedNow root range tools s path = .error f ↔
      (∃ fault, s.tree.read s.cwd (root.join path) = .error fault ∧ f = .file fault (root.join path).render) ∨
        ∃ bytes modified, s.tree.read s.cwd (root.join path) = .ok (bytes,modified) ∧ f = .undecodable ∧
          (String.fromUTF8? bytes = none ∨ range.source ≠ workingTreeName ∧ (sourceAnswer range tools path).status = 0 ∧
            String.fromUTF8? (sourceAnswer range tools path).output = none) := by
  have target : range.target.name = workingTreeName := by rw [worktree]; rfl
  cases read : s.tree.read s.cwd (root.join path) with
  | error fault =>
    rw [editedNow,target,worktreeUnread read]
    simp [bind,Except.bind,eq_comm]
  | ok found =>
    obtain ⟨bytes,modified⟩ := found
    cases decoded : String.fromUTF8? bytes with
    | none =>
      rw [editedNow,target,worktreeRead read,decoded]
      simp [decoded,bind,Except.bind,eq_comm]
    | some text =>
      by_cases same : range.source = workingTreeName
      · rw [editedNow,target,same,worktreeRead read,decoded]
        simp [decoded,bind,Except.bind,pure,Except.pure]
      · have only : editedNow root range tools s path = .error f ↔
            (exec (contentAt path range.source root) tools s).1 = .error f := by
          rw [editedNow,target,worktreeRead read,decoded]
          exact boundFails
        rw [only,sourceFails same known]
        simp [decoded,same]

theorem judgePlaced {line name : String} {n : Int} {path : Path} (placed : place? (withoutEnd line) = some (name,n))
    (below : Below s.cwd root name path) :
    judge root range tools s line = (editedNow root range tools s path).map (fun lines => lines.contains n) := by
  rw [judge,placeBelow,placed]
  dsimp only
  rw [belowIff.mpr below]

theorem judgeOutside {line name : String} {n : Int} (placed : place? (withoutEnd line) = some (name,n))
    (above : ∀ path, ¬ Below s.cwd root name path) :
    judge root range tools s line = .error (.outside (Path.absolute s.cwd (Path.ofString name)) root) := by
  rw [judge,placeBelow,placed]
  dsimp only
  cases found : (Path.absolute s.cwd (Path.ofString name)).relativeTo? root with
  | none => rfl
  | some path => exact absurd (belowIff.mp found) (above path)

theorem judgeFails {line : String} {f : Failure} (worktree : range.target = .workingTree)
    (known : ∀ path, (sourceAnswer range tools path).status = 0 ∨ (sourceAnswer range tools path).status = 128) :
    judge root range tools s line = .error f ↔ Stumbles root range tools s line f := by
  have lost {name : String} {n : Int} {path : Path} (placed : place? (withoutEnd line) = some (name,n))
      (below : Below s.cwd root name path) :
      judge root range tools s line = .error f ↔ editedNow root range tools s path = .error f := by
    rw [judgePlaced placed below]
    cases editedNow root range tools s path <;> simp [Except.map]
  constructor
  · intro failed
    cases placed : place? (withoutEnd line) with
    | none =>
      rw [judge,placeBelow,placed] at failed
      cases failed
    | some place =>
      obtain ⟨name,n⟩ := place
      by_cases inside : ∃ path, Below s.cwd root name path
      · obtain ⟨path,below⟩ := inside
        rcases (editedFails worktree (known path)).mp ((lost placed below).mp failed) with
          ⟨fault,unread,rfl⟩ | ⟨bytes,modified,read,rfl,binary | ⟨asked,answered,binary⟩⟩
        · exact .unread placed below unread
        · exact .undecoded placed below read binary
        · exact .sourceUndecoded placed below read asked answered binary
      · rw [judgeOutside placed (not_exists.mp inside)] at failed
        cases failed
        exact .outside placed (not_exists.mp inside)
  · intro stumbles
    cases stumbles with
    | outside placed above => exact judgeOutside placed above
    | unread placed below failed =>
      exact (lost placed below).mpr ((editedFails worktree (known _)).mpr (.inl ⟨_,failed,rfl⟩))
    | undecoded placed below read binary =>
      exact (lost placed below).mpr ((editedFails worktree (known _)).mpr (.inr ⟨_,_,read,rfl,.inl binary⟩))
    | sourceUndecoded placed below read asked answered binary =>
      exact (lost placed below).mpr
        ((editedFails worktree (known _)).mpr (.inr ⟨_,_,read,rfl,.inr ⟨asked,answered,binary⟩⟩))

theorem passedOnStumbles {before after : List String} {line : String} {f : Failure}
    (readable : ∀ line ∈ before, Readable root range tools s line) (failed : judge root range tools s line = .error f) :
    passedOn (judge root range tools s) (before ++ line :: after) =
      (String.join (before.filter (OnEdited root range tools s)),.error f) := by
  rw [passedOnAppend,passedOnReadable readable,passedOnError failed]
  simp

end

theorem passedOnSettled {judgement : String → Except Failure Bool} {lines : List String} :
    (passedOn judgement lines).2 = .ok () ↔ ∀ line ∈ lines, ∃ edited, judgement line = .ok edited := by
  induction lines with
  | nil => simp [passedOn]
  | cons line rest ih =>
    cases judged : judgement line with
    | error f => simp [passedOnError judged,judged]
    | ok edited => simp [passedOnOk judged,judged,ih]

theorem outputRead (text : String) : outputLines text.toUTF8 = (linesWithEnds [] (readBreaks text).toList,true) := by
  rw [outputLines,textDecoded]

theorem stumblingMessageEndsLinter (command text : String) (root : Path) (files : List Path) (range : RevisionRange)
    (tools : Tools) (s : Session) (lines : List String) (filled : files ≠ []) (worktree : range.target = .workingTree)
    (known : ∀ path, (sourceAnswer range tools path).status = 0 ∨ (sourceAnswer range tools path).status = 128)
    (current : Current root range tools s) (printed : tools.lint s.linted (argsFor root files command) = text.toUTF8)
    (read : lines = linesWithEnds [] (readBreaks text).toList) :
    ∃ r t, exec (Linting.run (.text command) root files range) tools s = (r,t) ∧
      (r = .ok () ↔ ∀ line ∈ lines, ∀ f, ¬ Stumbles root range tools s line f) ∧
      (r = .ok () → t.out = s.out ++ String.join (lines.filter (OnEdited root range tools s))) ∧
      (∀ before line after f, lines = before ++ line :: after →
        (∀ earlier ∈ before, ∀ g, ¬ Stumbles root range tools s earlier g) → Stumbles root range tools s line f →
        r = .error f ∧ t.out = s.out ++ String.join (before.filter (OnEdited root range tools s))) ∧
      ∀ line ∈ lines, place? (withoutEnd line) = none →
        (∀ f, ¬ Stumbles root range tools s line f) ∧ ¬ OnEdited root range tools s line := by
  have settled (line : String) : (∃ edited, judge root range tools s line = .ok edited) ↔
      ∀ f, ¬ Stumbles root range tools s line f := by
    simp only [← judgeFails worktree known]
    cases judge root range tools s line <;> simp
  have readable {steady : List String} (apart : ∀ line ∈ steady, ∀ f, ¬ Stumbles root range tools s line f) :
      ∀ line ∈ steady, Readable root range tools s line :=
    fun line member => readableJudge.mpr ((settled line).mpr (apart line member))
  rcases run : exec (Linting.run (.text command) root files range) tools s with ⟨r,t⟩
  obtain ⟨_,_,_,_,result,out⟩ := linterJudged filled worktree current (by rw [printed,outputRead,← read]) run
  have finished : r = .ok () ↔ ∀ line ∈ lines, ∀ f, ¬ Stumbles root range tools s line f := by
    simp only [← settled,← passedOnSettled,result,outcome]
    cases (passedOn (judge root range tools s) lines).2 <;> simp [bind,Except.bind,pure,Except.pure]
  refine ⟨r,t,rfl,finished,?_,?_,?_⟩
  · intro ended
    rw [out,passedOnReadable (readable (finished.mp ended))]
  · intro before line after f whole apart stumbles
    have passed := @passedOnStumbles root range tools s before after line f (readable apart)
      ((judgeFails worktree known).mpr stumbles)
    rw [whole,passed] at out
    rw [whole,outcome,passed] at result
    exact ⟨result,out⟩
  · intro line _ unplaced
    refine ⟨fun f stumbles => ?_,fun edited => ?_⟩
    · cases stumbles <;> simp_all
    · obtain ⟨path,n,_,_,placed,_⟩ := edited
      rw [parsedPlace,placeBelow,unplaced] at placed
      cases placed

def strayTools : Tools := { turnTools with
  lint := fun _ args => match args with
    | "style" :: _ => "b:1: one\ngone:1: two\nb:1: three\n".toUTF8
    | _ => "/x:1: four\nb:1: five\n".toUTF8 }

theorem strayCurrent : Current ⟨.root,["r"]⟩ turnRange strayTools turnSession := by
  intro path lines found
  cases found

theorem firstLinePlaced {line : String} (name description : String) (whole : line = name ++ ":" ++ "1" ++ ": " ++ description ++ "\n")
    (clean : ':' ∉ name.toList) : place? (withoutEnd line) = some (name,1) := by
  have located := @writtenLocated name "1" description 1 [] clean (writtenDecimal (n := 1) (by decide)) (by simp) (by simp)
  have joined : name ++ ":" ++ "1" = ":".intercalate [name,"1"] := by simp [String.intercalate_cons_cons]
  rw [whole,endRemoved,joined]
  exact placeLocated.mpr ⟨_,_,_,located⟩

theorem strayEdited {line : String} (description : String) (whole : line = "b" ++ ":" ++ "1" ++ ": " ++ description ++ "\n") :
    OnEdited ⟨.root,["r"]⟩ turnRange strayTools turnSession line := by
  have placed := firstLinePlaced "b" description whole (by decide)
  have below : Below turnSession.cwd ⟨.root,["r"]⟩ "b" ⟨.relative,["b"]⟩ := ⟨rfl,by decide +kernel⟩
  have edited : editedNow ⟨.root,["r"]⟩ turnRange strayTools turnSession ⟨.relative,["b"]⟩ = .ok [1] :=
    (@editedBetween _ turnRange strayTools turnSession _ ["old"] ["new","old"] (by decide +kernel) (by decide +kernel)).trans
      (congrArg Except.ok (by cbv))
  rw [onEditedJudge,judgePlaced placed below,edited]
  rfl

theorem goneFileEndsLinter : ∃ r t,
    exec (Linting.run (.text "style") ⟨.root,["r"]⟩ [⟨.relative,["a.py"]⟩] turnRange) strayTools turnSession = (r,t) ∧
      r = .error (.file .missing "/r/gone") ∧ t.out = "b:1: one\n" ∧
      OnEdited ⟨.root,["r"]⟩ turnRange strayTools turnSession "b:1: three\n" := by
  have first : OnEdited ⟨.root,["r"]⟩ turnRange strayTools turnSession "b:1: one\n" := strayEdited "one" rfl
  have last : OnEdited ⟨.root,["r"]⟩ turnRange strayTools turnSession "b:1: three\n" := strayEdited "three" rfl
  have gone : Stumbles ⟨.root,["r"]⟩ turnRange strayTools turnSession "gone:1: two\n" (.file .missing "/r/gone") :=
    .unread (firstLinePlaced "gone" "two" rfl (by decide)) (show Below _ _ _ ⟨.relative,["gone"]⟩ from ⟨rfl,by decide +kernel⟩) rfl
  have steady : ∀ f, ¬ Stumbles ⟨.root,["r"]⟩ turnRange strayTools turnSession "b:1: one\n" f := by
    intro f stumbles
    have judged := onEditedJudge.mp first
    rw [(judgeFails rfl (fun _ => .inl rfl)).mpr stumbles] at judged
    cases judged
  obtain ⟨r,t,run,_,_,stopped,_⟩ := stumblingMessageEndsLinter "style" "b:1: one\ngone:1: two\nb:1: three\n" ⟨.root,["r"]⟩
    [⟨.relative,["a.py"]⟩] turnRange strayTools turnSession ["b:1: one\n","gone:1: two\n","b:1: three\n"] (by simp) rfl
    (fun _ => .inl rfl) strayCurrent (by rfl) (by decide +kernel)
  obtain ⟨failed,out⟩ := stopped ["b:1: one\n"] "gone:1: two\n" ["b:1: three\n"] _ rfl (by simpa using steady) gone
  refine ⟨r,t,run,failed,?_,last⟩
  rw [out,List.filter_cons_of_pos (by simp [first])]
  rfl

/- One linter can end a run: its message about a file outside the root cannot be judged, so the message after it is not
passed on, though it is about an edited line. -/
theorem strayMessageFails :
    (exec (Linting.run (.text "types") ⟨.root,["r"]⟩ [⟨.relative,["a.py"]⟩] turnRange) strayTools turnSession).1 =
      .error (.outside ⟨.root,["x"]⟩ ⟨.root,["r"]⟩) ∧
    (exec (Linting.run (.text "types") ⟨.root,["r"]⟩ [⟨.relative,["a.py"]⟩] turnRange) strayTools turnSession).2.out = "" ∧
    OnEdited ⟨.root,["r"]⟩ turnRange strayTools turnSession "b:1: five\n" := by
  have above : ∀ path, ¬ Below turnSession.cwd ⟨.root,["r"]⟩ "/x" path := by
    intro path below
    have found := belowIff.mpr below
    rw [show (Path.absolute turnSession.cwd (Path.ofString "/x")).relativeTo? ⟨.root,["r"]⟩ = none by decide +kernel] at found
    cases found
  have stray := @judgeOutside ⟨.root,["r"]⟩ turnRange strayTools turnSession "/x:1: four\n" "/x" 1
    (firstLinePlaced "/x" "four" rfl (by decide)) above
  have printed : outputLines (strayTools.lint turnSession.linted (argsFor ⟨.root,["r"]⟩ [⟨.relative,["a.py"]⟩] "types")) =
      (["/x:1: four\n","b:1: five\n"],true) := by decide +kernel
  rcases run : exec (Linting.run (.text "types") ⟨.root,["r"]⟩ [⟨.relative,["a.py"]⟩] turnRange) strayTools turnSession with ⟨r,t⟩
  obtain ⟨_,_,_,_,result,out⟩ := linterJudged (by simp) rfl strayCurrent printed run
  rw [outcome,passedOnError stray] at result
  rw [passedOnError stray] at out
  exact ⟨result,out,strayEdited "five" rfl⟩

end Retouch.Interruptions
