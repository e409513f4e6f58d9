import Retouch.Formatter
import Retouch.Proofs.Execution
import Retouch.Proofs.Script
import Retouch.Repository

/-! Steps that only ask. Listing files, comparing with a revision, formatting and sorting imports leave
files, output and counters alone; they write to the log and put questions on record. None of them
refuses a candidate, and no script between two documents is ever rejected. -/
namespace Retouch.Inquiry
open Execution

def IsQuestion : Event → Prop
  | .git _ _ => True
  | .format _ _ => True
  | .sortImports _ _ => True
  | _ => False

structure Undisturbed (s s' : Session) : Prop where
  tree : s'.tree = s.tree
  cwd : s'.cwd = s.cwd
  out : s'.out = s.out
  verified : s'.verified = s.verified
  linted : s'.linted = s.linted
  events : ∃ asked : List Event, s'.events.toList = s.events.toList ++ asked ∧ ∀ e ∈ asked, IsQuestion e

def Foreign (f : Failure) : Prop :=
  (∀ reason, f ≠ .notEquivalent reason) ∧ ∀ edits, f ≠ .unalternating edits

abbrev Asks (m : Run α) : Prop := Within Undisturbed Foreign m

theorem undisturbedLasting : Lasting Undisturbed where
  refl _ := ⟨rfl,rfl,rfl,rfl,rfl,[],by simp,by simp⟩
  trans := by
    intro s t u h h'
    obtain ⟨asked,eq,questions⟩ := h.events
    obtain ⟨asked',eq',questions'⟩ := h'.events
    refine ⟨h'.tree.trans h.tree,h'.cwd.trans h.cwd,h'.out.trans h.out,h'.verified.trans h.verified,
      h'.linted.trans h.linted,asked ++ asked',by rw [eq',eq,List.append_assoc],?_⟩
    intro e member
    rcases List.mem_append.mp member with first | second
    · exact questions e first
    · exact questions' e second

theorem undisturbedSilent {s s' : Session} (tree : s'.tree = s.tree) (cwd : s'.cwd = s.cwd)
    (out : s'.out = s.out) (verified : s'.verified = s.verified) (linted : s'.linted = s.linted)
    (events : s'.events = s.events) : Undisturbed s s' :=
  ⟨tree,cwd,out,verified,linted,[],by simp [events],by simp⟩

/- What a relation must put up with so that every step which only asks stays within it: notes, questions to
Git, and the memory of a project's root. -/
structure Tolerates (R : Session → Session → Prop) (F : Failure → Prop) : Prop where
  lasting : Lasting R
  noted : ∀ s log err, R s { s with log := log, err := err }
  asked : ∀ s root args, R s { s with events := s.events.push (.git root args) }
  rooted : ∀ s sources, s.projectRoots.lookup sources = none →
    R s { s with projectRoots := (sources,projectRootOf s.tree s.cwd sources) :: s.projectRoots }
  foreign : ∀ f, Foreign f → F f

theorem undisturbed : Tolerates Undisturbed Foreign where
  lasting := undisturbedLasting
  noted _ _ _ := undisturbedSilent rfl rfl rfl rfl rfl rfl
  asked _ root args := ⟨rfl,rfl,rfl,rfl,rfl,[.git root args],by simp,by simp [IsQuestion]⟩
  rooted _ _ _ := undisturbedSilent rfl rfl rfl rfl rfl rfl
  foreign _ h := h

structure Serves (R : Session → Session → Prop) (F : Failure → Prop) : Prop extends Tolerates R F where
  called : ∀ s e, IsQuestion e → R s { s with events := s.events.push e }
  configured : ∀ s config, R s { s with formatterConfig := config }

theorem undisturbedServes : Serves Undisturbed Foreign where
  toTolerates := undisturbed
  called _ e question := ⟨rfl,rfl,rfl,rfl,rfl,[e],by simp,by simpa using question⟩
  configured _ _ := undisturbedSilent rfl rfl rfl rfl rfl rfl

section
variable {R : Session → Session → Prop} {F : Failure → Prop} (tolerant : Tolerates R F)
include tolerant

theorem withinRefusal {f : Failure} (foreign : Foreign f) : Within R F (Run.fail f : Run α) :=
  withinFail tolerant.lasting (tolerant.foreign f foreign)

theorem withinChecked {f : Failure} (foreign : Foreign f) (o : Option α) : Within R F (Run.ofOption f o) :=
  withinOfOption tolerant.lasting (tolerant.foreign f foreign) o

theorem withinNote (level : Level) (channel : Channel) (message : String) :
    Within R F (Run.note level channel message) :=
  withinModify (fun s => tolerant.noted s _ _)

theorem withinDebug (channel : Channel) (message : String) : Within R F (Run.debug channel message) :=
  withinNote tolerant _ _ _

theorem withinDecode (bytes : ByteArray) : Within R F (Run.decode bytes) :=
  withinChecked tolerant (by simp [Foreign]) _

theorem withinReadBytes (p : Path) : Within R F (Run.readBytes p) := by
  refine withinBind tolerant.lasting (withinGet tolerant.lasting) (fun s => ?_)
  split
  · exact withinPure tolerant.lasting _
  · exact withinRefusal tolerant (by simp [Foreign])

theorem withinReadText (p : Path) : Within R F (Run.readText p) := by
  refine withinBind tolerant.lasting (withinReadBytes tolerant p) (fun _ => ?_)
  exact withinBind tolerant.lasting (withinDecode tolerant _) (fun _ => withinPure tolerant.lasting _)

theorem withinGit (root : Path) (args : List String) : Within R F (askGit root args) := by
  refine withinBind tolerant.lasting (withinDebug tolerant _ _) (fun _ => ?_)
  refine withinBind tolerant.lasting (withinModify (fun s => tolerant.asked s root args)) (fun _ => ?_)
  exact withinBind tolerant.lasting (withinRead tolerant.lasting) (fun _ => withinPure tolerant.lasting _)

theorem withinContentAt (path : Path) (revision : String) (root : Path) :
    Within R F (contentAt path revision root) := by
  unfold contentAt
  split
  · refine withinBind tolerant.lasting (withinReadBytes tolerant _) (fun _ => ?_)
    exact withinBind tolerant.lasting (withinDecode tolerant _) (fun _ => withinPure tolerant.lasting _)
  · refine withinBind tolerant.lasting (withinGit tolerant _ _) (fun answer => ?_)
    split
    · exact withinPure tolerant.lasting _
    · split
      · exact withinRefusal tolerant (by simp [Foreign])
      · exact withinBind tolerant.lasting (withinDecode tolerant _) (fun _ => withinPure tolerant.lasting _)

theorem withinGitLines (root : Path) (args : List String) : Within R F (gitLines root args) := by
  refine withinBind tolerant.lasting (withinGit tolerant _ _) (fun answer => ?_)
  split
  · exact withinRefusal tolerant (by simp [Foreign])
  · split
    · exact withinRefusal tolerant (by simp [Foreign])
    · exact withinBind tolerant.lasting (withinDecode tolerant _) (fun _ => withinPure tolerant.lasting _)

theorem withinBaseRevision (range : RevisionRange) (root : Path) : Within R F (baseRevision range root) := by
  unfold baseRevision
  split
  · exact withinBind tolerant.lasting (withinGitLines tolerant _ _) (fun _ => withinChecked tolerant (by simp [Foreign]) _)
  · exact withinPure tolerant.lasting _

theorem withinBelowRoot (root : Path) (paths : List Path) : Within R F (belowRoot root paths) := by
  refine withinBind tolerant.lasting (withinGet tolerant.lasting) (fun s => ?_)
  refine withinBind tolerant.lasting ?_ (fun _ => withinPure tolerant.lasting _)
  exact withinMapM tolerant.lasting _ (fun _ => withinChecked tolerant (by simp [Foreign]) _)

theorem withinModifiedFiles (paths : List Path) (range : RevisionRange) (root : Path) :
    Within R F (modifiedFiles paths range root) := by
  have listed (names : List String) : Within R F (do
      let files ← (names.map Path.ofString).eraseDups.filterM (fun p => shouldReformat (root.join p))
      return Path.sort files) := by
    refine withinBind tolerant.lasting (withinFilterM tolerant.lasting _ (fun p => ?_))
      (fun _ => withinPure tolerant.lasting _)
    exact withinBind tolerant.lasting (withinGet tolerant.lasting) (fun _ => withinPure tolerant.lasting _)
  refine withinBind tolerant.lasting (withinBelowRoot tolerant _ _) (fun below => ?_)
  refine withinBind tolerant.lasting (withinBaseRevision tolerant _ _) (fun base => ?_)
  refine withinBind tolerant.lasting (withinGitLines tolerant _ _) (fun changed => ?_)
  dsimp only
  split
  · exact withinBind tolerant.lasting (withinGitLines tolerant _ _) (fun added => listed (changed ++ added))
  · exact withinBind tolerant.lasting (withinPure tolerant.lasting _) (fun added => listed (changed ++ added))

theorem withinCommonRoot (paths : List Path) : Within R F (commonRoot paths) :=
  withinBind tolerant.lasting (withinGet tolerant.lasting) (fun _ => withinChecked tolerant (by simp [Foreign]) _)

theorem withinProjectRoot (sources : List String) : Within R F (projectRoot sources) := by
  refine withinGetBind (fun tools s => ?_)
  split
  · exact withinPure tolerant.lasting _ tools s
  · rename_i unknown
    exact ⟨tolerant.rooted s sources unknown,fun _ h => by cases h⟩

theorem withinProjectFile (sources : List String) : Within R F (projectFile? sources) := by
  refine withinBind tolerant.lasting (withinProjectRoot tolerant sources) (fun _ => ?_)
  exact withinBind tolerant.lasting (withinGet tolerant.lasting) (fun _ => withinPure tolerant.lasting _)

theorem withinReadSettings (file : String) : Within R F (Formatter.readSettings file) := by
  refine withinBind tolerant.lasting (withinGet tolerant.lasting) (fun s => ?_)
  split
  · exact withinRefusal tolerant (by simp [Foreign])
  · refine withinBind tolerant.lasting (withinDecode tolerant _) (fun _ => ?_)
    refine withinBind tolerant.lasting (withinChecked tolerant (by simp [Foreign]) _) (fun _ => ?_)
    exact withinBind tolerant.lasting (withinChecked tolerant (by simp [Foreign]) _) (fun _ => withinPure tolerant.lasting _)

theorem withinSettingsFile (source : Path) (requested : Value) :
    Within R F (Formatter.settingsFile? source requested) := by
  unfold Formatter.settingsFile?
  split
  · split
    · exact withinPure tolerant.lasting _
    · exact withinRefusal tolerant (by simp [Foreign])
  · exact withinBind tolerant.lasting (withinProjectFile tolerant _) (fun _ => withinPure tolerant.lasting _)

theorem withinDiffDocuments (old new : Document) : Within R F (diffDocuments old new) :=
  withinBind tolerant.lasting (withinDebug tolerant _ _) (fun _ => withinPure tolerant.lasting _)

end

theorem execDebug (channel : Channel) (message : String) (tools : Tools) (s : Session) :
    ∃ s', exec (Run.debug channel message) tools s = (.ok ⟨⟩,s') ∧ Undisturbed s s' :=
  ⟨_,rfl,(withinDebug undisturbed channel message tools s).1⟩

theorem editedLinesOfDiff (old new : List String) (context : Int) :
    editedLines? (diffLines old new) context = some (editedLines (diffLines old new) context) :=
  if_pos (Script.diffAlternating old new)

theorem chunksOfDiff (old new : List String) :
    Chunk.ofEdits? old new (diffLines old new) = some ((diffLines old new).map (Chunk.ofEdit old new)) :=
  if_pos (Script.diffAlternating old new)

theorem execDiffDocuments (old new : Document) (tools : Tools) (s : Session) :
    ∃ s', exec (diffDocuments old new) tools s = (.ok (diffLines old.lines new.lines),s') ∧ Undisturbed s s' := by
  refine ⟨_,rfl,?_⟩
  exact undisturbedSilent rfl rfl rfl rfl rfl rfl

theorem contentStable (tools : Tools) (path : Path) (revision : String) (root : Path) {s t : Session}
    (tree : t.tree = s.tree) (cwd : t.cwd = s.cwd) :
    (exec (contentAt path revision root) tools t).1 = (exec (contentAt path revision root) tools s).1 := by
  unfold contentAt
  split
  · simp only [loadDocument,Run.readBytes,execBind,execGet,tree,cwd]
    cases s.tree.read s.cwd (root.join path) with
    | error fault => rfl
    | ok found =>
      simp only [execPure,Run.decode]
      cases String.fromUTF8? found.1 <;> rfl
  · simp only [askGit,execBind,execRead,execPure,Run.debug,Run.note,Run.record,execModify]
    split
    · rfl
    · split
      · rfl
      · simp only [execBind,Run.decode]
        cases String.fromUTF8? (tools.git ["show",s!"{revision}:./{path.render}"]).output <;> rfl

theorem decodedBytes {bytes : ByteArray} {text : String} (decoded : String.fromUTF8? bytes = some text) :
    bytes = text.toUTF8 := by
  unfold String.fromUTF8? at decoded
  split at decoded
  · cases Option.some.inj decoded
    rfl
  · cases decoded

theorem textDecoded (text : String) : String.fromUTF8? text.toUTF8 = some text := by
  rw [String.fromUTF8?,String.toUTF8_eq_toByteArray,dif_pos text.isValidUTF8]
  rfl

theorem readTextSource {p : Path} {tools : Tools} {s : Session} {text : String}
    (read : (exec (Run.readText p) tools s).1 = .ok text) :
    ∃ modified raw, s.tree.read s.cwd p = .ok (raw.toUTF8,modified) ∧ text = readBreaks raw := by
  simp only [Run.readText,Run.readBytes,execBind,execGet] at read
  cases found : s.tree.read s.cwd p with
  | error fault => simp [found] at read
  | ok pair =>
    obtain ⟨bytes,modified⟩ := pair
    simp only [found,execPure,Run.decode] at read
    cases decoded : String.fromUTF8? bytes with
    | none =>
      rw [decoded] at read
      cases read
    | some raw =>
      rw [decoded] at read
      cases read
      exact ⟨modified,raw,by rw [decodedBytes decoded],rfl⟩

theorem withinEditedSince {R : Session → Session → Prop} {F : Failure → Prop} (tolerant : Tolerates R F)
    (root : Path) (range : RevisionRange) (path : Path) (content : Document) (context : Int) :
    Within R F (editedSince root range path content context) := by
  refine withinBind tolerant.lasting (withinContentAt tolerant _ _ _) (fun old => ?_)
  intro tools s
  obtain ⟨t,run,_⟩ := execDiffDocuments old content tools s
  rw [execBindOk run,editedLinesOfDiff]
  exact ⟨withinEnds (withinDiffDocuments tolerant old content) run,fun _ h => by cases h⟩

theorem editedSinceContent (root : Path) (range : RevisionRange) (path : Path) (content : Document) (context : Int)
    (tools : Tools) (s : Session) :
    (exec (editedSince root range path content context) tools s).1 =
      (exec (contentAt path range.source root) tools s).1.map
        (fun old => editedLines (diffLines old.lines content.lines) context) := by
  rcases found : exec (contentAt path range.source root) tools s with ⟨f | old,t⟩
  · rw [editedSince,execBindError found]
    rfl
  · obtain ⟨u,compared,_⟩ := execDiffDocuments old content tools t
    rw [editedSince,execBindOk found,execBindOk compared,editedLinesOfDiff]
    rfl

theorem editedSinceFound {root : Path} {range : RevisionRange} {path : Path} {content : Document} {context : Int}
    {tools : Tools} {s : Session} {old : Document} (found : (exec (contentAt path range.source root) tools s).1 = .ok old) :
    exec (editedSince root range path content context) tools s =
      (.ok (editedLines (diffLines old.lines content.lines) context),
        (exec (editedSince root range path content context) tools s).2) :=
  Prod.ext (by rw [editedSinceContent,found]; rfl) rfl

section
variable {R : Session → Session → Prop} {F : Failure → Prop} (serves : Serves R F)
include serves

theorem withinFormatterConfig (source : Path) (requested : Value) : Within R F (Formatter.config source requested) := by
  have kept (settings : Settings) : Within R F (do
      modify fun s => { s with formatterConfig := some ((source,requested),settings) }
      return settings : Run Settings) :=
    withinBind serves.lasting (withinModify (fun s => serves.configured s _)) (fun _ => withinPure serves.lasting _)
  have fresh : Within R F (Formatter.config.fresh source requested) := by
    refine withinBind serves.lasting (withinSettingsFile serves.toTolerates _ _) (fun file => ?_)
    cases file with
    | none => exact withinBind serves.lasting (withinPure serves.lasting _) kept
    | some file => exact withinBind serves.lasting (withinReadSettings serves.toTolerates _) kept
  refine withinAside (fun rest => withinBind serves.lasting (withinRefusal serves.toTolerates (by simp [Foreign]))
    (fun _ => rest)) (withinBind serves.lasting (withinGet serves.lasting) (fun s => ?_))
  split
  · split
    · exact withinPure serves.lasting _
    · exact fresh
  · exact fresh

theorem withinFormat (source : Path) (content : Document) (options : Settings) :
    Within R F (Formatter.format source content options) := by
  refine withinBind serves.lasting (withinFormatterConfig serves _ _) (fun _ => ?_)
  refine withinBind serves.lasting (withinModify (fun s => serves.configured s _)) (fun _ => ?_)
  refine withinBind serves.lasting (withinModify (fun s => serves.called s _ trivial)) (fun _ => ?_)
  refine withinBind serves.lasting (withinRead serves.lasting) (fun tools => ?_)
  split
  · exact withinPure serves.lasting _
  · exact withinRefusal serves.toTolerates (by simp [Foreign])

theorem withinSortImports (content : Document) (source : Path) (requested lineLength : Value) :
    Within R F (Imports.sort content source requested lineLength) := by
  have settings : Within R F (Imports.settingsFor source requested lineLength) := by
    unfold Imports.settingsFor
    dsimp only
    split
    · exact withinBind serves.lasting (withinPure serves.lasting _) (fun _ => withinPure serves.lasting _)
    · refine withinBind serves.lasting (withinProjectRoot serves.toTolerates _) (fun _ => ?_)
      exact withinBind serves.lasting (withinPure serves.lasting _) (fun _ => withinPure serves.lasting _)
  refine withinBind serves.lasting settings (fun _ => ?_)
  refine withinBind serves.lasting (withinDebug serves.toTolerates _ _) (fun _ => ?_)
  refine withinBind serves.lasting (withinRead serves.lasting) (fun tools => ?_)
  split
  · exact withinRefusal serves.toTolerates (by simp [Foreign])
  · refine withinBind serves.lasting (withinModify (fun s => serves.called s _ trivial)) (fun _ => ?_)
    split
    · exact withinPure serves.lasting _
    · exact withinRefusal serves.toTolerates (by simp [Foreign])

end

theorem asksFormat (source : Path) (content : Document) (options : Settings) :
    Asks (Formatter.format source content options) := withinFormat undisturbedServes source content options

theorem asksSortImports (content : Document) (source : Path) (requested lineLength : Value) :
    Asks (Imports.sort content source requested lineLength) :=
  withinSortImports undisturbedServes content source requested lineLength

theorem execFormat {source content options tools s formatted left t}
    (run : exec (Formatter.format source content options) tools s = (.ok (formatted,left),t)) :
    left = Settings.erase options "config" ∧ ∃ mode text, tools.format mode content.text = .ok text ∧
      formatted = Document.ofText text := by
  rcases execBindCases run with ⟨e,_,impossible⟩ | ⟨settings,u,_,rest⟩
  · cases impossible
  · simp only [execBind,execModify,Run.record,execRead] at rest
    split at rest
    · rename_i text answer
      cases rest
      exact ⟨rfl,_,text,answer,rfl⟩
    · cases rest

theorem execSortImports {content source requested lineLength tools s edited t}
    (run : exec (Imports.sort content source requested lineLength) tools s = (.ok edited,t)) :
    ∃ sorter settings text, tools.sortImports = some sorter ∧ sorter settings content.text = .ok text ∧
      edited = Document.ofText text := by
  rcases execBindCases run with ⟨e,_,impossible⟩ | ⟨settings,u,_,rest⟩
  · cases impossible
  · obtain ⟨v,told,_⟩ := execDebug .importSorting _ tools u
    rw [execBindOk told,execBindOk (execRead tools v)] at rest
    split at rest
    · cases rest
    · rename_i sorter installed
      rcases execBindCases rest with ⟨e,_,impossible⟩ | ⟨_,w,_,last⟩
      · cases impossible
      · split at last
        · rename_i text answer
          cases last
          exact ⟨sorter,settings,text,installed,answer,rfl⟩
        · cases last

end Retouch.Inquiry
