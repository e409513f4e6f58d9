import Retouch.Proofs.Course
import Retouch.Proofs.Refusals
import Retouch.Program

/-! What stands still while the program runs. Reading the settings, listing, searching and linting leave
every file as it is; only the sink can write. No step, the sink's included, ends with a complaint about an
edit script. -/
namespace Retouch.Stillness
open Execution Inquiry Candidates Refusals

structure Still (s s' : Session) : Prop where
  tree : s'.tree = s.tree
  cwd : s'.cwd = s.cwd

theorem stillLasting : Lasting Still where
  refl _ := ⟨rfl,rfl⟩
  trans h h' := ⟨h'.tree.trans h.tree,h'.cwd.trans h.cwd⟩

theorem steadyStill {s s' : Session} (h : Steady s s') : Still s s' := ⟨h.tree,h.cwd⟩

theorem undisturbedStill {s s' : Session} (h : Undisturbed s s') : Still s s' := ⟨h.tree,h.cwd⟩

def rootFor (s : Session) (sources : List String) : Path :=
  (s.projectRoots.lookup sources).getD (projectRootOf s.tree s.cwd sources)

def IsCall : Event → Bool
  | .format _ _ => true
  | .sortImports _ _ => true
  | _ => false

def calls (s : Session) : List Event := s.events.toList.filter IsCall

/- Everything that the search for a result can see of a session, with the calls and the verdicts on record. A root
that is remembered is the one that would be found, so remembering it changes nothing. -/
structure Calm (s s' : Session) : Prop where
  tree : s'.tree = s.tree
  cwd : s'.cwd = s.cwd
  verified : s'.verified = s.verified
  formatterConfig : s'.formatterConfig = s.formatterConfig
  roots : ∀ sources, rootFor s' sources = rootFor s sources
  calls : calls s' = calls s
  verdicts : verdicts s' = verdicts s

abbrev Stands (m : Run α) : Prop := Within Calm Aligned m

theorem calmStill {s s' : Session} (h : Calm s s') : Still s s' := ⟨h.tree,h.cwd⟩

theorem calmAdds {s s' : Session} (h : Calm s s') : Adds s s' := addsNothing h.verdicts h.verified

theorem foreignAligned {f : Failure} (h : Foreign f) : Aligned f := h.2

theorem rootRemembered (s : Session) (sources : List String) (unknown : s.projectRoots.lookup sources = none)
    (others : List String) :
    rootFor { s with projectRoots := (sources,projectRootOf s.tree s.cwd sources) :: s.projectRoots } others =
      rootFor s others := by
  unfold rootFor
  rw [List.lookup_cons]
  by_cases same : others = sources
  · subst same
    simp [unknown]
  · simp [beq_eq_false_iff_ne.mpr same]

theorem calmLasting : Lasting Calm where
  refl _ := ⟨rfl,rfl,rfl,rfl,fun _ => rfl,rfl,rfl⟩
  trans h h' := ⟨h'.tree.trans h.tree,h'.cwd.trans h.cwd,h'.verified.trans h.verified,
    h'.formatterConfig.trans h.formatterConfig,fun sources => (h'.roots sources).trans (h.roots sources),
    h'.calls.trans h.calls,h'.verdicts.trans h.verdicts⟩

theorem calm : Tolerates Calm Aligned where
  lasting := calmLasting
  noted _ _ _ := ⟨rfl,rfl,rfl,rfl,fun _ => rfl,rfl,rfl⟩
  asked _ _ _ := ⟨rfl,rfl,rfl,rfl,fun _ => rfl,by simp [calls,IsCall],by simp [verdicts]⟩
  rooted s sources unknown := ⟨rfl,rfl,rfl,rfl,rootRemembered s sources unknown,rfl,rfl⟩
  foreign _ := foreignAligned

theorem standsPure (a : α) : Stands (pure a) := withinPure calmLasting a

theorem standsBind {m : Run α} {g : α → Run β} (first : Stands m) (next : ∀ a, Stands (g a)) : Stands (m >>= g) :=
  withinBind calmLasting first next

theorem standsFail {f : Failure} (aligned : Aligned f) : Stands (Run.fail f : Run α) := withinFail calmLasting aligned

theorem standsPrint (text : String) : Stands (Run.print text) :=
  withinModify (fun _ => ⟨rfl,rfl,rfl,rfl,fun _ => rfl,rfl,rfl⟩)

theorem standsRefusal {e : Except Failure α} (h : Refuses Aligned e) : Stands (liftM e : Run α) :=
  fun _ s => ⟨calmLasting.refl s,h⟩

theorem standsOptions (g : Options.Grammar) (args : List String) : Stands (Options.read g args) := by
  refine standsBind (withinRead calmLasting) (fun tools => ?_)
  have refused := evaluateAligned g args
  cases h : Options.evaluate g args with
  | ok settings => exact standsPure _
  | error stop =>
    cases stop with
    | help => exact standsBind (standsPrint _) (fun _ => standsFail (by simp [Aligned]))
    | version => exact standsBind (standsPrint _) (fun _ => standsFail (by simp [Aligned]))
    | misuse message =>
      exact standsBind (withinModify (fun _ => ⟨rfl,rfl,rfl,rfl,fun _ => rfl,rfl,rfl⟩)) (fun _ => standsFail (by simp [Aligned]))
    | failure f => exact standsFail (refused _ h)

theorem standsLoad (sources : List String) : Stands (Config.load sources) := by
  refine standsBind (withinProjectFile calm _) (fun file => ?_)
  cases file with
  | none => exact standsPure _
  | some file =>
    refine standsBind (withinReadText calm _) (fun text => ?_)
    refine standsBind (withinOfOption calmLasting (by simp [Aligned]) _) (fun project => ?_)
    exact standsRefusal (ofProjectAligned project)

theorem standsConfig (args : List String) : Stands (Config.read args) := by
  refine standsBind (withinRead calmLasting) (fun tools => ?_)
  refine standsBind (standsOptions _ _) (fun first => standsBind (standsLoad _) (fun preset => ?_))
  refine withinAside (fun rest => standsBind (standsFail (by simp [Aligned])) (fun _ => rest)) ?_
  refine standsBind (standsOptions _ _) (fun settings => ?_)
  refine standsBind (standsRefusal (swapInAligned _)) (fun effective => ?_)
  exact standsBind (standsRefusal (swapInAligned _)) (fun _ => standsPure _)

section
variable {R : Session → Session → Prop} {F : Failure → Prop} (tolerant : Tolerates R F)
include tolerant

theorem withinConsole (opened : ∀ s console, R s { s with console := console }) (name : String) (level : Value) :
    Within R F (Program.openConsole name level) := by
  have kind : Foreign .wrongKind := by simp [Foreign]
  unfold Program.openConsole
  dsimp only
  split
  · exact withinModify (fun s => opened s _)
  · split
    · exact withinBind tolerant.lasting (withinModify (fun s => opened s _)) (fun _ => withinRefusal tolerant kind)
    · exact withinRefusal tolerant (by simp [Foreign])
  · exact withinRefusal tolerant kind

theorem withinCommands (v : Value) : Within R F (commandsOf v) := by
  unfold commandsOf
  split
  · exact withinPure tolerant.lasting _
  · exact withinPure tolerant.lasting _
  · exact withinPure tolerant.lasting _
  · exact withinRefusal tolerant (by simp [Foreign])

theorem withinPaths (v : Value) : Within R F (Program.pathsOf v) := by
  refine withinBind tolerant.lasting (withinCommands tolerant v) (fun items => ?_)
  refine withinBind tolerant.lasting (withinMapM tolerant.lasting items (fun item => ?_)) (fun _ => withinPure tolerant.lasting _)
  split
  · exact withinPure tolerant.lasting _
  · exact withinRefusal tolerant (by simp [Foreign])

theorem withinRange (text : String) : Within R F (RevisionRange.parse text) := by
  unfold RevisionRange.parse
  split
  · refine withinBind tolerant.lasting (withinRead tolerant.lasting) (fun tools => ?_)
    dsimp only
    split
    · exact withinPure tolerant.lasting _
    · exact withinBind tolerant.lasting (withinNote tolerant _ _ _) (fun _ => withinRefusal tolerant (by simp [Foreign]))
  · exact withinPure tolerant.lasting _

end

theorem standsConsole (name : String) (level : Value) : Stands (Program.openConsole name level) :=
  withinConsole calm (fun _ _ => ⟨rfl,rfl,rfl,rfl,fun _ => rfl,rfl,rfl⟩) name level

theorem standsPrintConfig (r : Config.Reading) : Stands (Program.printConfig r) := by
  have dumped (settings : Settings) : Stands (liftM (Config.dump settings) : Run String) :=
    standsRefusal (refusesBind (writeAligned settings) (fun _ => refusesOk _))
  refine standsBind (standsPrint _) (fun _ => standsBind (dumped _) (fun _ => ?_))
  refine standsBind (standsPrint _) (fun _ => standsBind (standsPrint _) (fun _ => standsBind (dumped _) (fun _ => ?_)))
  exact standsBind (standsPrint _) (fun _ => standsPrint _)

theorem standsEditedInTarget (root : Path) (range : RevisionRange) (path : Path) (context : Int) :
    Stands (editedInTarget root range path context) := by
  have compared (key : ComparisonKey) : Stands (editedInTarget.compare root range path context key) := by
    refine standsBind (withinContentAt calm _ _ _) (fun content => ?_)
    refine standsBind (withinEditedSince calm _ _ _ _ _) (fun lines => ?_)
    exact standsBind (withinModify (fun _ => ⟨rfl,rfl,rfl,rfl,fun _ => rfl,rfl,rfl⟩)) (fun _ => standsPure _)
  refine standsBind (withinGet calmLasting) (fun s => ?_)
  split
  · split
    · exact standsPure _
    · exact compared _
  · exact compared _

theorem standsRelay (root : Path) (range : RevisionRange) (line : String) : Stands (Linting.relay root range line) := by
  have parsed : Stands (Linting.parseLine line root) := by
    unfold Linting.parseLine
    split
    · exact standsBind (withinDebug calm _ _) (fun _ => standsPure _)
    · refine standsBind (withinGet calmLasting) (fun s => ?_)
      exact standsBind (withinOfOption calmLasting (by simp [Aligned]) _) (fun _ => standsPure _)
  refine standsBind parsed (fun place => ?_)
  split
  · exact standsPure _
  · refine standsBind (standsEditedInTarget _ _ _ _) (fun edited => ?_)
    split
    · exact standsPrint _
    · exact standsPure _

theorem standsLinter (command : Value) (root : Path) (files : List Path) (range : RevisionRange) :
    Stands (Linting.run command root files range) := by
  unfold Linting.run
  split
  · exact standsPure _
  refine withinAside (fun rest => standsBind (standsFail (by simp [Aligned])) (fun _ => rest)) ?_
  split
  · refine standsBind (withinModify (fun _ => ⟨rfl,rfl,rfl,rfl,fun _ => rfl,by simp [calls,IsCall],by simp [verdicts]⟩)) (fun _ => ?_)
    refine withinGetSet calmLasting (fun _ => ⟨rfl,rfl,rfl,rfl,fun _ => rfl,rfl,rfl⟩) (fun s => ?_)
    refine standsBind (withinRead calmLasting) (fun tools => ?_)
    dsimp only
    refine standsBind (withinForM calmLasting _ (fun line _ => standsRelay root range line)) (fun _ => ?_)
    split
    · exact standsFail (by simp [Aligned])
    · exact standsPure _
  · exact standsFail (by simp [Aligned])

theorem standsLinters (linters : Value) (root : Path) (files : List Path) (range : RevisionRange) (a : α) :
    Stands (do
      (← commandsOf linters).forM (fun command => Linting.run command root files range)
      return a) := by
  refine standsBind (withinCommands calm linters) (fun commands => ?_)
  exact standsBind (withinForM calmLasting commands (fun command _ => standsLinter command root files range))
    (fun _ => standsPure a)

theorem standsPrepare (name : String) (args : List String) : Stands (Program.prepare name args) := by
  refine standsBind (standsConfig args) (fun reading => standsBind (standsConsole _ _) (fun _ => ?_))
  refine withinAside (fun rest => standsBind (standsPrintConfig _) (fun _ => rest)) ?_
  refine standsBind (withinRead calmLasting) (fun tools => ?_)
  refine withinAside (fun rest => standsBind (withinNote calm _ _ _) (fun _ =>
    standsBind (standsFail (by simp [Aligned])) (fun _ => rest))) ?_
  refine standsBind (withinPaths calm _) (fun paths => ?_)
  dsimp only
  split
  · exact standsBind (withinRange calm _) (fun _ => standsPure _)
  · exact standsBind (standsFail (by simp [Aligned])) (fun _ => standsPure _)

theorem writeTextCases {p : Path} {text : String} {tools : Tools} {s s' : Session} {r : Except Failure Unit}
    (run : exec (Run.writeText p text) tools s = (r,s')) :
    s'.cwd = s.cwd ∧ ((r = .ok ⟨⟩ ∧ s.tree.write s.cwd p text.toUTF8 0 = .ok s'.tree) ∨
      (∃ f, r = .error f) ∧ (∃ fault, s.tree.write s.cwd p text.toUTF8 0 = .error fault) ∧ s'.tree = s.tree) := by
  rw [Run.writeText,execBindOk (execGet tools s)] at run
  cases wrote : s.tree.write s.cwd p text.toUTF8 0 with
  | ok tree =>
    rw [wrote] at run
    cases run
    exact ⟨rfl,.inl ⟨rfl,rfl⟩⟩
  | error fault =>
    rw [wrote] at run
    cases run
    exact ⟨rfl,.inr ⟨⟨_,rfl⟩,⟨fault,rfl⟩,rfl⟩⟩

theorem sinkWrites {g : Bool} {file : Path} {old new : Document} {tools : Tools} {s s' : Session}
    {r : Except Failure Bool} (run : exec (Program.sink false false g file old new) tools s = (r,s')) :
    s'.cwd = s.cwd ∧ ((∃ g', r = .ok g') ∧ s.tree.write s.cwd file new.text.toUTF8 0 = .ok s'.tree ∨
      (∃ f, r = .error f) ∧ (∃ fault, s.tree.write s.cwd file new.text.toUTF8 0 = .error fault) ∧
        s'.tree = s.tree) := by
  change exec (Program.modifyFile file new >>= fun _ => pure true) tools s = (r,s') at run
  rw [Program.modifyFile,bind_assoc] at run
  obtain ⟨t,noted,still⟩ : ∃ t, exec (Run.note .info .program
      s!"Writing {new.text.length} bytes into {file.render}") tools s = (.ok ⟨⟩,t) ∧ Still s t :=
    ⟨_,rfl,⟨rfl,rfl⟩⟩
  rw [execBindOk noted] at run
  rw [← still.tree,← still.cwd]
  rcases execBindCases run with ⟨e,failed,rfl⟩ | ⟨_,u,wrote,last⟩
  · obtain ⟨cwd,⟨impossible,_⟩ | ⟨_,fault,tree⟩⟩ := writeTextCases failed
    · cases impossible
    · exact ⟨cwd,.inr ⟨⟨e,rfl⟩,fault,tree⟩⟩
  · cases last
    obtain ⟨cwd,⟨_,tree⟩ | ⟨⟨_,impossible⟩,_⟩⟩ := writeTextCases wrote
    · exact ⟨cwd,.inl ⟨⟨_,rfl⟩,tree⟩⟩
    · cases impossible

structure Kept (s s' : Session) : Prop where
  cwd : s'.cwd = s.cwd
  verified : s'.verified = s.verified
  formatterConfig : s'.formatterConfig = s.formatterConfig
  projectRoots : s'.projectRoots = s.projectRoots
  out : s'.out = s.out
  events : s'.events = s.events

theorem Kept.calls {s s' : Session} (kept : Kept s s') : calls s' = calls s := by
  rw [Stillness.calls,Stillness.calls,kept.events]

theorem keptAdds {s s' : Session} (kept : Kept s s') : Adds s s' :=
  addsNothing (by rw [verdicts,kept.events,verdicts]) kept.verified

theorem keptLasting : Lasting Kept where
  refl _ := ⟨rfl,rfl,rfl,rfl,rfl,rfl⟩
  trans h h' := ⟨h'.cwd.trans h.cwd,h'.verified.trans h.verified,h'.formatterConfig.trans h.formatterConfig,
    h'.projectRoots.trans h.projectRoots,h'.out.trans h.out,h'.events.trans h.events⟩

theorem keptSink (g : Bool) (file : Path) (old new : Document) :
    Within Kept (fun _ => True) (Program.sink false false g file old new) := by
  have noted : Within Kept (fun _ => True) (Run.note .info .program
      s!"Writing {new.text.length} bytes into {file.render}") := withinModify (fun _ => ⟨rfl,rfl,rfl,rfl,rfl,rfl⟩)
  have written : Within Kept (fun _ => True) (Run.writeText file new.text) := by
    intro tools s
    rw [Run.writeText,execBindOk (execGet tools s)]
    cases s.tree.write s.cwd file new.text.toUTF8 0 with
    | ok tree => exact ⟨⟨rfl,rfl,rfl,rfl,rfl,rfl⟩,fun _ _ => trivial⟩
    | error fault => exact ⟨keptLasting.refl s,fun _ _ => trivial⟩
  exact withinBind keptLasting (withinBind keptLasting noted (fun _ => written)) (fun _ => withinPure keptLasting true)

end Retouch.Stillness
