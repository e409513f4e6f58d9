import Retouch.Proofs.Stillness

/-! Edit scripts as tilings of both texts, told by position in the script. The check that unchanged and
changed steps take turns never refuses a script of the program, so no run ends with that complaint. -/
namespace Retouch.Tiling
open Execution Inquiry Candidates Refusals Stillness

structure Tiles (old new : List String) (edits : List Edit) : Prop where
  first : ∀ e, edits[0]? = some e → e.oldStart = 0 ∧ e.newStart = 0
  next : ∀ k e f, edits[k]? = some e → edits[k+1]? = some f → f.oldStart = e.oldStop ∧ f.newStart = e.newStop
  last : ∀ e, edits.getLast? = some e → e.oldStop = old.length ∧ e.newStop = new.length
  empty : edits = [] → old = [] ∧ new = []
  shaped : ∀ e ∈ edits, Script.Shaped old new e
  turns : ∀ k e f, edits[k]? = some e → edits[k+1]? = some f → (e.kind = .equal ↔ f.kind ≠ .equal)

theorem leadsFirst {old new i j edits} (h : Script.Leads old new i j edits) {e : Edit} (first : edits[0]? = some e) :
    e.oldStart = i ∧ e.newStart = j := by
  cases h with
  | done => simp at first
  | step shaped tail =>
    cases Option.some.inj first
    exact ⟨rfl,rfl⟩

theorem leadsNext {old new i j edits} (h : Script.Leads old new i j edits) {k : Nat} {e f : Edit}
    (here : edits[k]? = some e) (there : edits[k+1]? = some f) : f.oldStart = e.oldStop ∧ f.newStart = e.newStop := by
  induction h generalizing k with
  | done => simp at here
  | step shaped tail ih =>
    cases k with
    | zero =>
      cases Option.some.inj here
      exact leadsFirst tail (by simpa using there)
    | succ k => exact ih (by simpa using here) (by simpa using there)

theorem leadsShaped {old new i j edits} (h : Script.Leads old new i j edits) :
    ∀ e ∈ edits, Script.Shaped old new e := by
  induction h with
  | done => simp
  | step shaped tail ih => simpa using ⟨shaped,ih⟩

theorem alternatingTurns {edits : List Edit} (h : Edit.alternating edits = true) {k : Nat} {e f : Edit}
    (here : edits[k]? = some e) (there : edits[k+1]? = some f) : e.kind = .equal ↔ f.kind ≠ .equal := by
  induction edits generalizing k with
  | nil => simp at here
  | cons first rest ih =>
    cases rest with
    | nil => simp at there
    | cons second rest =>
      simp only [Edit.alternating,Bool.and_eq_true,bne_iff_ne,ne_eq] at h
      cases k with
      | zero =>
        cases Option.some.inj here
        cases Option.some.inj there
        refine ⟨fun equal other => h.1 (by simp [Edit.isEqual,equal,other]),fun changed => ?_⟩
        by_cases equal : e.kind = .equal
        · exact equal
        · exact absurd (by rw [Edit.isEqual,Edit.isEqual,beq_eq_false_iff_ne.mpr equal,beq_eq_false_iff_ne.mpr changed]) h.1
      | succ k => exact ih h.2 (by simpa using here) (by simpa using there)

theorem leadsEmpty {old new i j} (h : Script.Leads old new i j []) : i = old.length ∧ j = new.length := by
  cases h
  exact ⟨rfl,rfl⟩

theorem leadsTiles {old new : List String} {edits : List Edit} (h : Script.Leads old new 0 0 edits)
    (alternating : Edit.alternating edits = true) : Tiles old new edits where
  first _ first := leadsFirst h first
  next _ _ _ here there := leadsNext h here there
  last _ last := EditedLines.spansLast (EditedLines.leadsSpans h) last
  empty none := by
    subst none
    obtain ⟨oldEnd,newEnd⟩ := leadsEmpty h
    exact ⟨List.eq_nil_of_length_eq_zero oldEnd.symm,List.eq_nil_of_length_eq_zero newEnd.symm⟩
  shaped := leadsShaped h
  turns _ _ _ here there := alternatingTurns alternating here there

abbrev Sound (m : Run α) : Prop := Within (fun _ _ => True) Aligned m

theorem anyLasting : Lasting (fun _ _ => True) := ⟨fun _ => trivial,fun _ _ => trivial⟩

theorem soundBind {m : Run α} {g : α → Run β} (first : Sound m) (next : ∀ a, Sound (g a)) : Sound (m >>= g) :=
  withinBind anyLasting first next

theorem soundPure (a : α) : Sound (pure a) := withinPure anyLasting a

theorem soundStands {m : Run α} (h : Stands m) : Sound m := withinMono (fun _ => trivial) id h

theorem failureAligned {tools root range sorted options path s v s' f}
    (h : Course.Searched tools root range sorted options path s v s')
    (failure : v.failure = some f) : Aligned f := by
  unfold Course.Visit.failure at failure
  split at failure
  · cases failure
    simp [Aligned]
  · rename_i ending
    cases failure
    exact foreignAligned (blockedForeign (h.concluded.failed _ ending))
  · cases failure

section
variable {σ : Type} {sink : Sink σ} (sunk : ∀ g file old new, Sound (sink g file old new))
include sunk

theorem soundFile (root : Path) (range : RevisionRange) (sorted : Bool) (progress : Progress σ) (path : Path) :
    Sound (reformatFile root range sorted sink progress path) := by
  intro tools s
  refine ⟨trivial,fun f failed => ?_⟩
  rcases Course.reformatFileCases root range sorted sink progress path tools s with
    ⟨e,t,run,opening⟩ | ⟨v,t,visit,⟨e,failure,run⟩ | ⟨_,_,run⟩ | ⟨file,old,new,_,_,run⟩⟩
  · rw [run] at failed
    cases failed
    exact foreignAligned (withinError (Course.asksOpenJob _ _ _ _ _) opening).2
  · rw [run] at failed
    cases failed
    exact failureAligned visit failure
  · rw [run] at failed
    cases failed
  · rw [run] at failed
    exact (soundBind (sunk _ _ _ _) (fun _ => soundPure _) tools t).2 f failed

theorem soundReformatting (sources : List Path) (range : RevisionRange) (sorted : Bool) (linters : Value)
    (options : Settings) (start : σ) : Sound (reformatEdited sources range sorted linters options sink start) := by
  rw [Course.reformatEditedListed]
  refine soundBind (soundStands (Listing.withinListing calm _ _)) (fun (root,files) => ?_)
  refine soundBind (withinFoldlM anyLasting files _ (fun progress path _ => soundFile sunk root range sorted progress path))
    (fun progress => soundStands (standsLinters linters root files range progress))

end

theorem soundSink (diff check : Bool) (g : Bool) (file : Path) (old new : Document) :
    Sound (Program.sink diff check g file old new) := by
  have shown : Sound (Program.printDiff file old new) := by
    refine soundBind (withinGet anyLasting) (fun s => ?_)
    refine soundBind (withinOfOption anyLasting (by simp [Aligned]) _) (fun relative => ?_)
    exact soundBind (withinRead anyLasting) (fun tools => withinModify (fun _ => trivial))
  have written : Sound (Program.modifyFile file new) := by
    refine soundBind (withinModify (fun _ => trivial)) (fun _ => soundBind (withinGet anyLasting) (fun s => ?_))
    split
    · exact fun _ _ => ⟨trivial,by simp⟩
    · exact withinFail anyLasting (by simp [Aligned])
  refine withinAside (fun rest => soundBind shown (fun _ => rest)) ?_
  exact withinAside (fun rest => soundBind written (fun _ => rest)) (soundPure _)

theorem soundProgram (name : String) (args : List String) : Sound (Program.run name args) :=
  soundBind (soundStands (standsPrepare name args)) (fun _ =>
    soundBind (soundReformatting (soundSink _ _) _ _ _ _ _ _) (fun _ => soundPure _))

theorem diffTilesDocuments (src dst : Document) :
    Tiles src.lines dst.lines (diffLines src.lines dst.lines) ∧
    Edit.alternating (diffLines src.lines dst.lines) = true ∧
    (∀ context, ∃ lines, editedLines? (diffLines src.lines dst.lines) context = some lines) ∧
    (∀ name args tools s edits, (exec (Program.run name args) tools s).1 ≠ .error (.unalternating edits)) ∧
    ∃ chunks, Chunk.ofEdits? src.lines dst.lines (diffLines src.lines dst.lines) = some chunks ∧
      chunks.flatMap Chunk.before = src.lines ∧ chunks.flatMap Chunk.after = dst.lines ∧
      ∀ n (c : Chunk), chunks[n]? = some c → c.start = 1 + ((chunks.take n).flatMap Chunk.before).length := by
  have leads := Script.diffLeads src.lines dst.lines
  have alternating := Script.diffAlternating src.lines dst.lines
  refine ⟨leadsTiles leads alternating,alternating,fun context => ⟨_,editedLinesOfDiff _ _ _⟩,?_,_,chunksOfDiff _ _,?_,?_,?_⟩
  · intro name args tools s edits failed
    exact (soundProgram name args tools s).2 _ failed edits rfl
  · simpa using Script.chunksBefore leads
  · simpa using Script.chunksAfter leads
  · intro n c found
    simpa using Script.chunkStart leads found

end Retouch.Tiling
