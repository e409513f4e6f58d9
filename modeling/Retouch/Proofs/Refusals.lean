import Retouch.Config

/-! Refusals of the pure readers and writers. A predicate on refusals is carried through every step of a
computation that can fail, so it is stated once for each reader: none of them speaks of an edit script. -/
namespace Retouch.Refusals

def Refuses (F : ε → Prop) (e : Except ε α) : Prop := ∀ x, e = .error x → F x

section
variable {ε : Type} {F : ε → Prop}

theorem refusesOk (a : α) : Refuses F (.ok a) := fun _ h => by cases h

theorem refusesError {x : ε} (allowed : F x) : Refuses F (.error x : Except ε α) := fun _ h => by
  cases h
  exact allowed

theorem refusesBind {e : Except ε α} {g : α → Except ε β} (first : Refuses F e) (next : ∀ a, Refuses F (g a)) :
    Refuses F (e >>= g) := by
  cases e with
  | error x => exact refusesError (first x rfl)
  | ok a => exact next a

theorem refusesMap {e : Except ε α} (g : α → β) (first : Refuses F e) : Refuses F (e.map g) := by
  cases e with
  | error x => exact refusesError (first x rfl)
  | ok a => exact refusesOk _

theorem refusesMapM {g : α → Except ε β} (xs : List α) (each : ∀ x, Refuses F (g x)) : Refuses F (xs.mapM g) := by
  induction xs with
  | nil => exact refusesOk _
  | cons x xs ih =>
    rw [List.mapM_cons]
    exact refusesBind (each x) (fun _ => refusesBind ih (fun _ => refusesOk _))

theorem refusesFoldlM {g : β → α → Except ε β} (xs : List α) (b : β) (each : ∀ b x, Refuses F (g b x)) :
    Refuses F (xs.foldlM g b) := by
  induction xs generalizing b with
  | nil => exact refusesOk _
  | cons x xs ih =>
    rw [List.foldlM_cons]
    exact refusesBind (each b x) (fun c => ih c)

end

def Aligned (f : Failure) : Prop := ∀ edits, f ≠ .unalternating edits

def StopAligned : Options.Stop → Prop
  | .failure f => Aligned f
  | _ => True

theorem joinEscapesAligned (first : String) (pieces : List String) :
    Refuses Aligned (Toml.joinEscapes first pieces) := by
  fun_induction Toml.joinEscapes first pieces with
  | case1 => exact refusesOk _
  | case2 => exact refusesError (by simp [Aligned])
  | case3 => exact refusesError (by simp [Aligned])
  | case4 => assumption
  | case5 => assumption

theorem quoteBodyAligned (shown : String) : Refuses Aligned (Toml.quoteBody shown) := by
  unfold Toml.quoteBody
  dsimp only
  split
  · exact refusesOk _
  · exact refusesBind (joinEscapesAligned _ _) (fun _ => refusesOk _)

theorem quoteAligned (s : String) : Refuses Aligned (Toml.quote s) := quoteBodyAligned _

mutual

theorem writeValueAligned (v : Value) : Refuses Aligned (Toml.writeValue v) := by
  cases v with
  | none => rw [Toml.writeValue]; exact quoteBodyAligned _
  | bool b => rw [Toml.writeValue]; exact refusesOk _
  | int n => rw [Toml.writeValue]; exact refusesOk _
  | float x => rw [Toml.writeValue]; exact refusesOk _
  | text s => rw [Toml.writeValue]; exact quoteAligned s
  | list items => rw [Toml.writeValue]; exact refusesMap _ (writeAllAligned items)
  | table entries => rw [Toml.writeValue]; exact refusesMap _ (refusesMapM _ (fun _ => quoteAligned _))

theorem writeAllAligned (items : List Value) : Refuses Aligned (Toml.writeAll items) := by
  cases items with
  | nil => rw [Toml.writeAll]; exact refusesOk _
  | cons v rest =>
    rw [Toml.writeAll]
    exact refusesBind (writeValueAligned v) (fun _ => refusesBind (writeAllAligned rest) (fun _ => refusesOk _))

end

theorem writeKeyAligned (key : String) : Refuses Aligned (Toml.writeKey key) := by
  unfold Toml.writeKey
  split
  · exact refusesOk _
  · exact quoteAligned _

theorem entriesOfAligned (v : Value) : Refuses Aligned (Toml.entriesOf v) := by
  unfold Toml.entriesOf
  split
  · exact refusesOk _
  · exact refusesOk _
  · exact refusesOk _
  · exact refusesError (by simp [Aligned])

theorem partsAligned (fuel : Nat) :
    (∀ base entries, Refuses Aligned (Toml.writePart fuel base entries)) ∧
    (∀ name v, Refuses Aligned (Toml.writeItem fuel name v)) ∧
    ∀ name sections, Refuses Aligned (Toml.writeNested fuel name sections) := by
  induction fuel with
  | zero =>
    refine ⟨fun base entries => ?_,fun name v => ?_,fun name sections => ?_⟩
    · rw [Toml.writePart]; exact refusesOk _
    · rw [Toml.writeItem]; exact refusesOk _
    · rw [Toml.writeNested]; exact refusesOk _
  | succ fuel ih =>
    obtain ⟨part,item,nested⟩ := ih
    refine ⟨fun base entries => ?_,fun name v => ?_,fun name sections => ?_⟩
    · rw [Toml.writePart]
      refine refusesFoldlM _ _ (fun p entry => ?_)
      refine refusesBind (writeKeyAligned _) (fun name => ?_)
      split
      · exact refusesOk _
      · exact refusesOk _
      · split
        · exact refusesBind (refusesMapM _ (item _)) (fun _ => refusesOk _)
        · exact refusesBind (writeValueAligned _) (fun _ => refusesOk _)
      · exact refusesBind (writeValueAligned _) (fun _ => refusesOk _)
    · rw [Toml.writeItem]
      refine refusesBind (entriesOfAligned _) (fun entries => refusesBind (part _ _) (fun p => ?_))
      exact refusesBind (nested _ _) (fun _ => refusesOk _)
    · cases sections with
      | nil => rw [Toml.writeNested]; exact refusesOk _
      | cons first rest =>
        rw [Toml.writeNested]
        · refine refusesBind (refusesFoldlM _ _ (fun acc entry => ?_)) (fun pair => ?_)
          · exact refusesBind (entriesOfAligned _) (fun _ => refusesBind (part _ _) (fun _ => refusesOk _))
          · exact refusesBind (nested _ _) (fun _ => refusesOk _)
        · simp

theorem writeAligned (settings : Settings) : Refuses Aligned (Toml.write settings) := by
  have sectionsAligned (fuel : Nat) (text : String) (sections : Settings) :
      Refuses Aligned (Toml.writeSections fuel text sections) := by
    induction fuel generalizing text sections with
    | zero => exact refusesOk _
    | succ fuel ih =>
      cases sections with
      | nil => exact refusesOk _
      | cons first rest =>
        refine refusesBind (refusesFoldlM _ _ (fun acc entry => ?_)) (fun pair => ih _ _)
        exact refusesBind (entriesOfAligned _) (fun _ => refusesBind ((partsAligned fuel).1 _ _) (fun _ => refusesOk _))
  exact refusesBind ((partsAligned _).1 _ _) (fun _ => sectionsAligned _ _ _)

theorem swapInAligned (settings : Settings) : Refuses Aligned (Verbosity.swapIn settings) := by
  have swapped (v : Value) : Refuses Aligned (Verbosity.swapped v) := by
    unfold Verbosity.swapped
    split
    · exact refusesError (by simp [Aligned])
    · exact refusesError (by simp [Aligned])
    · exact refusesOk _
    · exact refusesOk _
  unfold Verbosity.swapIn
  split
  · exact refusesOk _
  · exact refusesMap _ (swapped _)

theorem ofProjectAligned (project : Settings) : Refuses Aligned (Config.ofProject project) := by
  have settingsOf (v : Value) : Refuses Aligned (Config.settingsOf v) := by
    unfold Config.settingsOf
    split
    · exact swapInAligned _
    · split <;> exact refusesError (by simp [Aligned])
    · split <;> exact refusesError (by simp [Aligned])
    · exact refusesError (by simp [Aligned])
  unfold Config.ofProject
  split
  · dsimp only
    split
    · exact settingsOf _
    · exact refusesOk _
  · exact refusesError (by simp [Aligned])

theorem integerAligned (o : Options.OptionSpec) (text : String) : Refuses StopAligned (Options.integer o text) := by
  unfold Options.integer
  split
  · exact refusesOk _
  · exact refusesError trivial

theorem actAligned (settings : Settings) (o : Options.OptionSpec) (argument : String) :
    Refuses StopAligned (Options.act settings o argument) := by
  have shiftAligned (n : Int) (v : Value) : Refuses Aligned (Verbosity.shift n v) := by
    unfold Verbosity.shift
    split
    · exact refusesOk _
    · exact refusesOk _
    · exact refusesOk _
    · exact refusesError (by simp [Aligned])
  unfold Options.act
  dsimp only
  split
  · exact refusesError (by simp [StopAligned,Aligned])
  · split
    · exact refusesError trivial
    · exact refusesError trivial
    · exact refusesOk _
    · exact refusesOk _
    · exact refusesMap _ (integerAligned _ _)
    · split
      · exact refusesOk _
      · exact refusesOk _
      · exact refusesError (by simp [StopAligned,Aligned])
    · split
      · exact refusesOk _
      · rename_i f failed
        exact refusesError (shiftAligned _ _ f failed)

theorem actsAligned (s : Options.State) (acts : List (Options.OptionSpec × String)) :
    Refuses StopAligned (s.acts acts) :=
  refusesFoldlM _ _ (fun _ _ => refusesBind (actAligned _ _ _) (fun _ => refusesOk _))

theorem tokensAligned (g : Options.Grammar) (args : List String) : Refuses StopAligned (Options.tokens g args) := by
  have tokenOf (arg : String) : Refuses StopAligned (Options.tokenOf g arg) := by
    unfold Options.tokenOf
    split
    · exact refusesOk _
    · split
      · exact refusesOk _
      · split
        · exact refusesOk _
        · split
          · exact refusesOk _
          · split
            · exact refusesOk _
            · exact refusesOk _
            · exact refusesError trivial
  induction args with
  | nil => exact refusesOk _
  | cons arg rest ih =>
    rw [Options.tokens]
    split
    · exact refusesOk _
    · exact refusesBind (tokenOf arg) (fun _ => refusesBind ih (fun _ => refusesOk _))

theorem clusterOfAligned (g : Options.Grammar) (o : Options.OptionSpec) (name : String) (attached : Option String) :
    Refuses StopAligned (Options.clusterOf g o name attached) := by
  have cluster (o : Options.OptionSpec) (cs : List Char) : Refuses StopAligned (Options.cluster g o cs) := by
    induction cs generalizing o with
    | nil => exact refusesOk _
    | cons c rest ih =>
      rw [Options.cluster]
      split
      · exact refusesOk _
      · split
        · exact refusesBind (ih _) (fun _ => refusesOk _)
        · exact refusesError trivial
  unfold Options.clusterOf
  split
  · exact cluster _ _
  · split
    · exact refusesOk _
    · split
      · exact refusesError trivial
      · exact cluster _ _

theorem readTokensAligned (g : Options.Grammar) (s : Options.State)
    (waiting : Option (List (Options.OptionSpec × String) × Options.OptionSpec)) (tokens : List Options.Token) :
    Refuses StopAligned (Options.readTokens g s waiting tokens) := by
  fun_induction Options.readTokens g s waiting tokens with
  | case1 s acts o text rest ih => exact refusesBind (actsAligned _ _) ih
  | case2 => exact refusesError trivial
  | case3 => exact refusesOk _
  | case4 => assumption
  | case5 => assumption
  | case6 => assumption
  | case7 s o name attached rest closed taken waits =>
    refine refusesBind (clusterOfAligned _ _ _ _) (fun c => ?_)
    split
    · exact refusesBind (actsAligned _ _) taken
    · exact waits _ _

theorem evaluateAligned (g : Options.Grammar) (args : List String) : Refuses StopAligned (Options.evaluate g args) := by
  have converted (s : Options.State) (settings : Settings) (o : Options.OptionSpec) :
      Refuses StopAligned (Options.convertPreset g s settings o) := by
    unfold Options.convertPreset
    split
    · split
      · exact refusesOk _
      · exact refusesMap _ (integerAligned _ _)
    · exact refusesOk _
  unfold Options.evaluate
  refine refusesBind (tokensAligned _ _) (fun tokens => refusesBind (readTokensAligned g _ _ tokens) (fun s => ?_))
  refine refusesBind (refusesFoldlM _ _ (converted s)) (fun settings => ?_)
  dsimp only
  split
  · exact refusesError trivial
  · split
    · exact refusesError trivial
    · exact refusesOk _

end Retouch.Refusals
