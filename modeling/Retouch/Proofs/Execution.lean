import Retouch.Session

/-! Runs as functions from sessions to outcomes. What a run can do to the session and how it can fail
is said by one relation and one predicate for all steps, so a run built from such steps inherits both
without being opened. -/
namespace Retouch.Execution

def exec (m : Run α) (tools : Tools) (s : Session) : Except Failure α × Session := (m tools).run s

@[simp] theorem execPure (a : α) (tools : Tools) (s : Session) : exec (pure a) tools s = (.ok a,s) := rfl

@[simp] theorem execGet (tools : Tools) (s : Session) : exec get tools s = (.ok s,s) := rfl

@[simp] theorem execSet (t : Session) (tools : Tools) (s : Session) : exec (set t) tools s = (.ok ⟨⟩,t) := rfl

@[simp] theorem execModify (f : Session → Session) (tools : Tools) (s : Session) :
    exec (modify f) tools s = (.ok ⟨⟩,f s) := rfl

@[simp] theorem execRead (tools : Tools) (s : Session) : exec (read : Run Tools) tools s = (.ok tools,s) := rfl

@[simp] theorem execFail (f : Failure) (tools : Tools) (s : Session) :
    exec (Run.fail f : Run α) tools s = (.error f,s) := rfl

theorem execBind (m : Run α) (f : α → Run β) (tools : Tools) (s : Session) :
    exec (m >>= f) tools s = match exec m tools s with
      | (.ok a,t) => exec (f a) tools t
      | (.error e,t) => (.error e,t) := by
  simp only [exec,bind,ReaderT.bind,ExceptT.bind,ExceptT.run,ExceptT.mk,StateT.bind]
  rcases m tools s with ⟨_ | _,_⟩ <;> rfl

theorem execBindOk {m : Run α} {f : α → Run β} {tools : Tools} {s t : Session} {a : α}
    (first : exec m tools s = (.ok a,t)) : exec (m >>= f) tools s = exec (f a) tools t := by
  rw [execBind,first]

theorem execBindError {m : Run α} {f : α → Run β} {tools : Tools} {s t : Session} {e : Failure}
    (first : exec m tools s = (.error e,t)) : exec (m >>= f) tools s = (.error e,t) := by
  rw [execBind,first]

theorem execBindCases {m : Run α} {f : α → Run β} {tools : Tools} {s s' : Session} {r : Except Failure β}
    (h : exec (m >>= f) tools s = (r,s')) :
    (∃ e, exec m tools s = (.error e,s') ∧ r = .error e) ∨
      ∃ a t, exec m tools s = (.ok a,t) ∧ exec (f a) tools t = (r,s') := by
  rw [execBind] at h
  rcases first : exec m tools s with ⟨e | a,t⟩
  · rw [first] at h
    cases h
    exact .inl ⟨e,rfl,rfl⟩
  · rw [first] at h
    exact .inr ⟨a,t,rfl,h⟩

structure Lasting (R : Session → Session → Prop) : Prop where
  refl : ∀ s, R s s
  trans : ∀ {s t u}, R s t → R t u → R s u

def Within (R : Session → Session → Prop) (F : Failure → Prop) (m : Run α) : Prop :=
  ∀ tools s, R s (exec m tools s).2 ∧ ∀ f, (exec m tools s).1 = .error f → F f

section
variable {R : Session → Session → Prop} {F : Failure → Prop} (lasting : Lasting R)
include lasting

theorem withinPure (a : α) : Within R F (pure a) :=
  fun _ s => ⟨lasting.refl s,fun _ h => by cases h⟩

theorem withinGet : Within R F (get : Run Session) :=
  fun _ s => ⟨lasting.refl s,fun _ h => by cases h⟩

theorem withinRead : Within R F (read : Run Tools) :=
  fun _ s => ⟨lasting.refl s,fun _ h => by cases h⟩

theorem withinFail {f : Failure} (allowed : F f) : Within R F (Run.fail f : Run α) :=
  fun _ s => ⟨lasting.refl s,fun _ h => by cases h; exact allowed⟩

theorem withinBind {m : Run α} {g : α → Run β} (first : Within R F m) (next : ∀ a, Within R F (g a)) :
    Within R F (m >>= g) := by
  intro tools s
  obtain ⟨kept,failed⟩ := first tools s
  rcases h : exec m tools s with ⟨e | a,t⟩
  · rw [execBindError h]
    rw [h] at kept failed
    exact ⟨kept,fun f hf => by cases hf; exact failed e rfl⟩
  · rw [execBindOk h]
    rw [h] at kept
    obtain ⟨kept',failed'⟩ := next a tools t
    exact ⟨lasting.trans kept kept',failed'⟩

theorem withinOfOption {f : Failure} (allowed : F f) (o : Option α) : Within R F (Run.ofOption f o) := by
  cases o with
  | none => exact withinFail lasting allowed
  | some a => exact withinPure lasting a

theorem withinForM {g : α → Run PUnit} (xs : List α) (each : ∀ x ∈ xs, Within R F (g x)) :
    Within R F (xs.forM g) := by
  induction xs with
  | nil => exact withinPure lasting _
  | cons x xs ih =>
    exact withinBind lasting (each x (by simp)) (fun _ => ih (fun y member => each y (by simp [member])))

theorem withinFoldlM {g : β → α → Run β} (xs : List α) (b : β) (each : ∀ b, ∀ x ∈ xs, Within R F (g b x)) :
    Within R F (xs.foldlM g b) := by
  induction xs generalizing b with
  | nil => exact withinPure lasting _
  | cons x xs ih =>
    rw [List.foldlM_cons]
    exact withinBind lasting (each b x (by simp)) (fun c => ih c (fun b y member => each b y (by simp [member])))

theorem withinMapM {g : α → Run β} (xs : List α) (each : ∀ x, Within R F (g x)) :
    Within R F (xs.mapM g) := by
  induction xs with
  | nil => exact withinPure lasting _
  | cons x xs ih =>
    rw [List.mapM_cons]
    exact withinBind lasting (each x) (fun _ => withinBind lasting ih (fun _ => withinPure lasting _))

theorem withinFilterM {g : α → Run Bool} (xs : List α) (each : ∀ x, Within R F (g x)) :
    Within R F (xs.filterM g) := by
  have loop (kept : List α) : Within R F (xs.filterAuxM g kept) := by
    induction xs generalizing kept with
    | nil => exact withinPure lasting _
    | cons x xs ih => exact withinBind lasting (each x) (fun _ => ih _)
  exact withinBind lasting (loop []) (fun _ => withinPure lasting _)

theorem withinGetSet {g : Session → Session} {h : Session → Run α} (kept : ∀ s, R s (g s))
    (next : ∀ s, Within R F (h s)) : Within R F (get >>= fun s => set (g s) >>= fun _ => h s) := by
  intro tools s
  rw [execBindOk (execGet tools s),execBindOk (execSet (g s) tools s)]
  obtain ⟨kept',failed⟩ := next s tools (g s)
  exact ⟨lasting.trans (kept s) kept',failed⟩

end

theorem withinModify {R : Session → Session → Prop} {F : Failure → Prop} {g : Session → Session}
    (kept : ∀ s, R s (g s)) : Within R F (modify g : Run PUnit) :=
  fun _ s => ⟨kept s,fun _ h => by cases h⟩

theorem withinGetBind {R : Session → Session → Prop} {F : Failure → Prop} {g : Session → Run α}
    (next : ∀ tools s, R s (exec (g s) tools s).2 ∧ ∀ f, (exec (g s) tools s).1 = .error f → F f) :
    Within R F (get >>= g) := by
  intro tools s
  rw [execBindOk (execGet tools s)]
  exact next tools s

theorem withinAside {R : Session → Session → Prop} {F : Failure → Prop} {c : Prop} [Decidable c] {m n : Run α}
    (aside : Within R F n → Within R F m) (rest : Within R F n) : Within R F (if c then m else n) := by
  split
  · exact aside rest
  · exact rest

theorem withinMono {R R' : Session → Session → Prop} {F F' : Failure → Prop} {m : Run α}
    (wider : ∀ {s t}, R s t → R' s t) (weaker : ∀ {f}, F f → F' f) (h : Within R F m) : Within R' F' m :=
  fun tools s => ⟨wider (h tools s).1,fun f hf => weaker ((h tools s).2 f hf)⟩

theorem withinEnds {R : Session → Session → Prop} {F : Failure → Prop} {m : Run α} {tools s r t}
    (h : Within R F m) (run : exec m tools s = (r,t)) : R s t := by
  have kept := (h tools s).1
  rwa [run] at kept

theorem withinError {R : Session → Session → Prop} {F : Failure → Prop} {m : Run α} {tools s f t}
    (h : Within R F m) (run : exec m tools s = (.error f,t)) : R s t ∧ F f := by
  have both := h tools s
  rw [run] at both
  exact ⟨both.1,both.2 f rfl⟩

def Ensures (tools : Tools) (P : Session → Prop) (Q : α → Session → Prop) (E : Session → Prop) (m : Run α) : Prop :=
  ∀ s, P s → ∀ r t, exec m tools s = (r,t) → (∀ x, r = .ok x → Q x t) ∧ ∀ f, r = .error f → E t

theorem ensuresBind {tools : Tools} {P : Session → Prop} {Q : α → Session → Prop} {Q' : β → Session → Prop}
    {E : Session → Prop} {m : Run α} {g : α → Run β} (first : Ensures tools P Q E m)
    (next : ∀ x, Ensures tools (Q x) Q' E (g x)) : Ensures tools P Q' E (m >>= g) := by
  intro s before r t run
  rcases execBindCases run with ⟨f,failed,rfl⟩ | ⟨x,u,done,rest⟩
  · exact ⟨by simp,fun _ _ => (first s before _ t failed).2 f rfl⟩
  · exact next x u ((first s before _ u done).1 x rfl) r t rest

theorem ensuresPure {tools : Tools} {P : Session → Prop} {Q : α → Session → Prop} {E : Session → Prop} {x : α}
    (post : ∀ s, P s → Q x s) : Ensures tools P Q E (pure x) := by
  intro s before r t run
  cases run
  refine ⟨?_,by simp⟩
  rintro _ ⟨⟩
  exact post s before

theorem ensuresFail {tools : Tools} {P : Session → Prop} {Q : α → Session → Prop} {E : Session → Prop} (f : Failure)
    (post : ∀ s, P s → E s) : Ensures tools P Q E (Run.fail f) := by
  intro s before r t run
  cases run
  exact ⟨by simp,fun _ _ => post s before⟩

theorem okBind {e : Except ε α} {g : α → Except ε β} {b : β} (run : e >>= g = .ok b) : ∃ a, e = .ok a ∧ g a = .ok b := by
  cases e with
  | error f => cases run
  | ok a => exact ⟨a,rfl,run⟩

theorem bindOk {e : Except ε α} {g : α → Except ε β} {a : α} (first : e = .ok a) : e >>= g = g a := by
  rw [first]
  rfl

inductive Matched (P : α → β → Prop) : Except Failure α → Except Failure β → Prop where
  | ok {x y} (related : P x y) : Matched P (.ok x) (.ok y)
  | error (f : Failure) : Matched P (.error f) (.error f)

theorem matchedSame {r r' : Except Failure α} (same : r = r') : Matched Eq r r' := by
  subst same
  cases r with
  | ok x => exact .ok rfl
  | error f => exact .error f

theorem matchedEq {r r' : Except Failure α} (h : Matched Eq r r') : r = r' := by
  cases h with
  | ok same => rw [same]
  | error f => rfl

theorem matchedBind {P : α → β → Prop} {Q : γ → δ → Prop} {e : Except Failure α} {e' : Except Failure β}
    {g : α → Except Failure γ} {g' : β → Except Failure δ} (first : Matched P e e')
    (next : ∀ x y, P x y → Matched Q (g x) (g' y)) : Matched Q (e >>= g) (e' >>= g') := by
  cases first with
  | ok related => exact next _ _ related
  | error f => exact .error f

theorem matchedThrough {P : α → γ → Prop} {Q : β → γ → Prop} {e : Except Failure α} {e' : Except Failure β}
    {e'' : Except Failure γ} (left : Matched P e e'') (right : Matched Q e' e'') : Matched (fun _ _ => True) e e' := by
  cases left with
  | ok _ =>
    cases right with
    | ok _ => exact .ok trivial
  | error f =>
    cases right with
    | error _ => exact .error f

theorem execOk {m : Run α} {tools : Tools} {s : Session} {a : α} (h : (exec m tools s).1.toOption = some a) :
    exec m tools s = (.ok a,(exec m tools s).2) := by
  rcases run : exec m tools s with ⟨f | b,t⟩
  · rw [run] at h
    cases h
  · rw [run] at h
    cases Option.some.inj h
    rfl

theorem execOkPart {m : Run α} {g : α → β} {tools : Tools} {s : Session} {b : β}
    (h : (exec m tools s).1.toOption.map g = some b) : ∃ a, exec m tools s = (.ok a,(exec m tools s).2) ∧ g a = b := by
  obtain ⟨a,found,part⟩ := Option.map_eq_some_iff.mp h
  exact ⟨a,execOk found,part⟩

end Retouch.Execution
