import Listing.Proofs.Outcome

namespace Listing

/-!
# Errors of runs

What holds of the errors of a run, whatever monad it runs in.

* `FailsWith` — a predicate holds of the error of an outcome, if that is one;
* `Refuses` — the error of an outcome lies in configuration or parameters;
* `Settles` — a run gives values of one predicate or fails with errors of another.
-/

section Outcomes

variable {ε ε' α β : Type} {E F : ε → Prop} {x : Except ε α}

/-- If the outcome is an error, the predicate holds of it. -/
def FailsWith (E : ε → Prop) (x : Except ε α) : Prop := ∀ e, x = .error e → E e

/-- A value is no error. -/
@[simp] theorem failsWith_ok (a : α) : FailsWith E (.ok a) := nofun

/-- Of an error, the predicate has to hold. -/
@[simp] theorem failsWith_error {e : ε} : FailsWith E (.error e : Except ε α) ↔ E e := by
  constructor
  · exact fun h => h e rfl
  · rintro h _ ⟨⟩
    exact h

namespace FailsWith

/-- An error of one kind is one of a wider kind. -/
theorem mono (hx : FailsWith E x) (h : ∀ e, E e → F e) : FailsWith F x :=
  fun e he => h e (hx e he)

/-- The error of two steps is one of the first, or one of the second on a result of the first. -/
theorem bind {f : α → Except ε β} (hx : FailsWith E x)
    (hf : ∀ a, x = .ok a → FailsWith E (f a)) : FailsWith E (x >>= f) := by
  cases x with
  | ok a => exact hf a rfl
  | error e => exact failsWith_error.mpr (hx e rfl)

/-- Mapping the value changes no error. -/
theorem map {f : α → β} (hx : FailsWith E x) : FailsWith E (x.map f) := by
  cases x with
  | ok a => exact failsWith_ok _
  | error e => exact failsWith_error.mpr (hx e rfl)

/-- An error that is put in other words is one of those words. -/
theorem mapError {f : ε' → ε} (h : ∀ e, E (f e)) (x : Except ε' α) :
    FailsWith E (x.mapError f) := by
  cases x with
  | ok a => exact failsWith_ok _
  | error e => exact failsWith_error.mpr (h e)

/-- The error of a traversal is that of one of its items. -/
theorem mapM {f : α → Except ε β} {xs : List α} (h : ∀ x ∈ xs, FailsWith E (f x)) :
    FailsWith E (xs.mapM f) := by
  induction xs with
  | nil => exact failsWith_ok _
  | cons x xs ih =>
    obtain ⟨hfirst, hrest⟩ := List.forall_mem_cons.mp h
    rw [List.mapM_cons]
    exact hfirst.bind fun _ _ => (ih hrest).bind fun _ _ => failsWith_ok _

/-- The error of steps over a list is one of a step on a value with the property that steps keep. -/
theorem foldlM_of_kept {P : β → Prop} {f : β → α → Except ε β} {xs : List α}
    (hkeep : ∀ x ∈ xs, ∀ b c, P b → f b x = .ok c → P c)
    (h : ∀ x ∈ xs, ∀ b, P b → FailsWith E (f b x)) {b : β} (hb : P b) :
    FailsWith E (xs.foldlM f b) := by
  -- what the steps keep holds wherever one of them may fail
  induction xs generalizing b with
  | nil => exact failsWith_ok _
  | cons x xs ih =>
    obtain ⟨hfirst, hrest⟩ := List.forall_mem_cons.mp h
    obtain ⟨hkeepFirst, hkeepRest⟩ := List.forall_mem_cons.mp hkeep
    rw [List.foldlM_cons]
    exact (hfirst b hb).bind fun c hc => ih hkeepRest hrest (hkeepFirst b c hb hc)

/-- The error of a fold is that of one of its steps. -/
theorem foldlM {f : β → α → Except ε β} {xs : List α}
    (h : ∀ x ∈ xs, ∀ b, FailsWith E (f b x)) (b : β) : FailsWith E (xs.foldlM f b) :=
  foldlM_of_kept (P := fun _ => True) (fun _ _ _ _ _ _ => trivial) (fun x hx b _ => h x hx b)
    trivial

end FailsWith

end Outcomes

/-- If the outcome is an error, that lies in configuration or parameters. -/
abbrev Refuses {α : Type} (x : Except Error α) : Prop :=
  FailsWith (fun e => e.isConfiguration = true) x

/-! ### Runs in a monad -/

variable {m : Type → Type} [Monad m] {α β : Type}

/-- The run gives values of the one predicate, or fails with errors of the other. -/
def Settles (P : α → Prop) (E : Error → Prop) (x : ExceptT Error m α) : Prop :=
  Ensures (fun outcome => (∀ a, outcome = .ok a → P a) ∧ FailsWith E outcome) x.run

variable [LawfulMonad m] {P : α → Prop} {E : Error → Prop}

/-- A value that is given at once is settled by what holds of it. -/
theorem settles_pure {a : α} (h : P a) : Settles P E (pure a : ExceptT Error m α) := by
  refine ensures_pure ⟨?_, failsWith_ok a⟩
  rintro _ ⟨⟩
  exact h

/-- So is an error. -/
theorem settles_throw {e : Error} (h : E e) : Settles P E (throw e : ExceptT Error m α) :=
  ensures_pure ⟨nofun, failsWith_error.mpr h⟩

/-- An outcome is settled by what holds of its value and of its error. -/
theorem settles_liftOutcome {outcome : Except Error α} (hvalue : ∀ a, outcome = .ok a → P a)
    (herror : FailsWith E outcome) : Settles P E (liftOutcome outcome : ExceptT Error m α) :=
  ensures_pure ⟨hvalue, herror⟩

/-- What a run settles may be weakened on both sides. -/
theorem settles_mono {Q : α → Prop} {F : Error → Prop} {x : ExceptT Error m α}
    (hvalue : ∀ a, P a → Q a) (herror : ∀ e, E e → F e) (hx : Settles P E x) : Settles Q F x :=
  ensures_mono (fun _ h => ⟨fun a ha => hvalue a (h.1 a ha), h.2.mono herror⟩) hx

/-- Two steps fail as the first, or as the second on a value of the first. -/
theorem settles_bind {Q : β → Prop} {x : ExceptT Error m α} {f : α → ExceptT Error m β}
    (hx : Settles P E x) (hf : ∀ a, P a → Settles Q E (f a)) : Settles Q E (x >>= f) := by
  rw [Settles, ExceptT.run_bind]
  refine ensures_bind hx ?_
  rintro outcome ⟨hvalue, herror⟩
  cases outcome with
  | ok a => exact hf a (hvalue a rfl)
  | error e => exact ensures_pure ⟨nofun, failsWith_error.mpr (herror e rfl)⟩

end Listing
