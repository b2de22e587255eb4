import Listing.Query.Repository
import Mathlib.Data.List.Forall2

namespace Listing

/-!
# Outcomes of runs

What holds of the results of a run, whatever monad it runs in.

* `Except.bind_ok`, `Except.foldlM_ok`, `Except.foldlM_iff`, `Except.mapM_ok` — results of composed
  steps, from results of the steps;
* `Agree` — two runs both fail, or both succeed with related results;
* `Ensures` — a predicate holds of whatever a run gives;
* `Yields` — a predicate holds of the value of a run that may fail, if it has one;
* `Alike` — two runs in a monad are the same, or neither gives anything.
-/

namespace Except

variable {ε α β : Type}

/-- A result of two steps is a result of the second on a result of the first. -/
theorem bind_ok {x : Except ε α} {f : α → Except ε β} {b : β} (h : x >>= f = .ok b) :
    ∃ a, x = .ok a ∧ f a = .ok b := by
  cases x with
  | error e => cases h
  | ok a => exact ⟨a, rfl, h⟩

/-- A result that is changed comes from a result. -/
theorem map_ok {x : Except ε α} {f : α → β} {b : β} (h : x.map f = .ok b) :
    ∃ a, x = .ok a ∧ f a = b := by
  cases x with
  | error e => cases h
  | ok a =>
    cases h
    exact ⟨a, rfl, rfl⟩

/-- Other words for an error leave a result as it is. -/
theorem mapError_ok {ε' : Type} {x : Except ε α} {f : ε → ε'} {a : α} (h : x.mapError f = .ok a) :
    x = .ok a := by
  cases x with
  | ok b =>
    cases h
    rfl
  | error e => cases h

/-- Mapping the value changes no error. -/
theorem map_eq_error_iff {x : Except ε α} {f : α → β} {e : ε} :
    x.map f = .error e ↔ x = .error e := by
  cases x <;> simp [Except.map]

/-- What each step over a list keeps, all of them keep. -/
theorem foldlM_ok {P : β → Prop} {f : β → α → Except ε β} {xs : List α}
    (h : ∀ x ∈ xs, ∀ b b', P b → f b x = .ok b' → P b') {b b' : β} (hb : P b)
    (hrun : xs.foldlM f b = .ok b') : P b' := by
  induction xs generalizing b with
  | nil =>
    cases hrun
    exact hb
  | cons x xs ih =>
    rw [List.foldlM_cons] at hrun
    obtain ⟨c, hstep, hrest⟩ := bind_ok hrun
    -- the predicate holds after the first step, and from there on by induction
    have hc : P c := h x List.mem_cons_self b c hb hstep
    exact ih (fun y hy => h y (List.mem_cons_of_mem x hy)) hc hrest

/-- If each step keeps a property exactly when its item is good, all steps keep it exactly when all
items are. -/
theorem foldlM_iff {P : β → Prop} {Good : α → Prop} {f : β → α → Except ε β} {xs : List α}
    (h : ∀ x ∈ xs, ∀ b b', f b x = .ok b' → (P b' ↔ P b ∧ Good x)) {b b' : β}
    (hrun : xs.foldlM f b = .ok b') : P b' ↔ P b ∧ ∀ x ∈ xs, Good x := by
  induction xs generalizing b with
  | nil =>
    cases hrun
    simp
  | cons x xs ih =>
    obtain ⟨hfirst, hrest⟩ := List.forall_mem_cons.mp h
    rw [List.foldlM_cons] at hrun
    -- the first step adds its own condition to those of the rest
    obtain ⟨c, hstep, hmore⟩ := bind_ok hrun
    rw [ih hrest hmore, hfirst b c hstep, List.forall_mem_cons, and_assoc]

/-- Steps that commute with a change of the value give a changed value for a changed one. -/
theorem foldlM_map_comm {f : β → α → Except ε β} {g : β → β}
    (h : ∀ b x, f (g b) x = (f b x).map g) (xs : List α) (b : β) :
    xs.foldlM f (g b) = (xs.foldlM f b).map g := by
  induction xs generalizing b with
  | nil => rfl
  | cons x xs ih =>
    rw [List.foldlM_cons, List.foldlM_cons, h]
    cases f b x with
    | error e => rfl
    | ok c => exact ih c

/-- Each result of a list of steps is the result of one of them. -/
theorem mapM_ok {f : α → Except ε β} {xs : List α} {ys : List β} (hrun : xs.mapM f = .ok ys) :
    ∀ y ∈ ys, ∃ x ∈ xs, f x = .ok y := by
  induction xs generalizing ys with
  | nil =>
    cases hrun
    exact fun y hy => absurd hy List.not_mem_nil
  | cons x xs ih =>
    rw [List.mapM_cons] at hrun
    obtain ⟨z, hz, hmore⟩ := bind_ok hrun
    obtain ⟨zs, hzs, heq⟩ := bind_ok hmore
    cases heq
    intro y hy
    -- a result is that of the first item, or one of the results of the others
    rcases List.mem_cons.mp hy with rfl | hy
    · exact ⟨x, List.mem_cons_self, hz⟩
    · obtain ⟨x', hx', hf⟩ := ih hzs y hy
      exact ⟨x', List.mem_cons_of_mem _ hx', hf⟩

/-- A list of steps has as many results as steps. -/
theorem length_mapM {f : α → Except ε β} {xs : List α} {ys : List β}
    (hrun : xs.mapM f = .ok ys) : ys.length = xs.length := by
  induction xs generalizing ys with
  | nil =>
    cases hrun
    rfl
  | cons x xs ih =>
    rw [List.mapM_cons] at hrun
    obtain ⟨y, -, hmore⟩ := bind_ok hrun
    obtain ⟨more, hrest, heq⟩ := bind_ok hmore
    cases heq
    rw [List.length_cons, List.length_cons, ih hrest]

/-- A list of steps that succeeds has a result of each of them. -/
theorem mapM_ok_of_mem {f : α → Except ε β} {xs : List α} {ys : List β} (hrun : xs.mapM f = .ok ys)
    {x : α} (hx : x ∈ xs) : ∃ y ∈ ys, f x = .ok y := by
  induction xs generalizing ys with
  | nil => cases hx
  | cons first rest ih =>
    rw [List.mapM_cons] at hrun
    obtain ⟨y, hy, hmore⟩ := bind_ok hrun
    obtain ⟨more, hrest, heq⟩ := bind_ok hmore
    cases heq
    rcases List.mem_cons.mp hx with rfl | hlater
    · exact ⟨y, List.mem_cons_self, hy⟩
    · obtain ⟨z, hz, hfound⟩ := ih hrest hlater
      exact ⟨z, List.mem_cons_of_mem _ hz, hfound⟩

/-- The results of steps around one whose result is known. -/
theorem mapM_append_cons {f : α → Except ε β} {x : α} {y : β} (hx : f x = .ok y)
    (before after : List α) :
    (before ++ x :: after).mapM f = before.mapM f >>= fun earlier =>
      (after.mapM f).map fun later => earlier ++ y :: later := by
  rw [List.mapM_append, List.mapM_cons, hx]
  cases after.mapM f with
  | ok later => rfl
  | error e => rfl

/-- If what is written for each item is read as a value of it, so is the whole list. -/
theorem mapM_map_ok {γ : Type} {f : β → Except ε γ} {write : α → β} (value : α → γ) {xs : List α}
    (h : ∀ x ∈ xs, f (write x) = .ok (value x)) :
    (xs.map write).mapM f = .ok (xs.map value) := by
  induction xs with
  | nil => rfl
  | cons x xs ih =>
    obtain ⟨hfirst, hrest⟩ := List.forall_mem_cons.mp h
    rw [List.map_cons, List.mapM_cons, hfirst, ih hrest]
    rfl

/-- If each item of a list has a result of the form `wrap y`, the whole list has results, and what
holds of each of them holds place by place. -/
theorem exists_mapM_ok {γ : Type} {P : α → γ → Prop} {f : α → Except ε β} (wrap : γ → β)
    (xs : List α) (h : ∀ x ∈ xs, ∃ y, f x = .ok (wrap y) ∧ P x y) :
    ∃ ys, xs.mapM f = .ok (ys.map wrap) ∧ List.Forall₂ P xs ys := by
  induction xs with
  | nil => exact ⟨[], rfl, .nil⟩
  | cons x xs ih =>
    obtain ⟨hfirst, hrest⟩ := List.forall_mem_cons.mp h
    obtain ⟨y, hy, hP⟩ := hfirst
    obtain ⟨ys, hys, hPs⟩ := ih hrest
    refine ⟨y :: ys, ?_, .cons hP hPs⟩
    rw [List.mapM_cons, hy, hys]
    rfl

/-- A list of steps gives some results exactly if each step gives the one at its place. -/
theorem mapM_eq_ok_iff {f : α → Except ε β} {xs : List α} {ys : List β} :
    xs.mapM f = .ok ys ↔ List.Forall₂ (fun x y => f x = .ok y) xs ys := by
  constructor
  · intro h
    induction xs generalizing ys with
    | nil =>
      cases h
      exact .nil
    | cons x xs ih =>
      rw [List.mapM_cons] at h
      obtain ⟨y, hy, hmore⟩ := bind_ok h
      obtain ⟨rest, hrest, hall⟩ := bind_ok hmore
      cases hall
      exact .cons hy (ih hrest)
  · intro h
    induction h with
    | nil => rfl
    | cons hy _ ih =>
      rw [List.mapM_cons, hy, ih]
      rfl

end Except

/-! ### Two runs -/

/-- Both runs fail, or both succeed with related results. -/
inductive Agree {ε α β : Type} (R : α → β → Prop) : Except ε α → Except ε β → Prop
  | ok {a : α} {b : β} (h : R a b) : Agree R (.ok a) (.ok b)
  | error (e e' : ε) : Agree R (.error e) (.error e')

namespace Agree

variable {ε α β γ δ : Type} {R : α → β → Prop} {S : γ → δ → Prop}

/-- Two values that agree are related. -/
theorem of_ok {a : α} {b : β} (h : Agree R (.ok a : Except ε α) (.ok b)) : R a b := by
  cases h with
  | ok hab => exact hab

/-- Runs that agree on an error or on related results agree on what follows. -/
theorem bind {x : Except ε α} {y : Except ε β} {f : α → Except ε γ} {g : β → Except ε δ}
    (h : Agree R x y) (hf : ∀ a b, R a b → Agree S (f a) (g b)) : Agree S (x >>= f) (y >>= g) := by
  cases h with
  | ok hab => exact hf _ _ hab
  | error e e' => exact .error e e'

/-- Agreement is kept where values are mapped to related ones. -/
theorem map {x : Except ε α} {y : Except ε β} {f : α → γ} {g : β → δ} (h : Agree R x y)
    (hf : ∀ a b, R a b → S (f a) (g b)) : Agree S (x.map f) (y.map g) := by
  cases h with
  | ok hab => exact .ok (hf _ _ hab)
  | error e e' => exact .error e e'

/-- Values that agree in one sense agree in a weaker one. -/
theorem mono {T : α → β → Prop} {x : Except ε α} {y : Except ε β} (h : Agree R x y)
    (hmono : ∀ a b, R a b → T a b) : Agree T x y := by
  cases h with
  | ok hab => exact .ok (hmono _ _ hab)
  | error e e' => exact .error e e'

/-- A run agrees with one whose result is changed to a related one. -/
theorem map_right {R : α → α → Prop} {g : α → α} (h : ∀ a, R a (g a)) (x : Except ε α) :
    Agree R x (x.map g) := by
  cases x with
  | ok a => exact .ok (h a)
  | error e => exact .error e e

/-- Equal outcomes agree in their values. -/
theorem of_eq {x y : Except ε α} (h : x = y) : Agree Eq x y := by
  rw [h]
  cases y with
  | ok a => exact .ok rfl
  | error e => exact .error e e

/-- Agreement in equal values goes both ways. -/
theorem eq_symm {x y : Except ε α} (h : Agree Eq x y) : Agree Eq y x := by
  cases h with
  | ok hab => exact .ok hab.symm
  | error e e' => exact .error e' e

/-- It also carries on. -/
theorem eq_trans {x y z : Except ε α} (h : Agree Eq x y) (h' : Agree Eq y z) : Agree Eq x z := by
  cases h with
  | ok hab => exact hab ▸ h'
  | error e e' =>
    cases h' with
    | error _ e'' => exact .error e e''

/-- Runs that give the same, if anything, have the same results. -/
theorem eq_ok_iff {x y : Except ε α} (h : Agree Eq x y) (a : α) : x = .ok a ↔ y = .ok a := by
  cases h with
  | ok hab => rw [hab]
  | error e e' => simp

/-- Steps over two lists of one length agree, if they do on items at the same place. -/
theorem foldlM {xs : List γ} {ys : List δ} {f : α → γ → Except ε α} {g : β → δ → Except ε β}
    (hlength : xs.length = ys.length)
    (h : ∀ pair ∈ xs.zip ys, ∀ a b, R a b → Agree R (f a pair.1) (g b pair.2)) {a : α} {b : β}
    (hab : R a b) : Agree R (xs.foldlM f a) (ys.foldlM g b) := by
  induction xs generalizing ys a b with
  | nil =>
    cases List.length_eq_zero_iff.mp hlength.symm
    exact .ok hab
  | cons x xs ih =>
    cases ys with
    | nil => cases hlength
    | cons y ys =>
      obtain ⟨hfirst, hrest⟩ := List.forall_mem_cons.mp h
      rw [List.foldlM_cons, List.foldlM_cons]
      refine (hfirst a b hab).bind ?_
      intro a' b' hab'
      exact ih (Nat.succ.inj hlength) hrest hab'

/-- Where one of two runs that agree has a result, the other has a related one. -/
theorem exists_ok {x : Except ε α} {y : Except ε β} (h : Agree R x y) {a : α} (hx : x = .ok a) :
    ∃ b, y = .ok b ∧ R a b := by
  cases h with
  | ok hab =>
    cases hx
    exact ⟨_, rfl, hab⟩
  | error e e' => cases hx

end Agree

/-! ### Runs in a monad -/

variable {m : Type → Type} [Monad m] {α β : Type}

/-- The predicate holds of whatever the run gives: the run gives values that carry a proof of it. -/
def Ensures (P : α → Prop) (x : m α) : Prop := ∃ y : m { a // P a }, Subtype.val <$> y = x

/-- A run that may fail gives values of the predicate, if it gives any. -/
def Yields (P : α → Prop) (x : ExceptT Error m α) : Prop :=
  Ensures (fun outcome => ∀ a, outcome = .ok a → P a) x.run

variable [LawfulMonad m]

/-- A value that is given at once satisfies what holds of it. -/
theorem ensures_pure {P : α → Prop} {a : α} (h : P a) : Ensures P (pure a : m α) :=
  ⟨pure ⟨a, h⟩, by rw [map_pure]⟩

/-- Every run gives some value or none. -/
theorem ensures_trivial (x : m α) : Ensures (fun _ => True) x := by
  refine ⟨(fun a => ⟨a, trivial⟩) <$> x, ?_⟩
  rw [← comp_map]
  exact id_map x

/-- A run that ensures something ensures what follows from it. -/
theorem ensures_mono {P Q : α → Prop} {x : m α} (h : ∀ a, P a → Q a) (hx : Ensures P x) :
    Ensures Q x := by
  obtain ⟨y, rfl⟩ := hx
  refine ⟨(fun a => ⟨a.1, h a.1 a.2⟩) <$> y, ?_⟩
  rw [← comp_map]
  rfl

/-- Of two runs in a row, the second ensures what it does for every value that the first gives. -/
theorem ensures_bind {P : α → Prop} {Q : β → Prop} {x : m α} {f : α → m β} (hx : Ensures P x)
    (hf : ∀ a, P a → Ensures Q (f a)) : Ensures Q (x >>= f) := by
  obtain ⟨y, rfl⟩ := hx
  refine ⟨y >>= fun a => (hf a.1 a.2).choose, ?_⟩
  rw [map_bind, bind_map_left]
  exact bind_congr fun a => (hf a.1 a.2).choose_spec

/-- In a run without effects the predicate holds of the result. -/
theorem of_ensures_id {P : α → Prop} {x : Id α} (h : Ensures P x) : P x := by
  obtain ⟨y, rfl⟩ := h
  exact y.2

/-- Two runs are the same run, or neither gives anything. -/
def Alike (x y : ExceptT Error m α) : Prop :=
  x = y ∨ Yields (fun _ => False) x ∧ Yields (fun _ => False) y

/-- A value that is given at once is yielded. -/
theorem yields_pure {P : α → Prop} {a : α} (h : P a) : Yields P (pure a : ExceptT Error m α) := by
  refine ensures_pure ?_
  intro b hb
  cases hb
  exact h

/-- A run that fails gives no value. -/
theorem yields_throw {P : α → Prop} (e : Error) : Yields P (throw e : ExceptT Error m α) :=
  ensures_pure nofun

/-- An outcome yields its value, if it has one. -/
theorem yields_liftOutcome {P : α → Prop} {outcome : Except Error α}
    (h : ∀ a, outcome = .ok a → P a) : Yields P (liftOutcome outcome : ExceptT Error m α) :=
  ensures_pure h

/-- After a value, the run goes on with it. -/
theorem liftOutcome_ok_bind (a : α) (f : α → ExceptT Error m β) :
    liftOutcome (.ok a) >>= f = f a := by
  refine ExceptT.ext ?_
  rw [ExceptT.run_bind]
  exact pure_bind _ _

/-- After an error, it does not go on. -/
theorem liftOutcome_error_bind (e : Error) (f : α → ExceptT Error m β) :
    liftOutcome (.error e) >>= f = throw e := by
  refine ExceptT.ext ?_
  rw [ExceptT.run_bind]
  exact pure_bind _ _

/-- What follows an outcome matters only for the value of the outcome. -/
theorem liftOutcome_bind_congr {outcome : Except Error α} {f g : α → ExceptT Error m β}
    (h : ∀ a, outcome = .ok a → f a = g a) :
    liftOutcome outcome >>= f = liftOutcome outcome >>= g := by
  cases outcome with
  | ok a => rw [liftOutcome_ok_bind, liftOutcome_ok_bind, h a rfl]
  | error e => rw [liftOutcome_error_bind, liftOutcome_error_bind]

/-- A run that yields something yields what follows from it. -/
theorem yields_mono {P Q : α → Prop} {x : ExceptT Error m α} (h : ∀ a, P a → Q a)
    (hx : Yields P x) : Yields Q x :=
  ensures_mono (fun _ houtcome a ha => h a (houtcome a ha)) hx

/-- Every run yields some value or fails. -/
theorem yields_trivial (x : ExceptT Error m α) : Yields (fun _ => True) x :=
  ensures_mono (fun _ _ _ _ => trivial) (ensures_trivial x.run)

/-- What two steps give is what the second gives on a value of the first. -/
theorem yields_bind {P : α → Prop} {Q : β → Prop} {x : ExceptT Error m α}
    {f : α → ExceptT Error m β} (hx : Yields P x) (hf : ∀ a, P a → Yields Q (f a)) :
    Yields Q (x >>= f) := by
  rw [Yields, ExceptT.run_bind]
  refine ensures_bind hx ?_
  intro outcome houtcome
  -- an error of the first run ends both, and yields nothing
  cases outcome with
  | ok a => exact hf a (houtcome a rfl)
  | error e =>
    refine ensures_pure ?_
    intro b hb
    cases hb

/-! ### Runs without effects -/

/-- Without effects a predicate holds of the value of a run if it holds of what the run is. -/
theorem yields_of_eq_pure {P : α → Prop} {x : ExceptT Error Id α} (h : ∀ a, x = pure a → P a) :
    Yields P x := ⟨⟨x.run, h⟩, rfl⟩

/-- A run without effects gives one value. -/
theorem pure_inj {a b : α} (h : (pure a : ExceptT Error Id α) = pure b) : a = b := Except.ok.inj h

/-- Without effects a result of two steps is a result of the second on a result of the first. -/
theorem bind_eq_pure {x : ExceptT Error Id α} {f : α → ExceptT Error Id β} {b : β} :
    x >>= f = pure b ↔ ∃ a, x = pure a ∧ f a = pure b := by
  constructor
  · intro h
    cases x with
    | error e => cases h
    | ok a => exact ⟨a, rfl, h⟩
  · rintro ⟨a, rfl, h⟩
    exact h

/-- A mapped run gives a value if the run gives one that is mapped to it. -/
theorem map_eq_pure {x : ExceptT Error Id α} {f : α → β} {b : β} :
    f <$> x = pure b ↔ ∃ a, x = pure a ∧ f a = b := by
  constructor
  · intro h
    cases x with
    | error e => cases h
    | ok a => exact ⟨a, rfl, pure_inj h⟩
  · rintro ⟨a, rfl, rfl⟩
    rfl

/-- An outcome gives a value if it is that value. -/
theorem liftOutcome_eq_pure {outcome : Except Error α} {a : α} :
    (liftOutcome outcome : ExceptT Error Id α) = pure a ↔ outcome = .ok a := Iff.rfl

end Listing
