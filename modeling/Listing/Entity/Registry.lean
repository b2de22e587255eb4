import Listing.Entity.Basic

namespace Listing

/-!
# Registries

The entities that queries know, each under its name.  Only valid entities get in, so the declared
names of every entity found in a registry are identifiers.

* `Registry` — the entities, with the proof that each is valid;
* `Registry.register` — puts an entity in, in place of one of the same name;
* `Registry.validate_of_get?` — an entity that is found is valid.
-/

/-- The entities that queries know, each valid and under its name. -/
structure Registry where
  entities : Dict Entity
  valid : ∀ entry ∈ entities, entry.2.validate = .ok ()

namespace Dict

/-- An entry after an insertion is the inserted one or was there before. -/
theorem mem_insert {α : Type} {key : String} {value : α} {entries : Dict α} {x : String × α}
    (h : x ∈ insert key value entries) : x = (key, value) ∨ x ∈ entries := by
  induction entries with
  | nil => simpa [insert] using h
  | cons entry rest ih =>
    by_cases he : entry.1 = key
    · simp only [insert, if_pos he, List.mem_cons] at h
      rcases h with h | h
      · exact .inl h
      · exact .inr (List.mem_cons_of_mem _ h)
    · simp only [insert, if_neg he, List.mem_cons] at h
      rcases h with h | h
      · exact .inr (h ▸ List.mem_cons_self)
      · exact (ih h).imp_right (List.mem_cons_of_mem _)

/-- A value that is found is the value of an entry. -/
theorem mem_of_get? {α : Type} {key : String} {value : α} {entries : Dict α}
    (h : get? entries key = some value) : (key, value) ∈ entries := by
  induction entries with
  | nil => simp [get?] at h
  | cons entry rest ih =>
    obtain ⟨k, v⟩ := entry
    simp only [get?, List.lookup_cons] at h ih
    by_cases hk : key = k
    · subst hk
      simp only [beq_self_eq_true, Option.some.injEq] at h
      exact h ▸ List.mem_cons_self
    · have hne : (key == k) = false := by simpa using hk
      rw [hne] at h
      exact List.mem_cons_of_mem _ (ih h)

end Dict

namespace Registry

/-- The registry without entities. -/
def empty : Registry := ⟨[], by simp⟩

/-- The entity of a name. -/
def get? (r : Registry) (name : String) : Option Entity := Dict.get? r.entities name

/-- Whether there is an entity of a name. -/
def contains (r : Registry) (name : String) : Bool := (r.get? name).isSome

/-- The number of entities. -/
def size (r : Registry) : Nat := r.entities.length

/-- Puts a valid entity in, in place of one of the same name. -/
def insert (r : Registry) (e : Entity) (h : e.validate = .ok ()) : Registry :=
  ⟨Dict.insert e.name e r.entities, fun entry hm =>
    (Dict.mem_insert hm).elim (fun he => he ▸ h) (r.valid entry)⟩

/-- Puts an entity in if it is valid. -/
def register (r : Registry) (e : Entity) : Except Error Registry :=
  -- the equation is what the registry keeps of the check
  match h : e.validate with
  | .ok _ => .ok (r.insert e h)
  | .error fault => .error fault

/-- An entity that is found is valid. -/
theorem validate_of_get? {r : Registry} {name : String} {e : Entity} (h : r.get? name = some e) :
    e.validate = .ok () := r.valid _ (Dict.mem_of_get? h)

end Registry

end Listing
