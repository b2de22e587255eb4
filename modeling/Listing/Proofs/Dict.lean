import Listing.Entity.Registry

namespace Listing.Dict

/-!
# Insertion into keyed lists

* `insert_of_get?`, `insert_insert_self`, `insert_comm` — insertions that do nothing, that undo an
  earlier one, and that can be made in either order;
* `nodup_keys_ofEntries`, `mem_ofEntries`, `ofEntries_of_nodup` — a list of entries with repeated
  keys merged has no repeated key, and merging it again does nothing;
* `mem_ofEntries_of_last` — of a repeated key the last value remains.
-/

variable {α : Type} {key other : String} {value value' : α} {entries : Dict α}

/-! ### Insertions in place -/

/-- A key is contained if it has a value. -/
theorem contains_iff : contains entries key = true ↔ ∃ v, get? entries key = some v := by
  rw [contains, Option.isSome_iff_exists]

/-- The first entry of a key counts. -/
theorem get?_cons (entry : String × α) (entries : Dict α) (key : String) :
    get? (entry :: entries) key = if entry.1 = key then some entry.2 else get? entries key := by
  obtain ⟨k, v⟩ := entry
  simp only [get?, List.lookup_cons]
  by_cases h : k = key
  · simp [h]
  · have hne : (key == k) = false := by simpa using fun e => h e.symm
    rw [hne, if_neg h]

/-- A key is contained if it is one of the keys. -/
theorem contains_iff_mem_keys : contains entries key = true ↔ key ∈ keys entries := by
  induction entries with
  | nil => simp [contains, get?, keys]
  | cons entry rest ih =>
    rw [contains, get?_cons]
    by_cases h : entry.1 = key
    · simp [h, keys]
    · have hne : ¬ key = entry.1 := fun e => h e.symm
      rw [if_neg h]
      simpa [keys, hne, contains] using ih

/-- Inserting a value that is there changes nothing. -/
theorem insert_of_get? (h : get? entries key = some value) :
    insert key value entries = entries := by
  induction entries with
  | nil => cases h
  | cons entry rest ih =>
    rw [get?_cons] at h
    by_cases he : entry.1 = key
    · rw [if_pos he] at h
      rw [insert, if_pos he, ← Option.some.inj h, ← he]
    · rw [if_neg he] at h
      rw [insert, if_neg he, ih h]

/-- Of two insertions under one key the later one counts. -/
theorem insert_insert_self (key : String) (value value' : α) (entries : Dict α) :
    insert key value (insert key value' entries) = insert key value entries := by
  induction entries with
  | nil => simp [insert]
  | cons entry rest ih =>
    by_cases he : entry.1 = key
    · simp [insert, he]
    · simp [insert, he, ih]

/-- Insertions under two keys, one of which is there already, can be made in either order. -/
theorem insert_comm (hne : key ≠ other) (h : contains entries key = true) (value value' : α) :
    insert key value (insert other value' entries) =
      insert other value' (insert key value entries) := by
  induction entries with
  | nil => cases h
  | cons entry rest ih =>
    -- a key that is there is found before the end, where a new one would go
    obtain ⟨v, hv⟩ := contains_iff.mp h
    rw [get?_cons] at hv
    by_cases hkey : entry.1 = key
    · have hother : entry.1 ≠ other := fun e => hne (hkey.symm.trans e)
      simp [insert, hkey, hne]
    · rw [if_neg hkey] at hv
      by_cases hother : entry.1 = other
      · simp [insert, hother, hne.symm]
      · simp [insert, hkey, hother, ih (contains_iff.mpr ⟨v, hv⟩)]

/-! ### Merged entries -/

/-- A new key goes last, and one that is there stays in place. -/
theorem keys_insert (key : String) (value : α) (entries : Dict α) :
    keys (insert key value entries) =
      if key ∈ keys entries then keys entries else keys entries ++ [key] := by
  induction entries with
  | nil => rfl
  | cons entry rest ih =>
    by_cases he : entry.1 = key
    · simp [insert, he, keys]
    · have hne : ¬ key = entry.1 := fun e => he e.symm
      have hkeys : keys (entry :: rest) = entry.1 :: keys rest := rfl
      rw [insert, if_neg he, hkeys]
      show entry.1 :: keys (insert key value rest) = _
      rw [ih]
      by_cases hmem : key ∈ keys rest
      · rw [if_pos hmem, if_pos (List.mem_cons_of_mem _ hmem)]
      · rw [if_neg hmem, if_neg (by simp [hne, hmem])]
        rfl

/-- An entry with a new key goes last. -/
theorem insert_of_not_mem (h : key ∉ keys entries) (value : α) :
    insert key value entries = entries ++ [(key, value)] := by
  induction entries with
  | nil => rfl
  | cons entry rest ih =>
    simp only [keys, List.map_cons, List.mem_cons, not_or] at h
    rw [insert, if_neg (fun e => h.1 e.symm), ih h.2]
    rfl

/-- Inserting repeats no key. -/
theorem nodup_keys_insert (h : (keys entries).Nodup) (key : String) (value : α) :
    (keys (insert key value entries)).Nodup := by
  rw [keys_insert]
  split
  · exact h
  · rename_i hnot
    refine List.nodup_append.mpr ⟨h, List.pairwise_singleton _ key, ?_⟩
    intro a ha b hb hab
    rw [List.mem_singleton.mp hb] at hab
    exact hnot (hab ▸ ha)

/-- What has been merged has no repeated key. -/
theorem nodup_keys_ofEntries (entries : List (String × α)) : (keys (ofEntries entries)).Nodup := by
  have hgeneral (known : Dict α) (h : (keys known).Nodup) :
      (keys (entries.foldl (fun known entry => insert entry.1 entry.2 known) known)).Nodup := by
    induction entries generalizing known with
    | nil => exact h
    | cons entry rest ih => exact ih _ (nodup_keys_insert h entry.1 entry.2)
  exact hgeneral [] List.nodup_nil

/-- What is there after inserting some entries was there before or is one of them. -/
theorem mem_foldl_insert {known : Dict α} {entries : List (String × α)} {x : String × α}
    (h : x ∈ entries.foldl (fun known entry => insert entry.1 entry.2 known) known) :
    x ∈ known ∨ x ∈ entries := by
  induction entries generalizing known with
  | nil => exact .inl h
  | cons entry rest ih =>
    rcases ih h with hknown | hrest
    · rcases mem_insert hknown with rfl | hold
      · exact .inr List.mem_cons_self
      · exact .inl hold
    · exact .inr (List.mem_cons_of_mem _ hrest)

/-- Each merged entry was among the entries. -/
theorem mem_ofEntries {entries : List (String × α)} {x : String × α} (h : x ∈ ofEntries entries) :
    x ∈ entries := (mem_foldl_insert h).resolve_left List.not_mem_nil

/-- Entries without a repeated key stay as they are. -/
theorem ofEntries_of_nodup (h : (keys entries).Nodup) : ofEntries entries = entries := by
  -- along the rest, where each new key is none of the known ones
  have hgeneral (known rest : Dict α) (hnodup : (keys (known ++ rest)).Nodup) :
      rest.foldl (fun known entry => insert entry.1 entry.2 known) known = known ++ rest := by
    induction rest generalizing known with
    | nil => simp
    | cons entry rest ih =>
      have hfresh : entry.1 ∉ keys known := by
        simp only [keys, List.map_append, List.map_cons, List.nodup_append] at hnodup
        intro hmem
        exact hnodup.2.2 entry.1 hmem entry.1 List.mem_cons_self rfl
      rw [List.foldl_cons, insert_of_not_mem hfresh]
      have hshift : known ++ entry :: rest = (known ++ [entry]) ++ rest := by simp
      rw [hshift] at hnodup ⊢
      exact ih _ hnodup
  exact hgeneral [] entries h

/-- Of a repeated key the last value remains. -/
theorem mem_ofEntries_of_last {before after : List (String × α)} (h : key ∉ keys after)
    (value : α) : (key, value) ∈ ofEntries (before ++ (key, value) :: after) := by
  have hgeneral (known : Dict α) (hknown : get? known key = some value) :
      get? (after.foldl (fun known entry => insert entry.1 entry.2 known) known) key =
        some value := by
    induction after generalizing known with
    | nil => exact hknown
    | cons entry rest ih =>
      simp only [keys, List.map_cons, List.mem_cons, not_or] at h
      exact ih h.2 _ ((get?_insert_of_ne h.1 _ _).trans hknown)
  rw [ofEntries, List.foldl_append, List.foldl_cons]
  exact mem_of_get? (hgeneral _ (get?_insert_self key value _))

end Listing.Dict
