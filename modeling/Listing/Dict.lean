namespace Listing

/-!
# Keyed lists

Entries under text keys, kept in the order in which the keys first came.  Request objects, entity
tables, named scopes and handler assignments are all of this shape, because answers show the order
of keys.

* `Dict.get?` — the value under a key;
* `Dict.insert` — a key that is there keeps its place and takes the new value, a new key goes last;
* `Dict.ofEntries` — so of a repeated key the first place and the last value remain.
-/

/-- Entries under text keys, in the order in which the keys first came. -/
abbrev Dict (α : Type) := List (String × α)

namespace Dict

variable {α : Type}

/-- The value under `key`. -/
def get? (entries : Dict α) (key : String) : Option α := List.lookup key entries

/-- Whether `key` has a value. -/
def contains (entries : Dict α) (key : String) : Bool := (get? entries key).isSome

/-- Puts `value` under `key`: in place if the key is there, else at the end. -/
def insert (key : String) (value : α) : Dict α → Dict α
  | [] => [(key, value)]
  | entry :: rest =>
    if entry.1 = key then (key, value) :: rest else entry :: insert key value rest

/-- The keyed list of some entries, each inserted after those before it. -/
def ofEntries (entries : List (String × α)) : Dict α :=
  entries.foldl (fun known entry => insert entry.1 entry.2 known) []

/-- The keys, in order of first appearance. -/
def keys (entries : Dict α) : List String := entries.map Prod.fst

/-- The keys by code point order. -/
def sortedKeys (entries : Dict α) : List String :=
  (keys entries).mergeSort fun a b => decide (a ≤ b)

/-- A key has the value that is inserted. -/
theorem get?_insert_self (key : String) (value : α) (entries : Dict α) :
    get? (insert key value entries) key = some value := by
  induction entries with
  | nil => simp [insert, get?]
  | cons entry rest ih =>
    obtain ⟨k, v⟩ := entry
    by_cases h : k = key
    · simp [insert, h, get?]
    · have hne : (key == k) = false := by simpa using fun e => h e.symm
      simpa [insert, h, get?, List.lookup_cons, hne] using ih

/-- Other keys keep theirs. -/
theorem get?_insert_of_ne {key other : String} (h : other ≠ key) (value : α) (entries : Dict α) :
    get? (insert key value entries) other = get? entries other := by
  induction entries with
  | nil =>
    have hne : (other == key) = false := by simpa using h
    simp [insert, get?, List.lookup_cons, hne]
  | cons entry rest ih =>
    obtain ⟨k, v⟩ := entry
    by_cases he : k = key
    · have hne : (other == key) = false := by simpa using h
      simp [insert, he, get?, List.lookup_cons, hne]
    · have ih' : List.lookup other (insert key value rest) = List.lookup other rest := ih
      simp only [insert, if_neg he, get?, List.lookup_cons]
      cases other == k <;> simp [ih']

end Dict

end Listing
