import Listing.Term.Wire

namespace Listing.Term

/-!
# Terms written and read again

Every term has a document, and the document can be read.  What is read is the term itself but for
floats that are no numbers: they have no document, and null is written in their place.

* `Term.settled` — the term that is read; it is the term itself if its floats are numbers
  (`Term.settled_of_isFinite`);
* `Term.decode_encode` — reading a written term settles it;
* `Term.encode_settled` — a settled term is written like the term it comes from.
-/

mutual

/-- The term with null for every float that is no number. -/
def settled : Term → Term
  | null => null
  | bool b => bool b
  | int n => int n
  | float x => if x.isFinite then float x else null
  | text s => text s
  | list items => list (settledItems items)

/-- The terms with null for every float that is no number. -/
def settledItems : List Term → List Term
  | [] => []
  | item :: rest => settled item :: settledItems rest

end

mutual

/-- Whether all floats of the term are numbers. -/
def isFinite : Term → Bool
  | float x => x.isFinite
  | list items => areFinite items
  | _ => true

/-- Whether all floats of the terms are numbers. -/
def areFinite : List Term → Bool
  | [] => true
  | item :: rest => isFinite item && areFinite rest

end

mutual

/-- A term whose floats are numbers is settled. -/
theorem settled_of_isFinite : {t : Term} → t.isFinite = true → t.settled = t
  | null, _ => rfl
  | bool _, _ => rfl
  | int _, _ => rfl
  | float x, h => by
    rw [isFinite] at h
    rw [settled, if_pos h]
  | text _, _ => rfl
  | list items, h => by
    rw [isFinite] at h
    rw [settled, settledItems_of_areFinite h]

/-- Items that are numbers, where they are floats, stay as they are. -/
theorem settledItems_of_areFinite : {items : List Term} → areFinite items = true →
    settledItems items = items
  | [], _ => rfl
  | item :: rest, h => by
    rw [areFinite, Bool.and_eq_true] at h
    rw [settledItems, settled_of_isFinite h.1, settledItems_of_areFinite h.2]

end

/-- Settling keeps the number of items. -/
theorem length_settledItems (items : List Term) : (settledItems items).length = items.length := by
  induction items with
  | nil => rfl
  | cons item rest ih => rw [settledItems, List.length_cons, List.length_cons, ih]

mutual

/-- A term that is written is read as it settles. -/
theorem ofJson?_encode : (t : Term) → ofJson? t.encode = some t.settled
  | null => rfl
  | bool _ => rfl
  | int _ => rfl
  | float x => by
    rw [encode, settled, Json.float]
    split
    · rfl
    · rfl
  | text _ => rfl
  | list items => by
    rw [encode, ofJson?, ofItems?_encodeItems items, settled]
    rfl

/-- So are items. -/
theorem ofItems?_encodeItems : (items : List Term) →
    ofItems? (encodeItems items) = some (settledItems items)
  | [] => rfl
  | item :: rest => by
    rw [encodeItems, ofItems?, ofJson?_encode item, ofItems?_encodeItems rest, settledItems]

end

/-- Reading a written term gives the term, settled. -/
theorem decode_encode (t : Term) : decode t.encode = .ok t.settled := by
  rw [decode, ofJson?_encode]

mutual

/-- Settling a term changes nothing of what is written. -/
theorem encode_settled : (t : Term) → t.settled.encode = t.encode
  | null => rfl
  | bool _ => rfl
  | int _ => rfl
  | float x => by
    rw [settled, encode, Json.float]
    split
    · rename_i h
      rw [encode, Json.float, if_pos h]
    · rfl
  | text _ => rfl
  | list items => by rw [settled, encode, encode, encodeItems_settledItems items]

/-- Settled items are written like the items. -/
theorem encodeItems_settledItems : (items : List Term) →
    encodeItems (settledItems items) = encodeItems items
  | [] => rfl
  | item :: rest => by
    rw [settledItems, encodeItems, encodeItems, encode_settled item, encodeItems_settledItems rest]

end

/-- A blank term stays blank. -/
theorem isBlank_settled {t : Term} (h : t.isBlank = true) : t.settled.isBlank = true := by
  cases t with
  | list items =>
    rw [isBlank, List.isEmpty_iff] at h
    rw [h]
    rfl
  | float x => cases h
  | _ => exact h

end Listing.Term
