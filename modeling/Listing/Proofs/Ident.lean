import Listing.Proofs.Outcome

namespace Listing.Ident

/-!
# Identifiers as they are written

* `text_of_parse` — an identifier is written as the text that it was read from.
-/

/-- A body that is read is the doubled name and the closing quote, before the rest. -/
theorem eq_of_body {text name rest : List Char} (h : body text = .ok (name, rest)) :
    text = doubled name ++ '"' :: rest := by
  -- along the reader: the end, a pair of quotes, a closing quote, any other character
  fun_induction body text generalizing name with
  | case1 => cases h
  | case2 tail ih =>
    obtain ⟨⟨inner, after⟩, hinner, heq⟩ := Except.map_ok h
    cases heq
    rw [ih hinner, doubled, if_pos rfl]
    rfl
  | case3 tail hnot =>
    cases h
    rfl
  | case4 c tail hc hnot ih =>
    obtain ⟨⟨inner, after⟩, hinner, heq⟩ := Except.map_ok h
    cases heq
    rw [ih hinner, doubled, if_neg hnot]
    rfl

/-- An identifier is written as the text that it was read from. -/
theorem text_of_parse {text : String} {i : Ident} (h : parse text = .ok i) : i.text = text := by
  unfold parse at h
  split at h
  · cases h
  · rename_i start rest htext
    split at h
    · cases h
    · split at h
      -- a quoted name has its quotes doubled again when it is written
      · rename_i hquote
        obtain ⟨⟨name, after⟩, hbody, h⟩ := Except.bind_ok h
        simp only at h
        split at h
        · cases h
        · rename_i hafter
          split at h
          · cases h
          · cases h
            have hnil : after = [] := by simpa using hafter
            rw [← String.toList_inj, htext, hquote, eq_of_body hbody, hnil]
            simp [Ident.text]
      · unfold parseBare at h
        split at h
        · split at h
          · cases h
          · cases h
            rfl
        · cases h

end Listing.Ident
