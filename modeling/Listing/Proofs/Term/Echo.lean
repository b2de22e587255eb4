import Listing.Proofs.Number.Exact
import Listing.Proofs.Page.Normal
import Listing.Proofs.Search.Normal

namespace Listing

/-!
# Terms that are sent back

A request gives its terms as documents, and its normalised parameters give them back.  A document is
read as a term and written again without loss, but for one kind of number: a term holds integers of
64 bits, and a natural number beyond these becomes the float nearest to it.

* `Json.isPlain`, `Json.hasLarge` — documents without objects, and with a number of that kind;
* `Json.Echoes` — a document and what comes back for it; `Json.Echoes.eq_iff`, it is the same
  document exactly if no such number occurs in it;
* `Term.exists_ofJson?` — every document without objects is read, and comes back;
* `Request.term_echoed` — so do the terms of searches and of pages by key.
-/

namespace Json

mutual

/-- Whether no object occurs in a document and its floats are numbers. -/
def isPlain : Json → Bool
  | .obj _ => false
  | .num (.float x) => x.isFinite
  | .arr items => arePlain items
  | _ => true

/-- Whether no object occurs in some documents and their floats are numbers. -/
def arePlain : List Json → Bool
  | [] => true
  | item :: rest => isPlain item && arePlain rest

end

mutual

/-- Whether a natural number beyond 64-bit integers occurs in a document, objects aside. -/
def hasLarge : Json → Bool
  | .num (.large _ _) => true
  | .arr items => haveLarge items
  | _ => false

/-- Whether a natural number beyond 64-bit integers occurs in some documents, objects aside. -/
def haveLarge : List Json → Bool
  | [] => false
  | item :: rest => hasLarge item || haveLarge rest

end

mutual

/-- What comes back for a document: a float nearest to each natural number beyond 64-bit integers,
and all else as it is. -/
def Echoes : Json → Json → Prop
  | .num (.large n _), echo => ∃ x : Number.Binary64, echo = .num (.float x) ∧ x.IsNearest n.toNat
  | .arr items, echo => ∃ others, echo = .arr others ∧ EchoItems items others
  | document, echo => echo = document

/-- What comes back for some documents. -/
def EchoItems : List Json → List Json → Prop
  | [], others => others = []
  | item :: rest, others => ∃ first more, others = first :: more ∧ Echoes item first ∧
      EchoItems rest more

end

mutual

/-- What comes back is the document itself exactly if it has no number that is too large. -/
theorem Echoes.eq_iff : {document echo : Json} → Echoes document echo →
    (echo = document ↔ document.hasLarge = false)
  | .null, echo, h => by simpa [Echoes, hasLarge] using h
  | .bool b, echo, h => by simpa [Echoes, hasLarge] using h
  | .num (.int n), echo, h => by simpa [Echoes, hasLarge] using h
  | .num (.large n beyond), echo, h => by
    obtain ⟨x, rfl, -⟩ := h
    simp [hasLarge]
  | .num (.float x), echo, h => by simpa [Echoes, hasLarge] using h
  | .str s, echo, h => by simpa [Echoes, hasLarge] using h
  | .arr items, echo, h => by
    rw [Echoes] at h
    obtain ⟨others, rfl, hitems⟩ := h
    rw [hasLarge, Json.arr.injEq, EchoItems.eq_iff hitems]
  | .obj fields, echo, h => by simpa [Echoes, hasLarge] using h

/-- The items are given back exactly if no number among them is too large. -/
theorem EchoItems.eq_iff : {items others : List Json} → EchoItems items others →
    (others = items ↔ haveLarge items = false)
  | [], others, h => by simpa [EchoItems, haveLarge] using h
  | item :: rest, others, h => by
    rw [EchoItems] at h
    obtain ⟨first, more, rfl, hfirst, hmore⟩ := h
    rw [haveLarge, Bool.or_eq_false_iff, List.cons.injEq, Echoes.eq_iff hfirst,
      EchoItems.eq_iff hmore]

end

end Json

namespace Term

mutual

/-- A document without objects is read, and what is written for it echoes it. -/
theorem exists_ofJson? : {document : Json} → document.isPlain = true →
    ∃ t, ofJson? document = some t ∧ Json.Echoes document t.encode
  | .null, _ => ⟨.null, rfl, by simp [Json.Echoes, encode]⟩
  | .bool b, _ => ⟨.bool b, rfl, by simp [Json.Echoes, encode]⟩
  | .num (.int n), _ => ⟨.int n, rfl, by simp [Json.Echoes, encode, Json.int]⟩
  | .num (.large n beyond), _ => by
    -- a float that is no number would be written as null
    have hfinite := Number.Binary64.isFinite_of_toRat?
      (Number.Binary64.toRat?_ofNat beyond n.toNat_lt)
    refine ⟨.float (Number.Binary64.ofNat n.toNat), rfl, _, ?_,
      Number.Binary64.isNearest_ofNat beyond n.toNat_lt⟩
    rw [encode, Json.float, if_pos hfinite]
  | .num (.float x), h => by
    have hfinite : x.isFinite = true := h
    exact ⟨.float x, rfl, by simp [Json.Echoes, encode, Json.float, hfinite]⟩
  | .str s, _ => ⟨.text s, rfl, by simp [Json.Echoes, encode]⟩
  | .arr items, h => by
    rw [Json.isPlain] at h
    obtain ⟨terms, hread, hecho⟩ := exists_ofItems? h
    refine ⟨.list terms, ?_, ?_⟩
    · rw [ofJson?, hread]
      rfl
    · rw [Json.Echoes, encode]
      exact ⟨_, rfl, hecho⟩
  | .obj fields, h => by cases h

/-- Plain items are read, and written as they are echoed. -/
theorem exists_ofItems? : {items : List Json} → Json.arePlain items = true →
    ∃ terms, ofItems? items = some terms ∧ Json.EchoItems items (encodeItems terms)
  | [], _ => ⟨[], rfl, by simp [Json.EchoItems, encodeItems]⟩
  | item :: rest, h => by
    rw [Json.arePlain, Bool.and_eq_true] at h
    obtain ⟨t, hread, hecho⟩ := exists_ofJson? h.1
    obtain ⟨terms, hmore, hechoes⟩ := exists_ofItems? h.2
    refine ⟨t :: terms, ?_, ?_⟩
    · rw [ofItems?, hread, hmore]
    · rw [Json.EchoItems, encodeItems]
      exact ⟨_, _, rfl, hecho, hechoes⟩

end

end Term

/-! ### Terms of parameters -/

/-- The value of a field of an object. -/
def Json.field? (document : Json) (key : String) : Option Json :=
  document.fields?.bind fun fields => Dict.get? fields key

variable {document : Json} {fields : Dict Json} {hook name : String}

/-- A request has the term that its document is read as. -/
theorem Request.term_eq_ok_iff {t : Term} :
    Request.term document = .ok t ↔ Term.ofJson? document = some t := by
  unfold Request.term Term.decode
  cases Term.ofJson? document <;> simp [Except.mapError]

namespace StrictSearch

/-- The term of a criterion is the one that the entry names. -/
theorem term_of_entry {c : Criterion} (h : entry hook name fields = .ok c)
    (hterm : Dict.get? fields "search_term" = some document) :
    Request.term document = .ok c.term := by
  obtain ⟨f, -, h⟩ := Except.bind_ok h
  obtain ⟨path, -, h⟩ := Except.bind_ok h
  obtain ⟨operator, -, h⟩ := Except.bind_ok h
  obtain ⟨t, ht, h⟩ := Except.bind_ok h
  obtain ⟨combine, -, h⟩ := Except.bind_ok h
  obtain ⟨_, -, h⟩ := Except.bind_ok h
  cases h
  rwa [term, hterm] at ht

end StrictSearch

/-- The term of an entry is the one of its document, in a lenient search too. -/
theorem LenientSearch.term_of_entry {c : Criterion} (h : entry name fields = .ok (some c))
    (hterm : Dict.get? fields "search_term" = some document) :
    Request.term document = .ok c.term := by
  unfold entry at h
  rw [hterm] at h
  split at h
  · rename_i hvalue _
    cases hvalue
    obtain ⟨f, -, h⟩ := Except.bind_ok h
    obtain ⟨path, -, h⟩ := Except.bind_ok h
    obtain ⟨t, ht, h⟩ := Except.bind_ok h
    cases h
    exact ht
  · cases h

/-- The last key of a page is the term of its document. -/
theorem KeysetPage.lastSeen_of_normalise {q : Query} {perPage : Int64} {p : KeysetPage}
    (h : normalise q (.obj fields) perPage = .ok p)
    (hkey : Dict.get? fields "last_seen_key" = some document) :
    Request.term document = .ok p.lastSeenKey := by
  obtain ⟨_, hobject, h⟩ := Except.bind_ok h
  cases hobject
  obtain ⟨keyField, -, h⟩ := Except.bind_ok h
  -- the key is read only after the check of its column
  cases hunique : q.entity.isUniqueKey keyField with
  | false =>
    rw [hunique] at h
    cases h
  | true =>
    rw [hunique] at h
    obtain ⟨lastSeenKey, hlast, h⟩ := Except.bind_ok h
    obtain ⟨size, -, h⟩ := Except.bind_ok h
    obtain ⟨page, -, h⟩ := Except.bind_ok h
    cases h
    rwa [lastSeen, hkey] at hlast

/-- **Terms are echoed.** A document without objects (`Json.isPlain`) is read as a term, and
`Term.encode` writes the document for it, but for natural numbers beyond 64-bit integers
(`Json.hasLarge`), for which the nearest floats are written.  The same comes back in the normalised
parameters of a search, strict or lenient, and of a page by key. -/
theorem Request.term_echoed (h : document.isPlain = true) :
    ∃ t, Request.term document = .ok t ∧ document.Echoes t.encode ∧
      (t.encode = document ↔ document.hasLarge = false) ∧
      (∀ hook name fields c, Dict.get? fields "search_term" = some document →
        StrictSearch.entry hook name fields = .ok c →
          c.encode.field? "search_term" = some t.encode) ∧
      (∀ name fields c, Dict.get? fields "search_term" = some document →
        LenientSearch.entry name fields = .ok (some c) →
          c.encode.field? "search_term" = some t.encode) ∧
      ∀ q fields perPage p, Dict.get? fields "last_seen_key" = some document →
        KeysetPage.normalise q (.obj fields) perPage = .ok p →
          p.encode.field? "last_seen_key" = some t.encode := by
  obtain ⟨t, hread, hecho⟩ := Term.exists_ofJson? h
  have hterm := Request.term_eq_ok_iff.mpr hread
  -- whatever hook reads the document reads this term
  have hsame {other : Term} (hother : Request.term document = .ok other) : other = t := by
    rw [hterm] at hother
    cases hother
    rfl
  refine ⟨t, hterm, hecho, hecho.eq_iff, ?_, ?_, ?_⟩
  · intro hook name fields c hget hentry
    rw [← hsame (StrictSearch.term_of_entry hentry hget)]
    rfl
  · intro name fields c hget hentry
    rw [← hsame (LenientSearch.term_of_entry hentry hget)]
    rfl
  · intro q fields perPage p hget hpage
    rw [← hsame (KeysetPage.lastSeen_of_normalise hpage hget)]
    rfl

/-- A list within a list comes back as it is. -/
theorem Request.term_echoed_nested :
    (Json.arr [.arr [.int (-1), .null], .str "a", .num (.float ⟨0x3FF8000000000000⟩)]).isPlain =
        true ∧
      ∃ t, Request.term (.arr [.arr [.int (-1), .null], .str "a",
          .num (.float ⟨0x3FF8000000000000⟩)]) = .ok t ∧
        t.encode =
          .arr [.arr [.int (-1), .null], .str "a", .num (.float ⟨0x3FF8000000000000⟩)] := by
  have hplain : (Json.arr [.arr [.int (-1), .null], .str "a",
      .num (.float ⟨0x3FF8000000000000⟩)]).isPlain = true := by decide +kernel
  obtain ⟨t, hread, -, hsame, -⟩ := Request.term_echoed hplain
  exact ⟨hplain, t, hread, hsame.mpr (by decide +kernel)⟩

/-- **The largest number is rounded.** The greatest number of 64 bits without a sign comes back as
the float `2 ^ 64`. -/
theorem Request.largest_rounded :
    (Json.num (.large 18446744073709551615 (by decide))).isPlain = true ∧
      Request.term (.num (.large 18446744073709551615 (by decide))) =
        .ok (.float ⟨0x43F0000000000000⟩) ∧
      (Term.float ⟨0x43F0000000000000⟩).encode = .num (.float ⟨0x43F0000000000000⟩) ∧
      (⟨0x43F0000000000000⟩ : Number.Binary64).toRat? = some (2 ^ 64) ∧
      (Term.float ⟨0x43F0000000000000⟩).encode ≠
        .num (.large 18446744073709551615 (by decide)) := by
  -- the nearest float to one less than `2 ^ 64` is `2 ^ 64`
  have hround : Number.Binary64.ofNat 18446744073709551615 = ⟨0x43F0000000000000⟩ := by
    decide +kernel
  have hfinite : (⟨0x43F0000000000000⟩ : Number.Binary64).isFinite = true := by decide +kernel
  have hvalue : (⟨0x43F0000000000000⟩ : Number.Binary64).value = .finite false (2 ^ 52) 12 := by
    decide +kernel
  have hencode : (Term.float ⟨0x43F0000000000000⟩).encode =
      .num (.float ⟨0x43F0000000000000⟩) := by rw [Term.encode, Json.float, if_pos hfinite]
  refine ⟨rfl, ?_, hencode, ?_, ?_⟩
  · rw [← hround]
    rfl
  · rw [Number.Binary64.toRat?, hvalue, Number.FloatValue.toRat?]
    norm_num
  · rw [hencode]
    simp

end Listing
