import Listing.Proofs.Page.Normal
import Listing.Proofs.Sort.Normal
import Listing.Stage.Handler

namespace Listing

/-!
# Parameters as documents

Between the normalising of parameters and their use they are a document.  Nothing is lost on the
way: what a hook of this library reads from the document of its parameters are the parameters, if
names are not repeated, computed fields have the columns that they take, and floats are numbers.

* `Criterion.decode_encode`, `SortKey.decode_encode`, `OffsetPage.decode_encode` — one record,
  written and read again;
* `Criteria.decode_encode`, `SortKeys.decode_encode` — the records of a search or of an ordering;
* `Builtin.Parameters`, `Builtin.encode`, `Builtin.decode`, `Builtin.apply` — the parameters of a
  hook, their document, and what the hook does with them;
* `Builtin.Writable` — parameters that have a document of their own;
* `Builtin.run_encode` — a hook does with the document what it does with the parameters.
-/

/-- A field that is written is decoded, if it has its columns. -/
theorem Field.decode_encode {field : Field} (h : field.wellFormed = true) :
    Field.decode field.encode = .ok field := by
  rw [decode, Field.parse_encode h]
  rfl

/-- A path that is written is decoded. -/
theorem JoinPath.decode_encode (path : JoinPath) : JoinPath.decode path.encode = .ok path := by
  have hsteps : ∀ step ∈ path, JoinStep.decode step.encode = .ok (id step) := by
    intro step _
    rw [JoinStep.decode, JoinStep.parse_encode]
    rfl
  have hpath := Except.mapM_map_ok id hsteps
  rw [List.map_id] at hpath
  exact hpath

/-- An operator is decoded from its name. -/
theorem SearchOperator.asVariant_wireName (op : SearchOperator) :
    Json.asVariant SearchOperator.named (.str op.wireName) = .ok op := by
  cases op <;> rfl

/-- So is a direction. -/
theorem SortKey.decodeDirection_wireName (d : Direction) :
    decodeDirection (.str d.wireName) = .ok (some d) := by
  cases d <;> rfl

/-! ### Records -/

namespace Criterion

variable {c : Criterion}

/-- No field of a written criterion is at fault. -/
theorem check_fields (h : c.field.wellFormed = true) :
    Json.Record.check recordFields c.fields = .ok () := by
  refine Json.Record.check_ok ?_
  simp only [fields, List.forall_mem_cons]
  refine ⟨?_, ?_, ?_, ?_, ?_, List.forall_mem_nil _⟩
  · exact Json.Record.entryFault_of_ok rfl (Field.decode_encode h)
  · exact Json.Record.entryFault_of_ok rfl c.path.decode_encode
  · exact Json.Record.entryFault_of_ok rfl c.operator.asVariant_wireName
  · exact Json.Record.entryFault_of_ok rfl c.term.decode_encode
  · exact Json.Record.entryFault_of_ok rfl c.combine.asVariant_wireName

/-- A criterion that is written is decoded, with its term settled. -/
theorem decode_encode (h : c.field.wellFormed = true) : decode c.encode = .ok c.settled := by
  have hfield : Json.Record.required c.fields "field" Field.decode = .ok c.field :=
    Field.decode_encode h
  have hpath : Json.Record.optional c.fields "assoc" JoinPath.decode [] = .ok c.path :=
    c.path.decode_encode
  have hoperator : Json.Record.required c.fields "search_type"
      (Json.asVariant SearchOperator.named) = .ok c.operator := c.operator.asVariant_wireName
  have hterm : Json.Record.required c.fields "search_term" Term.decode = .ok c.term.settled :=
    c.term.decode_encode
  have hcombine : Json.Record.optional c.fields "search_expr" (Json.asVariant Combine.named) .and =
      .ok c.combine := c.combine.asVariant_wireName
  show ofFields c.fields = _
  rw [ofFields, check_fields h, hfield, hpath, hoperator, hterm, hcombine]
  rfl

end Criterion

namespace SortKey

variable {key : SortKey}

/-- No field of a written key is at fault, with or without a direction. -/
theorem check_fields (h : key.field.wellFormed = true) :
    Json.Record.check recordFields key.fields = .ok () := by
  have hfield : Json.Record.entryFault recordFields "field" key.field.encode = none :=
    Json.Record.entryFault_of_ok rfl (Field.decode_encode h)
  have hpath : Json.Record.entryFault recordFields "assoc" key.path.encode = none :=
    Json.Record.entryFault_of_ok rfl key.path.decode_encode
  refine Json.Record.check_ok ?_
  rw [fields]
  cases key.direction with
  | none =>
    simp only [List.append_nil, List.cons_append, List.nil_append, List.forall_mem_cons]
    exact ⟨hfield, hpath, rfl, List.forall_mem_nil _⟩
  | some d =>
    simp only [List.cons_append, List.nil_append, List.forall_mem_cons]
    exact ⟨hfield, hpath, Json.Record.entryFault_of_ok rfl (decodeDirection_wireName d), rfl,
      List.forall_mem_nil _⟩

/-- A key that is written is decoded. -/
theorem decode_encode (h : key.field.wellFormed = true) : decode key.encode = .ok key := by
  have hfield : Json.Record.required key.fields "field" Field.decode = .ok key.field :=
    Field.decode_encode h
  have hpath : Json.Record.optional key.fields "assoc" JoinPath.decode [] = .ok key.path := by
    rw [Json.Record.optional, key.get?_fields_assoc]
    exact key.path.decode_encode
  have hdirection : Json.Record.optional key.fields "order" decodeDirection none =
      .ok key.direction := by
    rw [Json.Record.optional, key.get?_fields_order]
    cases key.direction with
    | none => rfl
    | some d => exact decodeDirection_wireName d
  have hcase : Json.Record.optional key.fields "ci" Json.asBool false = .ok key.ignoreCase := by
    rw [Json.Record.optional, key.get?_fields_ci]
    rfl
  show ofFields key.fields = _
  rw [ofFields, check_fields h, hfield, hpath, hdirection, hcase]
  rfl

end SortKey

/-- A page that is written is decoded, with its totals. -/
theorem OffsetPage.decode_encode (p : OffsetPage) : decode p.encode = .ok p := rfl

/-! ### Lists of records -/

/-- The criteria of a search whose names are not repeated are decoded, with their terms settled. -/
theorem Criteria.decode_encode {criteria : Criteria} (hnames : (Dict.keys criteria).Nodup)
    (hfields : ∀ entry ∈ criteria, entry.2.field.wellFormed = true) :
    decode (encode criteria) = .ok (criteria.map fun entry => (entry.1, entry.2.settled)) := by
  -- the document is an object, so it keeps all entries only if no name is repeated
  have hentries : Dict.ofEntries (criteria.map fun entry => (entry.1, entry.2.encode)) =
      criteria.map fun entry => (entry.1, entry.2.encode) := by
    refine Dict.ofEntries_of_nodup ?_
    simpa [Dict.keys, Function.comp_def] using hnames
  have hread : ∀ entry ∈ criteria,
      decodeEntry (entry.1, entry.2.encode) = .ok (entry.1, entry.2.settled) := by
    intro entry hentry
    rw [decodeEntry, Criterion.decode_encode (hfields entry hentry)]
  rw [encode, hentries]
  exact Except.mapM_map_ok _ hread

/-- They are decoded as they were, if the floats of their terms are numbers. -/
theorem Criteria.decode_encode_of_isFinite {criteria : Criteria}
    (hnames : (Dict.keys criteria).Nodup) (hentries : ∀ entry ∈ criteria,
      entry.2.field.wellFormed = true ∧ entry.2.term.isFinite = true) :
    decode (encode criteria) = .ok criteria := by
  have hfields : ∀ entry ∈ criteria, entry.2.field.wellFormed = true :=
    fun entry hentry => (hentries entry hentry).1
  -- on the way terms are settled, which changes none whose floats are numbers
  have hsettled : ∀ entry ∈ criteria, (entry.1, entry.2.settled) = entry := by
    intro entry hentry
    rw [Criterion.settled, Term.settled_of_isFinite (hentries entry hentry).2]
  rw [decode_encode hnames hfields, List.map_congr_left hsettled, List.map_id']

/-- The keys of an ordering are decoded. -/
theorem SortKeys.decode_encode {keys : List SortKey}
    (hfields : ∀ key ∈ keys, key.field.wellFormed = true) : decode (encode keys) = .ok keys := by
  have hread : ∀ key ∈ keys, SortKey.decode key.encode = .ok (id key) :=
    fun key hkey => SortKey.decode_encode (hfields key hkey)
  have hkeys := Except.mapM_map_ok id hread
  rw [List.map_id] at hkeys
  exact hkeys

/-! ### Parameters of a hook -/

namespace Builtin

/-- The parameters that a hook normalises requests to. -/
abbrev Parameters : Builtin → Type
  | search | lenientSearch => Criteria
  | sort | lenientSort => List SortKey
  | offsetPage => OffsetPage
  | keysetPage => KeysetPage

/-- The document of some parameters. -/
def encode : (b : Builtin) → b.Parameters → Json
  | search | lenientSearch => Criteria.encode
  | sort | lenientSort => SortKeys.encode
  | offsetPage => OffsetPage.encode
  | keysetPage => KeysetPage.encode

/-- The parameters of a document. -/
def decode : (b : Builtin) → Json → Except DecodeError b.Parameters
  | search | lenientSearch => Criteria.decode
  | sort | lenientSort => SortKeys.decode
  | offsetPage => OffsetPage.decode
  | keysetPage => KeysetPage.decode

/-- What a hook does with its parameters. -/
def apply : (b : Builtin) → Query → b.Parameters → Except Error Query
  | search => Query.searchAll
  | lenientSearch => Query.searchAllLeniently
  | sort | lenientSort => Query.sortAll
  | offsetPage => fun q p => .ok (q.page p)
  | keysetPage => Query.pageAfter

/-- A hook does with a document what it does with the parameters of the document. -/
theorem run_eq (b : Builtin) (q : Query) (document : Json) :
    b.run q document = decoded (b.decode document) >>= b.apply q := by
  cases b with
  | offsetPage =>
    -- the one hook that cannot refuse what it has read
    show (decoded (OffsetPage.decode document)).map q.page =
      decoded (OffsetPage.decode document) >>= fun p => .ok (q.page p)
    cases decoded (OffsetPage.decode document) with
    | ok p => rfl
    | error e => rfl
  | _ => rfl

/-- A hook that accepts a document reads parameters from it and applies them. -/
theorem run_ok {b : Builtin} {q r : Query} {document : Json} (h : b.run q document = .ok r) :
    ∃ p, b.decode document = .ok p ∧ b.apply q p = .ok r := by
  rw [run_eq] at h
  cases hread : b.decode document with
  | ok p =>
    rw [hread] at h
    exact ⟨p, rfl, h⟩
  | error e =>
    rw [hread] at h
    cases h

/-- The parameters have a document of their own: names are not repeated, computed fields have the
columns that their template takes, and floats are numbers. -/
def Writable : (b : Builtin) → b.Parameters → Prop
  | search | lenientSearch => fun criteria => (Dict.keys criteria).Nodup ∧
      ∀ entry ∈ criteria, entry.2.field.wellFormed = true ∧ entry.2.term.isFinite = true
  | sort | lenientSort => fun keys => ∀ key ∈ keys, key.field.wellFormed = true
  | offsetPage => fun _ => True
  | keysetPage => fun p => p.lastSeenKey.isFinite = true

/-- Parameters that have a document of their own are read from it. -/
theorem decode_encode {b : Builtin} {p : b.Parameters} (h : b.Writable p) :
    b.decode (b.encode p) = .ok p := by
  cases b with
  | search | lenientSearch => exact Criteria.decode_encode_of_isFinite h.1 h.2
  | sort | lenientSort => exact SortKeys.decode_encode h
  | offsetPage => exact OffsetPage.decode_encode p
  | keysetPage =>
    have hlast : p.lastSeenKey.settled = p.lastSeenKey := Term.settled_of_isFinite h
    show KeysetPage.decode p.encode = _
    rw [KeysetPage.decode_encode, hlast]

/-- **Documents lose nothing.** Parameters that a hook makes (`Builtin.Writable`) are read from
their document as they were, and `Builtin.run` does with the document, to every query, what
`Builtin.apply` does with the parameters. -/
theorem run_encode {b : Builtin} {p : b.Parameters} (h : b.Writable p) :
    b.decode (b.encode p) = .ok p ∧ ∀ q, b.run q (b.encode p) = b.apply q p := by
  have hread := decode_encode h
  refine ⟨hread, ?_⟩
  intro q
  rw [run_eq, hread]
  rfl

/-- Criteria with nested lists, a float, a computed field along two kinds of joins, and an operator
that its term does not fit. -/
def nestedCriteria : Criteria :=
  [("b", ⟨.computed .concatTwo ["sku", "name"], [⟨.left, "category"⟩, ⟨.inner, "maker"⟩], .isIn,
      .list [.list [.float (.ofRatio true 1 10), .text "7"], .null, .list []], .or⟩),
    ("a", ⟨.column "price", [], .eq, .list [.int 7, .bool true], .andNot⟩)]

/-- A list in a list, a computed field and a path of two steps come back as they were. -/
theorem run_encode_nested : search.Writable nestedCriteria ∧
    search.decode (search.encode nestedCriteria) = .ok nestedCriteria ∧
    ∀ q, search.run q (search.encode nestedCriteria) = search.apply q nestedCriteria := by
  have hwritable : search.Writable nestedCriteria := by
    refine ⟨by decide, ?_⟩
    simp only [nestedCriteria, List.forall_mem_cons]
    decide +kernel
  exact ⟨hwritable, run_encode hwritable⟩

end Builtin

end Listing
