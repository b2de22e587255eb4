import Listing.Proofs.Ident
import Listing.Proofs.Query.Deferred
import Listing.Proofs.Sql.Resolved

namespace Listing

/-!
# Tags of searched fields

A search puts one text for path and field together on its condition.  The parts of the text are
closed by separators, so it can be taken apart again if no part goes on like the text that follows
it.  Columns are identifiers, which do not; but associations and computed fields may have any name.

* `SearchedField` — a path with a field, and `SearchedField.tag`, its text;
* `Registry.Leads` — a path that can be joined, with a field that can be resolved at its end;
* `Query.leads_of_search` — what a criterion searches, if it is accepted and no join fails;
* `Registry.Legible` — no name of an association or a computed field can be taken for more;
* `SearchedField.tag_inj` — then the tag tells path and field.
-/

/-! ### Separators -/

section Separators

variable {α : Type} {sep : α} {a b x y : List α}

/-- Two texts with separators after their first parts have the same first part, unless the one first
part goes on like the other one with the separator. -/
theorem split_unique (hab : ¬ a ++ [sep] <+: b) (hba : ¬ b ++ [sep] <+: a)
    (h : a ++ sep :: x = b ++ sep :: y) : a = b ∧ x = y := by
  rcases List.append_eq_append_iff.mp h with ⟨more, rfl, hrest⟩ | ⟨more, rfl, hrest⟩
  · cases more with
    | nil => exact ⟨(List.append_nil a).symm, (List.cons.inj hrest).2⟩
    | cons c more =>
      obtain ⟨rfl, -⟩ := List.cons.inj hrest
      exact absurd ⟨more, by simp⟩ hab
  · cases more with
    | nil => exact ⟨List.append_nil b, (List.cons.inj hrest).2.symm⟩
    | cons c more =>
      obtain ⟨rfl, -⟩ := List.cons.inj hrest
      exact absurd ⟨more, by simp⟩ hba

/-- A text without the separator does not begin with anything that ends in it. -/
theorem not_prefix_of_not_mem (h : sep ∉ b) : ¬ a ++ [sep] <+: b := by
  intro hstarts
  exact h (hstarts.subset (List.mem_append_right a List.mem_cons_self))

end Separators

/-! ### Identifiers -/

namespace Ident

/-- An identifier is a bare word, or its name between quotes. -/
theorem toList_of_parse {text : String} {i : Ident} (h : parse text = .ok i) :
    IsBareWord text.toList ∨
      ∃ name : List Char, text.toList = '"' :: (doubled name ++ ['"']) := by
  have htext := text_of_parse h
  rcases cases_of_parse h with ⟨-, hword⟩ | ⟨name, rfl, -⟩
  · exact .inl hword
  · refine .inr ⟨name.toList, ?_⟩
    rw [← htext, Ident.text, String.toList_ofList]

/-- No identifier starts with a text that ends in a character which does not stand in words, unless
that text opens with a quote. -/
theorem not_prefix_of_parse {text : String} {i : Ident} (h : parse text = .ok i) {c : Char}
    {word : List Char} (hquote : (word ++ [c]).head? ≠ some '"') (hstart : isStart c = false)
    (hpart : isPart c = false) : ¬ word ++ [c] <+: text.toList := by
  intro hstarts
  rcases toList_of_parse h with hword | ⟨name, hquoted⟩
  · exact not_prefix_of_not_mem (not_mem_of_isBareWord hword hstart hpart) hstarts
  · obtain ⟨rest, hrest⟩ := hstarts
    rw [hquoted] at hrest
    cases hword : word ++ [c] with
    | nil => simp at hword
    | cons d more =>
      rw [hword] at hrest hquote
      exact hquote (congrArg some (List.cons.inj hrest).1)

/-- An identifier before a comma ends there. -/
theorem comma_unique {first second : String} {i j : Ident} (hi : parse first = .ok i)
    (hj : parse second = .ok j) {x y : List Char}
    (h : first.toList ++ ',' :: x = second.toList ++ ',' :: y) : first = second ∧ x = y := by
  -- a bare word does not begin with a quote
  have hmixed {word name u v : List Char} (hword : IsBareWord word)
      (h : word ++ u = '"' :: (doubled name ++ ['"']) ++ v) : False := by
    obtain ⟨c, rest, rfl, hc, -⟩ := hword
    obtain ⟨rfl, -⟩ := List.cons.inj h
    cases hc
  rcases toList_of_parse hi with hfirst | ⟨name, hfirst⟩ <;>
    rcases toList_of_parse hj with hsecond | ⟨other, hsecond⟩
  · have hbare {word : List Char} (hword : IsBareWord word) : ',' ∉ word :=
      not_mem_of_isBareWord hword rfl rfl
    obtain ⟨hsame, hrest⟩ := split_unique (not_prefix_of_not_mem (hbare hsecond))
      (not_prefix_of_not_mem (hbare hfirst)) h
    exact ⟨String.toList_inj.mp hsame, hrest⟩
  · rw [hsecond] at h
    exact (hmixed hfirst h).elim
  · rw [hfirst] at h
    exact (hmixed hsecond h.symm).elim
  · -- the quotes are read again, which gives the names and what follows them
    have hread {name : List Char} (x : List Char) :
        body (doubled name ++ '"' :: ',' :: x) = .ok (name, ',' :: x) :=
      body_doubled name (',' :: x) (by simp)
    have htail : doubled name ++ '"' :: ',' :: x = doubled other ++ '"' :: ',' :: y := by
      rw [hfirst, hsecond] at h
      simpa using h
    have hboth := (hread x).symm.trans ((congrArg body htail).trans (hread y))
    obtain ⟨rfl, hrest⟩ := Prod.mk.inj (Except.ok.inj hboth)
    exact ⟨String.toList_inj.mp (hfirst.trans hsecond.symm), (List.cons.inj hrest).2⟩

/-- Identifiers with commas between them can be told apart, if there are as many. -/
theorem commas_unique {names others : List String} (hlength : names.length = others.length)
    (hnames : ∀ name ∈ names, ∃ i, parse name = .ok i)
    (hothers : ∀ name ∈ others, ∃ i, parse name = .ok i)
    (h : List.intercalate [','] (names.map String.toList) =
      List.intercalate [','] (others.map String.toList)) : names = others := by
  induction names generalizing others with
  | nil => exact (List.length_eq_zero_iff.mp hlength.symm).symm
  | cons first rest ih =>
    cases others with
    | nil => cases hlength
    | cons first' rest' =>
      obtain ⟨⟨i, hi⟩, hrest⟩ := List.forall_mem_cons.mp hnames
      obtain ⟨⟨j, hj⟩, hrest'⟩ := List.forall_mem_cons.mp hothers
      have hlengths : rest.length = rest'.length := Nat.succ.inj hlength
      cases rest with
      | nil =>
        cases List.length_eq_zero_iff.mp hlengths.symm
        simp only [List.map_cons, List.map_nil, List.intercalate_singleton] at h
        rw [String.toList_inj.mp h]
      | cons second more =>
        cases rest' with
        | nil => cases hlengths
        | cons second' more' =>
          simp only [List.map_cons, List.intercalate_cons_cons, List.append_assoc,
            List.singleton_append] at h
          -- the first names end at one comma, and the others are compared by induction
          obtain ⟨rfl, htail⟩ := comma_unique hi hj h
          rw [ih hlengths hrest hrest' htail]

end Ident

/-! ### Searched fields -/

/-- What a criterion searches: a field at the end of a path. -/
structure SearchedField where
  path : JoinPath
  field : Field
  deriving DecidableEq, Repr

namespace SearchedField

/-- The text of path and field. -/
def tag (s : SearchedField) : String :=
  String.join (s.path.map Criterion.stepTag) ++ Criterion.fieldTag s.field

/-- Without a path the tag is that of the field. -/
theorem toList_tag_nil (field : Field) :
    (tag ⟨[], field⟩).toList = (Criterion.fieldTag field).toList := by
  simp [tag]

/-- A step is written before the rest, with its kind and its relation. -/
theorem toList_tag_cons (step : JoinStep) (rest : JoinPath) (field : Field) :
    (tag ⟨step :: rest, field⟩).toList =
      step.kind.wireName.toList ++ ':' :: (step.relation.toList ++ '/' ::
        (tag ⟨rest, field⟩).toList) := by
  simp [tag, Criterion.stepTag]

end SearchedField

/-- What the criterion searches. -/
def Criterion.searched (c : Criterion) : SearchedField := ⟨c.path, c.field⟩

/-- The tag of a criterion is that of the field that it searches. -/
theorem Criterion.tag_eq (c : Criterion) : c.tag = c.searched.tag := rfl

/-! ### Fields of entities -/

namespace Registry

variable {r : Registry} {entity : String}

/-- The field can be resolved on an entity: it is a column that is an identifier, or the name of a
computed field, or a template with as many such columns as it takes. -/
inductive Names (r : Registry) (entity : String) : Field → Prop
  | column {name : String} {i : Ident} (h : Ident.parse name = .ok i) :
    Names r entity (.column name)
  | named {name : String} {e : Entity} {field : Field} (he : r.get? entity = some e)
    (h : e.computed? name = some field) : Names r entity (.column name)
  | computed {template : Template} {args : List String} (harity : args.length = template.arity)
    (h : ∀ arg ∈ args, ∃ i, Ident.parse arg = .ok i) : Names r entity (.computed template args)

/-- The path can be joined from an entity, and the field can be resolved where it leads. -/
inductive Leads (r : Registry) : String → JoinPath → Field → Prop
  | here {entity : String} {field : Field} (h : r.Names entity field) : Leads r entity [] field
  | step {entity : String} {s : JoinStep} {a : Association} {rest : JoinPath} {field : Field}
    (ha : r.association? ⟨entity, s.relation⟩ = some a) (h : Leads r a.target rest field) :
    Leads r entity (s :: rest) field

end Registry

namespace Query

variable {q r : Query}

/-- A field that becomes an operand can be resolved on the entity of the row source. -/
theorem names_of_operand {b : Binding} {field : Field} {x : Sql.Operand}
    (h : q.operand b field = .ok x) : q.registry.Names b.entity field := by
  have hparse {name : String} {y : Sql.Operand} (h : columnOperand b name = .ok y) :
      ∃ i, Ident.parse name = .ok i := by
    unfold columnOperand at h
    split at h
    · exact ⟨_, ‹_›⟩
    · cases h
  unfold operand fieldAt at h
  cases field with
  | column name =>
    -- a name that stands for a computed field need not read as an identifier
    cases hfield : (q.entityOf b).bind fun entity => entity.computed? name with
    | some field =>
      obtain ⟨e, he, hcomputed⟩ := Option.bind_eq_some_iff.mp hfield
      exact .named he hcomputed
    | none =>
      simp only [hfield, Option.getD_none] at h
      exact .column (hparse h).choose_spec
  | computed template args =>
    obtain ⟨columns, hcolumns, hmore⟩ := Except.bind_ok h
    refine .computed ?_ ?_
    · have hlength := Sql.Operand.isSome_ofTemplate? template columns
      rw [← Except.length_mapM hcolumns]
      split at hmore
      · rename_i y hy
        rw [hy] at hlength
        exact eq_of_beq hlength.symm
      · cases hmore
    · intro arg harg
      obtain ⟨y, -, hy⟩ := Except.mapM_ok_of_mem hcolumns harg
      exact hparse hy

/-- Where no join has failed, the path has been joined, and the field resolved at its end. -/
theorem leads_of_followFrom {start : Binding} {path : JoinPath} {field : Field} {x : Sql.Operand}
    (hfault : (q.followFrom start path).1.fault = none)
    (h : (q.followFrom start path).1.operand (q.followFrom start path).2 field = .ok x) :
    q.registry.Leads start.entity path field := by
  unfold followFrom at hfault h
  induction path generalizing q start with
  | nil => exact .here (names_of_operand h)
  | cons s rest ih =>
    obtain ⟨hgrows, hreached⟩ := grows_join q s.kind start s.relation
    have hrest : (q.join s.kind start s.relation).1.registry.Leads
        (q.join s.kind start s.relation).2.entity rest field := ih hfault h
    -- no fault in the end means none in this join
    have hlater := (grows_followFrom (q.join s.kind start s.relation).1
      (q.join s.kind start s.relation).2 rest).fault_eq
    have hnone := (Option.or_eq_none_iff.mp (hlater.symm.trans hfault)).1
    rw [hgrows.fault_eq, Option.or_eq_none_iff, List.findSome?_singleton] at hnone
    obtain ⟨source, a, hsource, hrelation, -⟩ := Registry.faultOf_eq_none_iff.mp hnone.2
    have ha : q.registry.association? ⟨start.entity, s.relation⟩ = some a :=
      Registry.association?_eq_some_iff.mpr ⟨source, hsource, hrelation⟩
    rw [hgrows.registry_eq, hreached, Registry.reached, ha] at hrest
    exact .step ha hrest

/-- A criterion that is accepted, with no join failing, searches a field that there is. -/
theorem leads_of_search {c : Criterion} (hblank : c.term.isBlank = false)
    (h : q.search c = .ok r) (hvalid : r.validate = .ok ()) :
    q.registry.Leads q.base.entity c.path c.field := by
  rcases search_ok h with ⟨hblank', -⟩ | ⟨-, -, operand, condition, hoperand, -, rfl⟩
  · rw [hblank] at hblank'
    cases hblank'
  · refine leads_of_followFrom ?_ hoperand
    obtain ⟨conjuncts, hattach⟩ :=
      attach_frame (q.follow c.path).1 c.tag c.combine condition
    rw [hattach] at hvalid
    exact validate_eq_ok_iff.mp hvalid

end Query

/-! ### Legible names -/

/-- No name of the entity can be taken for more than a name: no association has the name of another
one with a slash and more behind it, and no computed field has a name that starts like the step of a
path or like a template with its columns. -/
structure Entity.Legible (e : Entity) : Prop where
  associations : ∀ a ∈ Dict.keys e.associations, ∀ b ∈ Dict.keys e.associations,
    ¬ a.toList ++ ['/'] <+: b.toList
  steps : ∀ name ∈ Dict.keys e.computed, ∀ kind : JoinKind,
    ¬ kind.wireName.toList ++ [':'] <+: name.toList
  templates : ∀ name ∈ Dict.keys e.computed, ∀ template : Template,
    ¬ template.wireName.toList ++ ['('] <+: name.toList

/-- The steps along two associations of an entity are the same if their texts are, whatever follows
them. -/
theorem Entity.Legible.step_unique {e : Entity} (he : e.Legible) {s t : JoinStep} {x y : List Char}
    (hs : s.relation ∈ Dict.keys e.associations) (ht : t.relation ∈ Dict.keys e.associations)
    (h : s.kind.wireName.toList ++ ':' :: (s.relation.toList ++ '/' :: x) =
      t.kind.wireName.toList ++ ':' :: (t.relation.toList ++ '/' :: y)) : s = t ∧ x = y := by
  -- the kind ends at the first colon, the relation at the first slash
  have hplain (kind : JoinKind) : ':' ∉ kind.wireName.toList := by cases kind <;> decide
  obtain ⟨kind, relation⟩ := s
  obtain ⟨kind', relation'⟩ := t
  obtain ⟨hkind, htail⟩ := split_unique (not_prefix_of_not_mem (hplain kind'))
    (not_prefix_of_not_mem (hplain kind)) h
  obtain ⟨hname, hrest⟩ :=
    split_unique (he.associations _ hs _ ht) (he.associations _ ht _ hs) htail
  have hread := congrArg JoinKind.ofName? (String.toList_inj.mp hkind)
  rw [JoinKind.ofName?_wireName, JoinKind.ofName?_wireName] at hread
  cases hread
  cases String.toList_inj.mp hname
  exact ⟨rfl, hrest⟩

namespace Registry

variable {r : Registry} {entity : String} {field : Field}

/-- All entities have legible names. -/
def Legible (r : Registry) : Prop := ∀ entry ∈ r.entities, entry.2.Legible

/-- The entities of a legible registry are legible. -/
theorem Legible.of_get? (h : r.Legible) {e : Entity} (he : r.get? entity = some e) : e.Legible :=
  h _ (Dict.mem_of_get? he)

/-- The text of a field does not start like the step of a path. -/
theorem Names.not_step (hr : r.Legible) (h : r.Names entity field) (kind : JoinKind) :
    ¬ kind.wireName.toList ++ [':'] <+: (Criterion.fieldTag field).toList := by
  cases h with
  | column h => exact Ident.not_prefix_of_parse h (by cases kind <;> decide) rfl rfl
  | named he h => exact (hr.of_get? he).steps _ (List.mem_map_of_mem (Dict.mem_of_get? h)) kind
  | @computed template args _ _ =>
    intro hstarts
    cases kind <;> cases template <;>
      simp [Criterion.fieldTag, JoinKind.wireName, Template.wireName] at hstarts

/-- The name of a column does not start like a template with its columns. -/
theorem Names.not_template (hr : r.Legible) {name : String} (h : r.Names entity (.column name))
    (template : Template) : ¬ template.wireName.toList ++ ['('] <+: name.toList := by
  cases h with
  | column h => exact Ident.not_prefix_of_parse h (by cases template <;> decide) rfl rfl
  | named he h =>
    exact (hr.of_get? he).templates _ (List.mem_map_of_mem (Dict.mem_of_get? h)) template

/-- The texts of two fields of an entity are the same only if the fields are. -/
theorem Names.field_inj (hr : r.Legible) {other : Field} (h : r.Names entity field)
    (hother : r.Names entity other)
    (heq : Criterion.fieldTag field = Criterion.fieldTag other) : field = other := by
  have htext (template : Template) (args : List String) :
      (Criterion.fieldTag (.computed template args)).toList = template.wireName.toList ++
        '(' :: (List.intercalate [','] (args.map String.toList) ++ [')']) := by
    simp [Criterion.fieldTag, String.toList_intercalate]
  have hcalled (template : Template) (args : List String) : template.wireName.toList ++ ['('] <+:
      (Criterion.fieldTag (.computed template args)).toList :=
    ⟨_, by rw [htext, List.append_assoc]; rfl⟩
  -- only a template has a bracket after its name, so fields of different kinds differ
  cases field with
  | column name =>
    cases other with
    | column name' => exact congrArg Field.column heq
    | computed template args =>
      refine absurd (hcalled template args) ?_
      rw [← heq]
      exact h.not_template hr template
  | computed template args =>
    cases other with
    | column name =>
      refine absurd (hcalled template args) ?_
      rw [heq]
      exact hother.not_template hr template
    | computed template' args' =>
      have hplain (t : Template) : '(' ∉ t.wireName.toList := by cases t <;> decide
      rw [← String.toList_inj, htext, htext] at heq
      obtain ⟨hname, hargs⟩ := split_unique (not_prefix_of_not_mem (hplain template'))
        (not_prefix_of_not_mem (hplain template)) heq
      have htemplate : template = template' := by
        have hread := congrArg Template.ofName? (String.toList_inj.mp hname)
        simpa using hread
      cases h with
      | computed harity hparse =>
        cases hother with
        | computed harity' hparse' =>
          rw [htemplate, Ident.commas_unique (by rw [harity, harity', htemplate]) hparse hparse'
            (List.append_cancel_right hargs)]

end Registry

namespace SearchedField

variable {r : Registry} {entity : String} {s t : SearchedField}

/-- With legible names the texts of two searched fields of an entity are the same only if paths and
fields are. -/
theorem tag_inj (hr : r.Legible) (hs : r.Leads entity s.path s.field)
    (ht : r.Leads entity t.path t.field) (h : s.tag = t.tag) : s = t := by
  obtain ⟨path, field⟩ := s
  obtain ⟨path', field'⟩ := t
  rw [← String.toList_inj] at h
  have hstep (step : JoinStep) (rest : JoinPath) (field : Field) :
      step.kind.wireName.toList ++ [':'] <+: (tag ⟨step :: rest, field⟩).toList :=
    ⟨_, by rw [toList_tag_cons, List.append_assoc]; rfl⟩
  induction path generalizing entity path' with
  | nil =>
    -- a field at the start cannot be taken for a step away from it
    cases hs with
    | here hfield =>
      cases path' with
      | nil =>
        cases ht with
        | here hfield' =>
          rw [toList_tag_nil, toList_tag_nil, String.toList_inj] at h
          exact congrArg (SearchedField.mk []) (hfield.field_inj hr hfield' h)
      | cons step rest =>
        refine absurd (hstep step rest field') ?_
        rw [← h, toList_tag_nil]
        exact hfield.not_step hr step.kind
  | cons step rest ih =>
    cases path' with
    | nil =>
      cases ht with
      | here hfield' =>
        refine absurd (hstep step rest field) ?_
        rw [h, toList_tag_nil]
        exact hfield'.not_step hr step.kind
    | cons step' rest' =>
      cases hs with
      | step ha hrest =>
        cases ht with
        | step ha' hrest' =>
          -- both relations are associations of the one entity, so neither goes on like the other
          obtain ⟨e, he, hrelation⟩ := Registry.association?_eq_some_iff.mp ha
          obtain ⟨e', he', hrelation'⟩ := Registry.association?_eq_some_iff.mp ha'
          cases he.symm.trans he'
          rw [toList_tag_cons, toList_tag_cons] at h
          obtain ⟨rfl, htail⟩ := (hr.of_get? he).step_unique
            (List.mem_map_of_mem (Dict.mem_of_get? hrelation))
            (List.mem_map_of_mem (Dict.mem_of_get? hrelation')) h
          cases ha.symm.trans ha'
          obtain ⟨rfl, rfl⟩ := SearchedField.mk.inj (ih hrest rest' hrest' htail)
          rfl

end SearchedField

end Listing
