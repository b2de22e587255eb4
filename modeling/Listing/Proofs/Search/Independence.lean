import Listing.Page.Stage
import Listing.Proofs.Outcome
import Listing.Proofs.Query.Erasure
import Listing.Search.Compile

namespace Listing

/-!
# Terms stay out of statements

Two requests that differ only in their terms lead to the same statements, whatever characters the
terms are made of: what a term decides is its shape alone.

* `SearchOperator.SameShape` — two terms that an operator treats alike;
* `Criterion.Alike`, `Criterion.LenientlyAlike` — two criteria that differ in their terms at most;
* `Query.Alike` — two queries that differ in their terms at most;
* `Query.SameText` — two such queries with equal statements;
* `Query.search_agree` and the lemmas beside it — each step keeps queries alike;
* `Query.statements_ignore_terms` — so do whole searches and pages by key.
-/

open Sql (Condition)

/-! ### Shapes of terms -/

namespace SearchOperator

/-- What an operator looks at in a term that is not blank is the same in both. -/
def SameView (operator : SearchOperator) (t u : Term) : Prop :=
  match operator with
  | .isNull => t.bool? = u.bool?
  | .isIn | .notIn => t.items?.map List.length = u.items?.map List.length
  | _ => operator.fits t = operator.fits u

/-- The terms are both blank, or both not blank and viewed alike. -/
def SameShape (operator : SearchOperator) (t u : Term) : Prop :=
  t.isBlank = u.isBlank ∧ (t.isBlank = false → operator.SameView t u)

variable {operator : SearchOperator} {t u : Term}

/-- Every term looks to an operator like itself. -/
theorem sameView_refl (operator : SearchOperator) (t : Term) : operator.SameView t t := by
  cases operator <;> rfl

/-- A term is a list if it has items. -/
theorem isList_eq (t : Term) : t.isList = (t.items?.map List.length).isSome := by
  cases t <;> rfl

/-- Terms that are viewed alike both have the shape that the operator needs, or both do not. -/
theorem SameView.fits_eq (h : operator.SameView t u) : operator.fits t = operator.fits u := by
  cases operator with
  | isNull => exact congrArg Option.isSome h
  | isIn | notIn =>
    show t.isList = u.isList
    rw [isList_eq, isList_eq, h]
  | _ => exact h

/-- Bounds are a list of two. -/
theorem items?_of_fits_between (h : fits .between t = true) :
    ∃ low high, t.items? = some [low, high] := by
  cases t with
  | list items =>
    match items with
    | [low, high] => exact ⟨low, high, rfl⟩
    | [] | [_] | _ :: _ :: _ :: _ => simp [fits] at h
  | _ => cases h

/-- A list has items. -/
theorem items?_of_isList (h : t.isList = true) : ∃ items, t.items? = some items := by
  cases t with
  | list items => exact ⟨items, rfl⟩
  | _ => cases h

/-- Of a list, a condition without its terms has nothing but the length. -/
theorem erased_membership (lhs : Sql.Operand) (negated : Bool) {values values' : List Term}
    (h : values.length = values'.length) :
    (if values.isEmpty then Condition.constant negated
      else .inList lhs values negated).erased =
    (if values'.isEmpty then Condition.constant negated
      else .inList lhs values' negated).erased := by
  have hempty : values.isEmpty = values'.isEmpty := by
    cases values <;> cases values' <;> simp at h ⊢
  rw [hempty]
  split
  · rfl
  · rw [Condition.erased, Condition.erased, List.map_const', List.map_const', h]

/-- Terms of the needed shape that are viewed alike give the same condition, but for the terms. -/
theorem condition_agree (lhs : Sql.Operand) (h : operator.SameView t u)
    (hfits : operator.fits t = true) :
    Agree (fun c d : Condition => c.erased = d.erased) (operator.condition lhs t)
      (operator.condition lhs u) := by
  have hfits' : operator.fits u = true := h.fits_eq ▸ hfits
  cases operator with
  | isNull =>
    have hbool : t.bool? = u.bool? := h
    have hequal : condition lhs .isNull t = condition lhs .isNull u := by
      rw [condition, condition, hbool]
    exact (Agree.of_eq hequal).mono fun _ _ => congrArg Condition.erased
  | isIn | notIn =>
    -- only the number of values shows in the text
    obtain ⟨items, hitems⟩ := items?_of_isList hfits
    obtain ⟨items', hitems'⟩ := items?_of_isList hfits'
    have hlength : t.items?.map List.length = u.items?.map List.length := h
    rw [hitems, hitems', Option.map_some, Option.map_some, Option.some.injEq] at hlength
    rw [condition, condition, hitems, hitems']
    exact .ok (erased_membership lhs _ hlength)
  | between =>
    obtain ⟨low, high, hitems⟩ := items?_of_fits_between hfits
    obtain ⟨low', high', hitems'⟩ := items?_of_fits_between hfits'
    rw [condition, condition, hitems, hitems']
    exact .ok rfl
  | like | ilike | eq | gt | lt | gteq | lteq => exact .ok rfl

end SearchOperator

/-! ### Criteria -/

namespace Criterion

/-- The criteria differ in their terms at most, and these have the same shape. -/
structure Alike (c d : Criterion) : Prop where
  field : c.field = d.field
  path : c.path = d.path
  operator : c.operator = d.operator
  combine : c.combine = d.combine
  shape : c.operator.SameShape c.term d.term

/-- The criteria are alike, and of two patterns both are texts or neither is: only a text gets
wildcards. -/
structure LenientlyAlike (c d : Criterion) : Prop extends Alike c d where
  pattern : c.operator = .like ∨ c.operator = .ilike → c.term.text?.isSome = d.term.text?.isSome

variable {c d : Criterion}

/-- Criteria that are alike have one tag, which is made of their paths and fields. -/
theorem Alike.tag_eq (h : c.Alike d) : c.tag = d.tag := by
  rw [tag, tag, h.path, h.field]

/-- Both terms are accepted, or both are refused. -/
theorem Alike.check_agree (h : c.Alike d) :
    Agree (fun _ _ => (c.term.isBlank || c.operator.fits c.term) = true) c.check d.check := by
  obtain ⟨hblank, hview⟩ := h.shape
  have hsame : (c.term.isBlank || c.operator.fits c.term) =
      (d.term.isBlank || d.operator.fits d.term) := by
    rw [← h.operator, ← hblank]
    cases hc : c.term.isBlank with
    | true => rfl
    | false => rw [(hview hc).fits_eq]
  rw [check, check, hsame]
  split
  · rename_i hok
    exact .ok hok
  · exact .error _ _

/-- A pattern with wildcards is never blank. -/
theorem isBlank_wildcards (pattern : String) :
    (Term.text ("%" ++ pattern ++ "%")).isBlank = false := by
  show ("%" ++ pattern ++ "%").isEmpty = false
  simp

/-- Wildcards keep criteria alike. -/
theorem LenientlyAlike.withWildcards (h : c.LenientlyAlike d) :
    c.withWildcards.Alike d.withWildcards := by
  obtain ⟨⟨hfield, hpath, hoperator, hcombine, hshape⟩, hpattern⟩ := h
  obtain ⟨field, path, operator, term, combine⟩ := c
  obtain ⟨field', path', operator', term', combine'⟩ := d
  cases hfield
  cases hpath
  cases hoperator
  cases hcombine
  cases operator with
  | like | ilike =>
    -- either both terms are texts, and get their wildcards, or neither is
    have htext : term.text?.isSome = term'.text?.isSome := hpattern (by simp)
    cases term with
    | text s =>
      cases term' with
      | text s' =>
        refine ⟨rfl, rfl, rfl, rfl, ?_, fun _ => rfl⟩
        exact (isBlank_wildcards s).trans (isBlank_wildcards s').symm
      | _ => cases htext
    | _ =>
      cases term' with
      | text s' => cases htext
      | _ => exact ⟨rfl, rfl, rfl, rfl, hshape⟩
  | _ => exact ⟨rfl, rfl, rfl, rfl, hshape⟩

end Criterion

/-- As many criteria, which are alike one by one; their names are not looked at. -/
def Criteria.Alike (cs ds : Criteria) : Prop :=
  cs.length = ds.length ∧ ∀ pair ∈ cs.zip ds, pair.1.2.Alike pair.2.2

/-- As many criteria, which are alike one by one for a lenient search. -/
def Criteria.LenientlyAlike (cs ds : Criteria) : Prop :=
  cs.length = ds.length ∧ ∀ pair ∈ cs.zip ds, pair.1.2.LenientlyAlike pair.2.2

/-! ### Queries -/

namespace Query

/-- The queries differ in their terms at most. -/
def Alike (q r : Query) : Prop := q.erased = r.erased

/-- The queries differ in their terms at most, and their statements are equal. -/
structure SameText (q r : Query) : Prop where
  alike : q.Alike r
  select : q.selectSql = r.selectSql
  count : q.countSql = r.countSql

/-- Queries that differ in their terms at most have equal statements. -/
theorem Alike.sameText {q r : Query} (h : q.Alike r) : q.SameText r := by
  rw [Alike] at h
  refine ⟨h, ?_, ?_⟩
  · rw [← selectSql_erased, h, selectSql_erased]
  · rw [← countSql_erased, h, countSql_erased]

variable {q r : Query}

/-- Joining along a path keeps queries alike, and reaches the same source. -/
theorem follow_alike (h : q.Alike r) (path : JoinPath) :
    (q.follow path).1.Alike (r.follow path).1 ∧ (q.follow path).2 = (r.follow path).2 := by
  have hpath : q.erased.followFrom q.erased.base path = r.erased.followFrom r.erased.base path := by
    rw [Alike] at h
    rw [h]
  rw [besideJoins_erased.followFrom, besideJoins_erased.followFrom, Prod.mk.injEq] at hpath
  exact hpath

/-- A field is looked up in the registry, by the row source, and so is the same operand for both. -/
theorem operand_alike (h : q.Alike r) (b : Binding) (field : Field) :
    q.operand b field = r.operand b field := by
  rw [Alike] at h
  show q.erased.operand b field = r.erased.operand b field
  rw [h]

/-- Attaching conditions that differ in their terms keeps queries alike. -/
theorem attach_alike (h : q.Alike r) (tag : String) (combine : Combine)
    {c d : Condition} (hc : c.erased = d.erased) :
    (q.attach tag combine c).Alike (r.attach tag combine d) := by
  rw [Alike] at h ⊢
  rw [erased_attach, erased_attach, h, hc]

/-- One criterion of a search keeps queries alike. -/
theorem search_agree (h : q.Alike r) {c d : Criterion} (hcd : c.Alike d) :
    Agree Alike (q.search c) (r.search d) := by
  obtain ⟨hblank, hview⟩ := hcd.shape
  rw [search, search, ← hblank]
  split
  · exact .ok h
  · rename_i hc
    have hc : c.term.isBlank = false := by simpa using hc
    -- check, path, field and condition go alike, one after the other
    refine hcd.check_agree.bind ?_
    intro _ _ hfits
    rw [hc, Bool.false_or] at hfits
    obtain ⟨hjoined, htarget⟩ := follow_alike h c.path
    rw [← hcd.path, ← hcd.field, ← hcd.operator, ← hcd.combine, ← hcd.tag_eq]
    have hoperand : (q.follow c.path).1.operand (q.follow c.path).2 c.field =
        (r.follow c.path).1.operand (r.follow c.path).2 c.field := by
      rw [htarget, operand_alike hjoined]
    refine (Agree.of_eq hoperand).bind ?_
    rintro operand _ rfl
    refine (SearchOperator.condition_agree operand (hview hc) hfits).bind ?_
    intro condition condition' hcondition
    exact .ok (attach_alike hjoined c.tag c.combine hcondition)

/-- Criteria that are alike lead to queries that are alike, or both fail. -/
theorem searchAll_agree (h : q.Alike r) {cs ds : Criteria}
    (hcs : Criteria.Alike cs ds) : Agree Alike (q.searchAll cs) (r.searchAll ds) :=
  Agree.foldlM hcs.1 (fun pair hpair _ _ hqr => search_agree hqr (hcs.2 pair hpair)) h

/-- One criterion of a lenient search keeps queries alike. -/
theorem searchLeniently_agree (h : q.Alike r) {c d : Criterion}
    (hcd : c.LenientlyAlike d) :
    Agree Alike (q.searchLeniently c) (r.searchLeniently d) := by
  have hcheck := hcd.toAlike.check_agree
  rw [searchLeniently, searchLeniently]
  generalize c.check = x at hcheck
  generalize d.check = y at hcheck
  cases hcheck with
  | ok _ => exact search_agree h hcd.withWildcards
  | error _ _ => exact .ok h

/-- So do those of a lenient search. -/
theorem searchAllLeniently_agree (h : q.Alike r) {cs ds : Criteria}
    (hcs : Criteria.LenientlyAlike cs ds) :
    Agree Alike (q.searchAllLeniently cs) (r.searchAllLeniently ds) :=
  Agree.foldlM hcs.1 (fun pair hpair _ _ hqr => searchLeniently_agree hqr (hcs.2 pair hpair)) h

/-- Pages after two keys that are not blank keep queries alike. -/
theorem pageAfter_agree (h : q.Alike r) (p : KeysetPage) {key key' : Term}
    (hkey : key.isBlank = false) (hkey' : key'.isBlank = false) :
    Agree Alike (q.pageAfter { p with lastSeenKey := key })
      (r.pageAfter { p with lastSeenKey := key' }) := by
  -- the one condition that is added compares the same column
  have hafter : Agree Alike
      (q.after { p with lastSeenKey := key }) (r.after { p with lastSeenKey := key' }) := by
    rw [Alike] at h
    have hbase : q.erased.base = r.erased.base := congrArg base h
    change q.base = r.base at hbase
    rw [after, after, if_neg (by simp [hkey]), if_neg (by simp [hkey']), hbase]
    refine (Agree.of_eq rfl).map ?_
    rintro operand _ rfl
    rw [Alike, erased_also, erased_also, h]
    rfl
  refine hafter.map ?_
  intro q' r' hqr
  rw [Alike] at hqr
  show q'.erased.withLimit _ = r'.erased.withLimit _
  rw [hqr]

/-- **Statements ignore terms.** Two searches whose criteria differ in their terms at most, and in
these not by shape (`Criteria.Alike`, and `Criteria.LenientlyAlike` for a lenient one), both fail or
both lead to queries with equal statements (`Query.SameText`); so do two pages by `Query.pageAfter`
after keys that are not blank. -/
theorem statements_ignore_terms (q : Query) :
    (∀ cs ds : Criteria, Criteria.Alike cs ds →
      Agree SameText (q.searchAll cs) (q.searchAll ds)) ∧
    (∀ cs ds : Criteria, Criteria.LenientlyAlike cs ds →
      Agree SameText (q.searchAllLeniently cs) (q.searchAllLeniently ds)) ∧
    ∀ (p : KeysetPage) (key key' : Term), key.isBlank = false → key'.isBlank = false →
      Agree SameText (q.pageAfter { p with lastSeenKey := key })
        (q.pageAfter { p with lastSeenKey := key' }) := by
  refine ⟨?_, ?_, ?_⟩
  · intro cs ds h
    exact (searchAll_agree rfl h).mono fun _ _ => Alike.sameText
  · intro cs ds h
    exact (searchAllLeniently_agree rfl h).mono fun _ _ => Alike.sameText
  · intro p key key' hkey hkey'
    exact (pageAfter_agree rfl p hkey hkey').mono fun _ _ => Alike.sameText

/-- All products. -/
def products : Query :=
  ⟨.empty, ⟨⟨'p', 0⟩, "product"⟩, .empty "product" "products", [], [], [], none, none, none⟩

/-- A search for products by their titles. -/
def titled (operator : SearchOperator) (term : Term) : Criteria :=
  [("title", ⟨.column "title", [], operator, term, .and⟩)]

/-- A term that looks like a part of a statement is bound like any other. -/
theorem statements_ignore_terms_quote :
    (∃ r s, products.searchAll (titled .eq (.text "a")) = .ok r ∧
      products.searchAll (titled .eq (.text "' OR 1=1 --")) = .ok s ∧ r.SameText s) ∧
    (∃ r s, products.searchAllLeniently (titled .like (.text "a")) = .ok r ∧
      products.searchAllLeniently (titled .like (.text "$1")) = .ok s ∧ r.SameText s) ∧
    ∃ r s, products.pageAfter ⟨10, 1, .int 7, "id"⟩ = .ok r ∧
      products.pageAfter ⟨10, 1, .text "7; --", "id"⟩ = .ok s ∧ r.SameText s := by
  obtain ⟨hstrict, hlenient, hpage⟩ := products.statements_ignore_terms
  refine ⟨⟨_, _, rfl, rfl, ?_⟩, ⟨_, _, rfl, rfl, ?_⟩, ⟨_, _, rfl, rfl, ?_⟩⟩
  · refine Agree.of_ok (hstrict (titled .eq (.text "a")) (titled .eq (.text "' OR 1=1 --")) ?_)
    exact ⟨rfl, List.forall_mem_singleton.mpr ⟨rfl, rfl, rfl, rfl, rfl, fun _ => rfl⟩⟩
  · refine Agree.of_ok (hlenient (titled .like (.text "a")) (titled .like (.text "$1")) ?_)
    exact ⟨rfl, List.forall_mem_singleton.mpr
      ⟨⟨rfl, rfl, rfl, rfl, rfl, fun _ => rfl⟩, fun _ => rfl⟩⟩
  · exact Agree.of_ok (hpage ⟨10, 1, .null, "id"⟩ (.int 7) (.text "7; --") rfl rfl)

end Query

end Listing
