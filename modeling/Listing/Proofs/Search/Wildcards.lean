import Listing.Proofs.Search.Blank
import Listing.Proofs.Search.Independence
import Listing.Proofs.Search.Normal

namespace Listing

/-!
# Wildcards around patterns

A lenient search puts wildcards around the patterns of a search and passes over what a strict one
refuses.  Of criteria that the strict one accepts it makes the same statement, and binds the same
terms but for the patterns.

* `Criterion.pattern?`, `Criteria.patterns` — the patterns of a search;
* `Wildcarded` — terms and the same terms with wildcards around some of them;
* `Query.Wildcarded` — queries that differ in such terms at most;
* `Query.Wildcarded.search`, `Query.Wildcarded.searchAll` — a search keeps to this, and a whole one;
* `Query.searchAllLeniently_ok` — a lenient search, as a strict one of patterns with wildcards.
-/

open Sql (Condition)

/-! ### Patterns -/

/-- A pattern with a wildcard on either side. -/
def wildcards (pattern : String) : String := "%" ++ pattern ++ "%"

namespace Criterion

variable {c : Criterion} {p : String}

/-- The text that the criterion compares with as with a pattern. -/
def pattern? (c : Criterion) : Option String :=
  match c.operator, c.term with
  | .like, .text p => some p
  | .ilike, .text p => some p
  | _, _ => none

/-- The pattern of a criterion is the text of its term, for the two operators that have patterns. -/
theorem pattern?_eq_some_iff :
    c.pattern? = some p ↔ (c.operator = .like ∨ c.operator = .ilike) ∧ c.term = .text p := by
  obtain ⟨field, path, operator, term, combine⟩ := c
  cases operator <;> cases term <;> simp [pattern?]

/-- Only a criterion with a pattern is changed, and only in its term. -/
theorem withWildcards_eq (c : Criterion) : c.withWildcards =
    match c.pattern? with
    | some p => { c with term := .text (wildcards p) }
    | none => c := by
  obtain ⟨field, path, operator, term, combine⟩ := c
  cases operator <;> cases term <;> rfl

/-- The empty pattern is the pattern of the empty text. -/
theorem isEmptyPattern_iff_pattern? : c.isEmptyPattern = true ↔ c.pattern? = some "" := by
  rw [isEmptyPattern_iff, pattern?_eq_some_iff]

/-- A blank criterion has no pattern, unless that is empty. -/
theorem pattern?_of_isBlank (h : c.term.isBlank = true) (hpattern : c.isEmptyPattern = false) :
    c.pattern? = none := by
  cases hp : c.pattern? with
  | none => rfl
  | some p =>
    have hterm := (pattern?_eq_some_iff.mp hp).2
    rw [hterm, Term.isBlank] at h
    rw [String.isEmpty_iff.mp h, ← isEmptyPattern_iff_pattern?, hpattern] at hp
    cases hp

/-- Wildcards change the term at most, and no blank one. -/
theorem alike_withWildcards (hpattern : c.isEmptyPattern = false) : c.Alike c.withWildcards := by
  rw [withWildcards_eq]
  cases hp : c.pattern? with
  | none => exact ⟨rfl, rfl, rfl, rfl, rfl, fun _ => SearchOperator.sameView_refl c.operator c.term⟩
  | some p =>
    obtain ⟨hoperator, hterm⟩ := pattern?_eq_some_iff.mp hp
    have hblank : c.term.isBlank = false := by
      by_contra h
      rw [pattern?_of_isBlank (by simpa using h) hpattern] at hp
      cases hp
    -- the wildcards make another text of a text that is not empty, and neither is blank
    refine ⟨rfl, rfl, rfl, rfl, hblank.trans (isBlank_wildcards p).symm, fun _ => ?_⟩
    rw [hterm]
    rcases hoperator with hlike | hilike
    · rw [hlike]
      rfl
    · rw [hilike]
      rfl

end Criterion

namespace Criteria

/-- The patterns of a search, in order. -/
def patterns (criteria : Criteria) : List String := criteria.filterMap fun entry => entry.2.pattern?

/-- The criteria with wildcards around their patterns. -/
def withWildcards (criteria : Criteria) : Criteria :=
  criteria.map fun entry => (entry.1, entry.2.withWildcards)

end Criteria

/-! ### Terms with wildcards -/

/-- The second list is the first with wildcards around the patterns, which are texts of the first in
this order. -/
inductive Wildcarded : List String → List Term → List Term → Prop
  | nil : Wildcarded [] [] []
  | same {ps : List String} {ts us : List Term} (t : Term) (h : Wildcarded ps ts us) :
    Wildcarded ps (t :: ts) (t :: us)
  | pattern {ps : List String} {ts us : List Term} (p : String) (h : Wildcarded ps ts us) :
    Wildcarded (p :: ps) (.text p :: ts) (.text (wildcards p) :: us)

namespace Wildcarded

variable {ps ps' : List String} {ts ts' us us' : List Term}

/-- Equal lists of terms have no pattern between them. -/
theorem refl (ts : List Term) : Wildcarded [] ts ts := by
  induction ts with
  | nil => exact .nil
  | cons t ts ih => exact .same t ih

/-- Two pairs of lists are put together, and so are their patterns. -/
theorem append (h : Wildcarded ps ts us) (h' : Wildcarded ps' ts' us') :
    Wildcarded (ps ++ ps') (ts ++ ts') (us ++ us') := by
  induction h with
  | nil => exact h'
  | same t _ ih => exact .same t ih
  | pattern p _ ih => exact .pattern p ih

end Wildcarded

/-- Conjuncts one by one with the same tags, and with wildcards around the patterns among their
terms. -/
inductive WildcardedConjuncts : List String → List Conjunct → List Conjunct → Prop
  | nil : WildcardedConjuncts [] [] []
  | cons {ps ps' : List String} {x y : Conjunct} {xs ys : List Conjunct} (htag : x.tag = y.tag)
    (hterms : Wildcarded ps x.condition.terms y.condition.terms)
    (h : WildcardedConjuncts ps' xs ys) : WildcardedConjuncts (ps ++ ps') (x :: xs) (y :: ys)

namespace WildcardedConjuncts

variable {ps ps' : List String} {xs ys xs' ys' : List Conjunct} {c d : Condition}

/-- Equal conditions have no pattern between them. -/
theorem refl (xs : List Conjunct) : WildcardedConjuncts [] xs xs := by
  induction xs with
  | nil => exact .nil
  | cons x xs ih => exact .cons rfl (.refl _) ih

/-- So are two pairs of lists of conditions. -/
theorem append (h : WildcardedConjuncts ps xs ys) (h' : WildcardedConjuncts ps' xs' ys') :
    WildcardedConjuncts (ps ++ ps') (xs ++ xs') (ys ++ ys') := by
  induction h with
  | nil => exact h'
  | cons htag hterms _ ih =>
    rw [List.append_assoc]
    exact .cons htag hterms ih

/-- Under one tag the terms of the two conditions decide. -/
theorem singleton (tag : Option String) (h : Wildcarded ps c.terms d.terms) :
    WildcardedConjuncts ps [⟨tag, c⟩] [⟨tag, d⟩] := by
  rw [← List.append_nil ps]
  exact .cons rfl h .nil

/-- What conditions bind differs where their terms differ. -/
theorem boundBy (h : WildcardedConjuncts ps xs ys) :
    Wildcarded ps (Query.boundBy xs) (Query.boundBy ys) := by
  induction h with
  | nil => exact .nil
  | cons _ hterms _ ih => exact hterms.append ih

/-- An alternative goes to the same conjunct on both sides, or on neither. -/
theorem orLast (h : WildcardedConjuncts ps xs ys) (hcd : Wildcarded ps' c.terms d.terms)
    (tag : String) :
    (Query.orLast tag c xs = none ∧ Query.orLast tag d ys = none) ∨
      ∃ xs' ys' order, Query.orLast tag c xs = some xs' ∧ Query.orLast tag d ys = some ys' ∧
        order.Perm (ps ++ ps') ∧ WildcardedConjuncts order xs' ys' := by
  induction h with
  | nil => exact .inl ⟨rfl, rfl⟩
  | @cons qs qs' x y xs ys htag hterms h ih =>
    rw [Query.orLast, Query.orLast]
    rcases ih with ⟨hnone, hnone'⟩ | ⟨xs', ys', order, hsome, hsome', hperm, hchanged⟩
    · rw [hnone, hnone', ← htag]
      by_cases hx : x.tag = some tag
      · right
        simp only [if_pos hx]
        -- the new pattern goes before those of the later conjuncts
        refine ⟨_, _, (qs ++ ps') ++ qs', rfl, rfl, ?_, .cons rfl ?_ h⟩
        · rw [List.append_assoc, List.append_assoc]
          exact List.perm_append_comm.append_left qs
        · rw [Condition.terms_orElse, Condition.terms_orElse]
          exact hterms.append hcd
      · left
        simp [hx]
    · right
      rw [hsome, hsome']
      refine ⟨_, _, qs ++ order, rfl, rfl, ?_, .cons htag hterms hchanged⟩
      rw [List.append_assoc]
      exact hperm.append_left qs

end WildcardedConjuncts

/-! ### Searches -/

namespace Query

variable {q q' r : Query} {patterns more : List String} {c : Criterion}

/-- The second query is the first with wildcards around the patterns among its terms. -/
structure Wildcarded (patterns : List String) (q r : Query) : Prop where
  alike : q.Alike r
  conjuncts : ∃ order : List String, order.Perm patterns ∧
    WildcardedConjuncts order q.conjuncts r.conjuncts

namespace Wildcarded

/-- Every query is one with no pattern changed. -/
theorem refl (q : Query) : Wildcarded [] q q := ⟨rfl, [], .refl _, .refl _⟩

/-- The terms to bind are the same but for the wildcards. -/
theorem terms (h : Wildcarded patterns q r) :
    ∃ order : List String, order.Perm patterns ∧ Listing.Wildcarded order q.terms r.terms := by
  obtain ⟨order, hperm, hconjuncts⟩ := h.conjuncts
  rw [terms_eq_boundBy, terms_eq_boundBy]
  exact ⟨order, hperm, hconjuncts.boundBy⟩

/-- A path binds nothing, so the patterns stay. -/
theorem follow (h : Wildcarded patterns q r) (path : JoinPath) :
    Wildcarded patterns (q.follow path).1 (r.follow path).1 := by
  refine ⟨(follow_alike h.alike path).1, ?_⟩
  obtain ⟨joins, fault, hfollow⟩ := q.follow_frame path
  obtain ⟨joins', fault', hfollow'⟩ := r.follow_frame path
  rw [hfollow, hfollow']
  exact h.conjuncts

/-- A condition that is attached adds its patterns, though not always at the end: an alternative
binds beside the condition that it is an alternative to. -/
theorem attach (h : Wildcarded patterns q r) (tag : String) (combine : Combine) {c d : Condition}
    (herased : c.erased = d.erased) (hcd : Listing.Wildcarded more c.terms d.terms) :
    Wildcarded (patterns ++ more) (q.attach tag combine c) (r.attach tag combine d) := by
  refine ⟨attach_alike h.alike tag combine herased, ?_⟩
  obtain ⟨order, hperm, hconjuncts⟩ := h.conjuncts
  -- both conditions go last, and so do the patterns
  have htagged : ∀ c d : Condition, Listing.Wildcarded more c.terms d.terms →
      ∃ order : List String, order.Perm (patterns ++ more) ∧
        WildcardedConjuncts order (q.tagged tag c).conjuncts (r.tagged tag d).conjuncts :=
    fun c d hcd => ⟨order ++ more, hperm.append_right more, hconjuncts.append (.singleton _ hcd)⟩
  cases combine with
  | and => exact htagged c d hcd
  | andNot => exact htagged (.not c) (.not d) hcd
  | or =>
    unfold Query.attach
    rcases hconjuncts.orLast hcd tag with
      ⟨hnone, hnone'⟩ | ⟨xs, ys, order', hsome, hsome', hperm', hchanged⟩
    · simp only [hnone, hnone']
      exact htagged c d hcd
    · simp only [hsome, hsome']
      exact ⟨order', hperm'.trans (hperm.append_right more), hchanged⟩

end Wildcarded

/-- What an operator makes of a pattern with wildcards is what it makes of the pattern, but for the
wildcards. -/
theorem wildcarded_condition {operand : Sql.Operand} {condition condition' : Condition}
    (h : c.operator.condition operand c.term = .ok condition)
    (h' : c.withWildcards.operator.condition operand c.withWildcards.term = .ok condition') :
    condition.erased = condition'.erased ∧
      Listing.Wildcarded c.pattern?.toList condition.terms condition'.terms := by
  rw [Criterion.withWildcards_eq] at h'
  cases hp : c.pattern? with
  | none =>
    rw [hp] at h'
    cases h.symm.trans h'
    exact ⟨rfl, .refl _⟩
  | some p =>
    rw [hp] at h'
    obtain ⟨hoperator, hterm⟩ := Criterion.pattern?_eq_some_iff.mp hp
    rw [hterm] at h
    -- both operators put the text of their term into the statement as it is
    rcases hoperator with hlike | hilike
    · simp only [hlike] at h h'
      cases h
      cases h'
      exact ⟨rfl, .pattern p .nil⟩
    · simp only [hilike] at h h'
      cases h
      cases h'
      exact ⟨rfl, .pattern p .nil⟩

/-- One criterion that is accepted is accepted with wildcards as well. -/
theorem Wildcarded.search (h : Wildcarded patterns q q') (hpattern : c.isEmptyPattern = false)
    (hrun : q.search c = .ok r) : ∃ r', q'.search c.withWildcards = .ok r' ∧
      Wildcarded (patterns ++ c.pattern?.toList) r r' := by
  have halike := Criterion.alike_withWildcards hpattern
  obtain ⟨r', hrun', -⟩ := (search_agree h.alike halike).exists_ok hrun
  refine ⟨r', hrun', ?_⟩
  have hblanks := halike.shape.1
  rcases search_ok hrun with ⟨hblank, rfl⟩ | ⟨hblank, -, operand, condition, hoperand, hcond, rfl⟩
  -- a blank criterion binds nothing, so no pattern is added
  · rw [search_of_isBlank q' (hblanks ▸ hblank)] at hrun'
    cases hrun'
    rw [Criterion.pattern?_of_isBlank hblank hpattern]
    simpa using h
  · rcases search_ok hrun' with ⟨hblank', -⟩ | ⟨-, -, operand', condition', hoperand', hcond', rfl⟩
    · rw [← hblanks, hblank] at hblank'
      cases hblank'
    · -- both reach the same source, so the field is the same operand there
      have hfollow := h.follow c.path
      rw [← halike.path, ← halike.field, ← (follow_alike h.alike c.path).2,
        ← operand_alike hfollow.alike, hoperand] at hoperand'
      cases hoperand'
      obtain ⟨herased, hterms⟩ := wildcarded_condition hcond hcond'
      rw [← halike.path, ← halike.tag_eq, ← halike.combine]
      exact hfollow.attach c.tag c.combine herased hterms

/-- So are all criteria of a search. -/
theorem Wildcarded.searchAll {criteria : Criteria} (h : Wildcarded patterns q q')
    (hpattern : ∀ entry ∈ criteria, entry.2.isEmptyPattern = false)
    (hrun : q.searchAll criteria = .ok r) : ∃ s, q'.searchAll criteria.withWildcards = .ok s ∧
      Wildcarded (patterns ++ criteria.patterns) r s := by
  induction criteria generalizing q q' patterns with
  | nil =>
    cases hrun
    refine ⟨q', rfl, ?_⟩
    rw [Criteria.patterns, List.filterMap_nil, List.append_nil]
    exact h
  | cons entry rest ih =>
    obtain ⟨hfirst, hrest⟩ := List.forall_mem_cons.mp hpattern
    rw [Query.searchAll, List.foldlM_cons] at hrun
    obtain ⟨q₁, hstep, hmore⟩ := Except.bind_ok hrun
    obtain ⟨q₁', hstep', h₁⟩ := h.search hfirst hstep
    obtain ⟨s, hs, hall⟩ := ih h₁ hrest hmore
    refine ⟨s, ?_, ?_⟩
    · rw [Query.searchAll, Criteria.withWildcards, List.map_cons, List.foldlM_cons, hstep']
      exact hs
    -- the pattern of the first criterion, if it has one, goes before those of the rest
    · rw [Criteria.patterns, List.filterMap_cons]
      cases hp : entry.2.pattern? with
      | none =>
        rw [hp, Option.toList_none, List.append_nil] at hall
        exact hall
      | some p =>
        rw [hp, Option.toList_some, List.append_assoc] at hall
        exact hall

/-- A criterion that a strict search accepts has a term that fits. -/
theorem check_of_search (hrun : q.search c = .ok r) : c.check = .ok () := by
  rcases search_ok hrun with ⟨hblank, -⟩ | ⟨-, hcheck, -⟩
  · exact Criterion.check_of_isBlank hblank
  · exact hcheck

/-- So have all criteria that it accepts. -/
theorem check_of_searchAll {criteria : Criteria} (hrun : q.searchAll criteria = .ok r) :
    ∀ entry ∈ criteria, entry.2.check = .ok () := by
  induction criteria generalizing q with
  | nil => exact fun entry hentry => absurd hentry List.not_mem_nil
  | cons entry rest ih =>
    rw [searchAll, List.foldlM_cons] at hrun
    obtain ⟨s, hstep, hmore⟩ := Except.bind_ok hrun
    exact List.forall_mem_cons.mpr ⟨check_of_search hstep, ih hmore⟩

/-- A lenient search of terms of the right shape is a strict one of patterns with wildcards. -/
theorem searchAllLeniently_eq {criteria : Criteria} (q : Query)
    (hcheck : ∀ entry ∈ criteria, entry.2.check = .ok ()) :
    q.searchAllLeniently criteria = q.searchAll criteria.withWildcards := by
  induction criteria generalizing q with
  | nil => rfl
  | cons entry rest ih =>
    obtain ⟨hfirst, hrest⟩ := List.forall_mem_cons.mp hcheck
    have hstep : q.searchLeniently entry.2 = q.search entry.2.withWildcards := by
      rw [searchLeniently, hfirst]
    rw [searchAllLeniently, searchAll, Criteria.withWildcards, List.map_cons, List.foldlM_cons,
      List.foldlM_cons, hstep]
    exact bind_congr fun s => ih s hrest

/-- Criteria with no pattern among them stay as they are. -/
theorem withWildcards_of_patterns {criteria : Criteria} (h : criteria.patterns = []) :
    criteria.withWildcards = criteria := by
  have hnone : ∀ entry ∈ criteria, entry.2.pattern? = none := List.filterMap_eq_nil_iff.mp h
  have hsame : ∀ entry ∈ criteria, (entry.1, entry.2.withWildcards) = entry := by
    intro entry hentry
    rw [Criterion.withWildcards_eq, hnone entry hentry]
  rw [Criteria.withWildcards, List.map_congr_left hsame, List.map_id']

/-- Of criteria that a strict search accepts, with no empty pattern among them, a lenient one makes
what the strict one makes of the patterns with wildcards: the same statements, where each pattern is
bound with wildcards and all else as it is. -/
theorem searchAllLeniently_ok {criteria : Criteria} (hrun : q.searchAll criteria = .ok r)
    (hpattern : ∀ entry ∈ criteria, entry.2.isEmptyPattern = false) :
    ∃ s, q.searchAllLeniently criteria = .ok s ∧ q.searchAll criteria.withWildcards = .ok s ∧
      r.SameText s ∧
      (∃ order : List String, order.Perm criteria.patterns ∧
        Listing.Wildcarded order r.terms s.terms) ∧
      (criteria.patterns = [] → s = r) := by
  obtain ⟨s, hs, hwildcarded⟩ := (Wildcarded.refl q).searchAll hpattern hrun
  refine ⟨s, ?_, hs, hwildcarded.alike.sameText, hwildcarded.terms, fun hnone => ?_⟩
  · rw [searchAllLeniently_eq q (check_of_searchAll hrun), hs]
  · rw [withWildcards_of_patterns hnone, hrun] at hs
    exact (Except.ok.inj hs).symm

end Query

end Listing
