import Listing.Proofs.Query.Frame
import Listing.Query.Statement

namespace Listing

/-!
# Blank terms

A criterion with a blank term asks for nothing, whatever its operator, its field and its path.  A
search passes over it before anything of it is looked at.  A lenient search, however, has put
wildcards around a pattern by then, and an empty pattern with wildcards is no longer blank.

* `Query.perm_terms_attach` — attaching a condition binds its terms in addition to the others;
* `Criterion.isEmptyPattern` — the blank criteria that a lenient search does not pass over;
* `Query.length_terms_searchAllLeniently` — it binds one term for each of them;
* `Query.blank_criteria_change_nothing` — a search by blank criteria changes nothing, a lenient one
  if and only if none of them is an empty pattern.
-/

open Sql (Condition)

/-! ### Terms of a query -/

namespace Sql.Condition

/-- Two lists of conditions bind their terms one after the other. -/
theorem termsOf_append (parts others : List Condition) :
    termsOf (parts ++ others) = termsOf parts ++ termsOf others := by
  induction parts with
  | nil => rfl
  | cons part rest ih => rw [List.cons_append, termsOf, termsOf, ih, List.append_assoc]

/-- So do two conditions. -/
theorem termsOf_pair (c d : Condition) : termsOf [c, d] = c.terms ++ d.terms := by
  simp [termsOf]

/-- A further alternative binds its terms after the others. -/
theorem terms_orElse (c d : Condition) : (c.orElse d).terms = c.terms ++ d.terms := by
  unfold orElse
  split
  · rw [terms, terms, termsOf_append]
    simp [termsOf]
  · rw [terms, termsOf_pair]

end Sql.Condition

namespace Query

variable {q r : Query}

/-- The terms of some conjuncts, in order. -/
def boundBy (conjuncts : List Conjunct) : List Term := conjuncts.flatMap fun x => x.condition.terms

/-- Conditions bind the same whether they are merged or apart. -/
theorem terms_merged (conjuncts : List Conjunct) :
    (merged conjuncts).terms = boundBy conjuncts := by
  have hall (xs : List Conjunct) :
      (Condition.all (xs.map Conjunct.condition)).terms = boundBy xs := by
    rw [Condition.terms]
    induction xs with
    | nil => rfl
    | cons x rest ih =>
      rw [List.map_cons, Condition.termsOf, ih, boundBy, boundBy, List.flatMap_cons]
  unfold merged
  split
  · simp [boundBy]
  · exact hall conjuncts

/-- A query binds what its conditions bind. -/
theorem terms_eq_boundBy (q : Query) : q.terms = boundBy q.conjuncts := terms_merged q.conjuncts

/-- A further condition binds its terms last. -/
theorem terms_tagged (q : Query) (tag : String) (c : Condition) :
    (q.tagged tag c).terms = q.terms ++ c.terms := by
  rw [terms_eq_boundBy, terms_eq_boundBy]
  simp [tagged, boundBy]

/-- Attaching a condition binds its terms in addition to the others. -/
theorem perm_terms_attach (q : Query) (tag : String) (combine : Combine) (c : Condition) :
    (q.attach tag combine c).terms.Perm (q.terms ++ c.terms) := by
  rcases q.attach_cases tag combine c with
    ⟨d, hd, hattach⟩ | ⟨before, x, after, hconjuncts, -, hattach⟩
  · rw [hattach, terms_tagged]
    rcases hd with rfl | rfl
    · exact .refl _
    · exact .refl _
  · rw [hattach, terms_eq_boundBy, terms_eq_boundBy, hconjuncts]
    -- the terms of the alternative go before those of the later conjuncts
    simp only [boundBy, List.flatMap_append, List.flatMap_cons, Condition.terms_orElse,
      List.append_assoc]
    exact (List.perm_append_comm.append_left _).append_left _

/-- Attaching a condition binds as many terms more as it has. -/
theorem length_terms_attach (q : Query) (tag : String) (combine : Combine) (c : Condition) :
    (q.attach tag combine c).terms.length = q.terms.length + c.terms.length :=
  (perm_terms_attach q tag combine c).length_eq.trans List.length_append

/-- A path binds nothing. -/
theorem terms_follow (q : Query) (path : JoinPath) : (q.follow path).1.terms = q.terms := by
  obtain ⟨joins, fault, hfollow⟩ := q.follow_frame path
  rw [hfollow]
  rfl

end Query

/-! ### Empty patterns -/

namespace Criterion

/-- Whether the criterion compares with an empty text as with a pattern. -/
def isEmptyPattern (c : Criterion) : Bool :=
  (c.operator == .like || c.operator == .ilike) && c.term.text? == some ""

variable {c : Criterion}

/-- A blank term passes every check. -/
theorem check_of_isBlank (h : c.term.isBlank = true) : c.check = .ok () := by
  rw [check, h]
  rfl

/-- An empty pattern is an empty text under one of the two operators that have patterns. -/
theorem isEmptyPattern_iff :
    c.isEmptyPattern = true ↔ (c.operator = .like ∨ c.operator = .ilike) ∧ c.term = .text "" := by
  have htext : c.term.text? = some "" ↔ c.term = .text "" := by
    cases c.term <;> simp [Term.text?]
  simp [isEmptyPattern, htext]

/-- The term of an empty pattern is blank. -/
theorem isBlank_of_isEmptyPattern (h : c.isEmptyPattern = true) : c.term.isBlank = true := by
  rw [(isEmptyPattern_iff.mp h).2]
  rfl

/-- A blank criterion that is no empty pattern gets no wildcards. -/
theorem withWildcards_of_isBlank (h : c.term.isBlank = true) (hpattern : c.isEmptyPattern = false) :
    c.withWildcards = c := by
  unfold withWildcards
  split
  · rename_i s hoperator hterm
    rw [hterm, Term.isBlank] at h
    simp [isEmptyPattern, hoperator, hterm, Term.text?, String.isEmpty_iff.mp h] at hpattern
  · rename_i s hoperator hterm
    rw [hterm, Term.isBlank] at h
    simp [isEmptyPattern, hoperator, hterm, Term.text?, String.isEmpty_iff.mp h] at hpattern
  · rfl

/-- An empty pattern gets them, so it asks for any text at all. -/
theorem withWildcards_of_isEmptyPattern (h : c.isEmptyPattern = true) :
    c.withWildcards = { c with term := .text "%%" } := by
  obtain ⟨hoperator, hterm⟩ := isEmptyPattern_iff.mp h
  unfold withWildcards
  rcases hoperator with hlike | hilike
  · rw [hlike, hterm]
    rfl
  · rw [hilike, hterm]
    rfl

end Criterion

/-! ### Searches -/

namespace Query

variable {q r : Query} {c : Criterion}

/-- A strict search passes over a blank term. -/
theorem search_of_isBlank (q : Query) (h : c.term.isBlank = true) : q.search c = .ok q := by
  rw [search, if_pos h]

/-- A lenient one does so too, unless the term is an empty pattern. -/
theorem searchLeniently_of_isBlank (q : Query) (h : c.term.isBlank = true)
    (hpattern : c.isEmptyPattern = false) : q.searchLeniently c = .ok q := by
  rw [searchLeniently, Criterion.check_of_isBlank h, Criterion.withWildcards_of_isBlank h hpattern]
  exact search_of_isBlank q h

/-- A lenient search that accepts an empty pattern binds one term more. -/
theorem length_terms_of_isEmptyPattern (h : c.isEmptyPattern = true)
    (hrun : q.searchLeniently c = .ok r) : r.terms.length = q.terms.length + 1 := by
  rw [searchLeniently, Criterion.check_of_isBlank (Criterion.isBlank_of_isEmptyPattern h),
    Criterion.withWildcards_of_isEmptyPattern h] at hrun
  rcases search_ok hrun with ⟨hnot, -⟩ | ⟨-, -, operand, condition, -, hcondition, rfl⟩
  · cases hnot
  -- the wildcards alone are a pattern by now, and it is bound
  · have hterms : condition.terms.length = 1 := by
      dsimp only at hcondition
      rcases (Criterion.isEmptyPattern_iff.mp h).1 with hoperator | hoperator
      · rw [hoperator] at hcondition
        cases hcondition
        rfl
      · rw [hoperator] at hcondition
        cases hcondition
        rfl
    rw [length_terms_attach, terms_follow, hterms]

/-- A lenient search by blank criteria binds one term for every empty pattern. -/
theorem length_terms_searchAllLeniently {criteria : Criteria}
    (hblank : ∀ entry ∈ criteria, entry.2.term.isBlank = true)
    (hrun : q.searchAllLeniently criteria = .ok r) :
    r.terms.length = q.terms.length + criteria.countP fun entry => entry.2.isEmptyPattern := by
  induction criteria generalizing q with
  | nil =>
    cases hrun
    rfl
  | cons entry rest ih =>
    obtain ⟨hfirst, hrest⟩ := List.forall_mem_cons.mp hblank
    rw [searchAllLeniently, List.foldlM_cons] at hrun
    obtain ⟨s, hstep, hmore⟩ := Except.bind_ok hrun
    rw [ih hrest hmore, List.countP_cons]
    -- only an empty pattern binds a term, and the rest is counted by induction
    cases hpattern : entry.2.isEmptyPattern with
    | true =>
      rw [length_terms_of_isEmptyPattern hpattern hstep]
      simp only [if_true]
      omega
    | false =>
      rw [searchLeniently_of_isBlank q hfirst hpattern] at hstep
      cases hstep
      simp

/-- So does a strict search with all of its criteria. -/
theorem searchAll_of_isBlank (q : Query) {criteria : Criteria}
    (hblank : ∀ entry ∈ criteria, entry.2.term.isBlank = true) :
    q.searchAll criteria = .ok q := by
  induction criteria with
  | nil => rfl
  | cons entry rest ih =>
    obtain ⟨hfirst, hrest⟩ := List.forall_mem_cons.mp hblank
    rw [searchAll, List.foldlM_cons, search_of_isBlank q hfirst]
    exact ih hrest

/-- So does a lenient one, with no empty pattern among them. -/
theorem searchAllLeniently_of_isBlank (q : Query) {criteria : Criteria}
    (hblank : ∀ entry ∈ criteria, entry.2.term.isBlank = true)
    (hpattern : ∀ entry ∈ criteria, entry.2.isEmptyPattern = false) :
    q.searchAllLeniently criteria = .ok q := by
  induction criteria with
  | nil => rfl
  | cons entry rest ih =>
    obtain ⟨hfirst, hrest⟩ := List.forall_mem_cons.mp hblank
    obtain ⟨hfirst', hrest'⟩ := List.forall_mem_cons.mp hpattern
    rw [searchAllLeniently, List.foldlM_cons, searchLeniently_of_isBlank q hfirst hfirst']
    exact ih hrest hrest'

/-- **Blank criteria change nothing.** Whatever their operators, fields and paths are,
`Query.searchAll` adds no join, no condition, no term and no fault for criteria whose terms are
blank (`Term.isBlank`).  For `Query.searchAllLeniently` this holds if and only if none of them is an
empty pattern (`Criterion.isEmptyPattern`). -/
theorem blank_criteria_change_nothing (q : Query) {criteria : Criteria}
    (hblank : ∀ entry ∈ criteria, entry.2.term.isBlank = true) :
    q.searchAll criteria = .ok q ∧
      (q.searchAllLeniently criteria = .ok q ↔
        ∀ entry ∈ criteria, entry.2.isEmptyPattern = false) := by
  refine ⟨searchAll_of_isBlank q hblank, ?_, searchAllLeniently_of_isBlank q hblank⟩
  intro hrun
  have hlength := length_terms_searchAllLeniently hblank hrun
  have hcount : criteria.countP (fun entry => entry.2.isEmptyPattern) = 0 := by omega
  intro entry hentry
  simpa using List.countP_eq_zero.mp hcount entry hentry

/-- All labels. -/
def labels : Query :=
  ⟨.empty, ⟨⟨'l', 0⟩, "label"⟩, .empty "label" "labels", [], [], [], none, none, none⟩

/-- Blank criteria that could not be met if anything of them were looked at. -/
def unreadable : Criteria :=
  [("no column", ⟨.column "no column", [⟨.left, "nowhere"⟩], .between, .text "", .or⟩),
    ("tags", ⟨.computed .concatTwo [], [], .isIn, .list [], .andNot⟩),
    ("name", ⟨.column "name", [], .like, .null, .and⟩)]

/-- A null under an equality and an empty list under a membership change nothing. -/
theorem blank_criteria_change_nothing_unreadable :
    (∀ entry ∈ unreadable, entry.2.term.isBlank = true) ∧
      labels.searchAll unreadable = .ok labels ∧
      labels.searchAllLeniently unreadable = .ok labels := by
  have hblank : ∀ entry ∈ unreadable, entry.2.term.isBlank = true := by
    simp [unreadable, Term.isBlank]
  obtain ⟨hstrict, hlenient⟩ := blank_criteria_change_nothing labels hblank
  refine ⟨hblank, hstrict, hlenient.mpr ?_⟩
  decide

/-- The names that are like an empty text. -/
def unnamed : Criteria := [("name", ⟨.column "name", [], .like, .text "", .and⟩)]

/-- **An empty pattern restricts.** It is blank, and yet `Query.searchAllLeniently` leaves out the
rows without a name. -/
theorem empty_pattern_restricts :
    (∀ entry ∈ unnamed, entry.2.term.isBlank = true) ∧
      ∃ r, labels.searchAllLeniently unnamed = .ok r ∧ r ≠ labels ∧
        r.selectSql = "SELECT l0.* FROM labels AS l0 WHERE l0.name LIKE $1" ∧
        r.terms = [.text "%%"] := by
  refine ⟨by simp [unnamed, Term.isBlank], _, rfl, ?_, by decide +kernel, rfl⟩
  intro h
  cases congrArg conjuncts h

end Query

end Listing
