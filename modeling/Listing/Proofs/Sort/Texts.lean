import Listing.Proofs.Ident.Grammar
import Listing.Proofs.Sort.Append
import Listing.Proofs.Sort.Scopes

namespace Listing

/-!
# Items written as texts and as objects

A lenient ordering takes `name.direction` and `name.direction.ci` for objects with the same field,
direction and case flag.  It takes the text apart at its dots, also at those inside a quoted name.
So the two forms of an item agree if and only if the name has no dot; of one that has, the text
orders by what stands before the first dot, which is no identifier.

* `Ident.parse_before_dot` — what stands before a dot of an identifier is none;
* `LenientSort.parts_eq_splitOn` — the parts of a text are those of the library's splitting;
* `LenientSort.textItem`, `LenientSort.IsObjectItem` — the two forms of an item;
* `LenientSort.ofText_textItem`, `LenientSort.ofText_dotted` — the key of a text, by whether the
  name has a dot;
* `Builtin.item_forms_agree_iff` — when the two forms make the same ordering;
* `Builtin.item_forms_differ` — a quoted name by which only the object orders.
-/

/-! ### Dots in identifiers -/

namespace Ident

/-- Quotes are doubled on either side of a cut. -/
theorem doubled_append (xs ys : List Char) : doubled (xs ++ ys) = doubled xs ++ doubled ys := by
  induction xs with
  | nil => rfl
  | cons c xs ih =>
    rw [List.cons_append, doubled_cons, doubled_cons c xs, ih, List.append_assoc]

/-- A body whose quotes are all doubled has no closing quote. -/
theorem body_doubled_unclosed (name : List Char) : body (doubled name) = .error .unclosed := by
  induction name with
  | nil => rfl
  | cons c name ih =>
    by_cases hc : c = '"'
    · -- a pair of quotes is one quote of the name, so it closes nothing
      subst hc
      simp [doubled, body, ih, Except.map]
    · rw [doubled, if_neg hc]
      cases hrest : doubled name with
      | nil => simp [body, hc, Except.map]
      | cons d tail =>
        rw [hrest] at ih
        simp [body, hc, ih, Except.map]

/-- What stands before the first dot of an identifier is an opening quote without a closing one. -/
theorem parse_before_dot {text : String} {i : Ident} (h : parse text = .ok i)
    (hdot : '.' ∈ text.toList) :
    ∃ head tail, text.toList = head ++ '.' :: tail ∧ head ≠ [] ∧ '.' ∉ head ∧
      parse (String.ofList head) = .error .unclosed := by
  obtain ⟨hproper, rfl⟩ := parse_eq_ok_iff.mp h
  cases i with
  | bare name => exact absurd hdot (not_mem_of_isBareWord hproper rfl rfl)
  | quoted name =>
    have hmem : '.' ∈ name.toList := by simpa [Ident.text, mem_doubled] using hdot
    obtain ⟨before, after, hname, hbefore⟩ := List.eq_append_cons_of_mem hmem
    have hnul : '\x00' ∉ before := by
      intro hin
      exact hproper.2 (hname ▸ List.mem_append_left _ hin)
    -- doubling changes no dot, so the first one of the name is the first one of the text
    refine ⟨'"' :: doubled before, doubled after ++ ['"'], ?_, List.cons_ne_nil _ _, ?_, ?_⟩
    · rw [Ident.text, String.toList_ofList, hname, doubled_append, doubled, if_neg (by decide)]
      simp
    · simpa [mem_doubled] using hbefore
    · have hfree : '\x00' ∉ '"' :: doubled before := by simpa [mem_doubled] using hnul
      unfold parse
      rw [String.toList_ofList]
      simp only [if_neg hfree, if_true, parseQuoted, body_doubled_unclosed, bind, Except.bind]

end Ident

/-! ### Parts of texts -/

namespace LenientSort

/-- The parts of a text are what the library splits it into. -/
theorem parts_eq_splitOn (text : List Char) : parts text = text.splitOn '.' := by
  induction text with
  | nil => rfl
  | cons c rest ih =>
    rw [parts, List.splitOn_cons_eq_if_modifyHead, ih]
    by_cases hc : c = '.'
    · simp [hc]
    · have hne : rest.splitOn '.' ≠ [] := List.splitOn_ne_nil _ _
      cases hsplit : rest.splitOn '.' with
      | nil => exact absurd hsplit hne
      | cons part more => simp [hc]

/-- What stands before the first dot is the first part. -/
theorem parts_append_dot {part : List Char} (h : '.' ∉ part) (rest : List Char) :
    parts (part ++ '.' :: rest) = part :: parts rest := by
  rw [parts_eq_splitOn, parts_eq_splitOn, List.splitOn_append_cons_self_of_not_mem h]

/-- The first part of a text ends before its first dot. -/
theorem exists_parts (text : List Char) :
    ∃ more, parts text = text.takeWhile (· != '.') :: more := by
  induction text with
  | nil => exact ⟨[], rfl⟩
  | cons c rest ih =>
    obtain ⟨more, hmore⟩ := ih
    by_cases hc : c = '.'
    · exact ⟨parts rest, by simp [parts, hc]⟩
    · exact ⟨more, by simp [parts, hc, hmore]⟩

/-- A dot after a text changes nothing of what stands before the first one. -/
theorem takeWhile_append_dot (text rest : List Char) :
    (text ++ '.' :: rest).takeWhile (· != '.') = text.takeWhile (· != '.') := by
  induction text with
  | nil => simp
  | cons c text ih =>
    by_cases hc : c = '.'
    · simp [hc]
    · simp [hc, ih]

/-! ### The two forms -/

/-- What stands behind the name in the text of an item, after a dot. -/
def marks (d : Direction) (ignoreCase : Bool) : String :=
  d.wireName ++ if ignoreCase then ".ci" else ""

/-- The text of an item: `name.direction`, or `name.direction.ci` if case is ignored. -/
def textItem (name : String) (d : Direction) (ignoreCase : Bool) : String :=
  name ++ "." ++ marks d ignoreCase

/-- The object has a name, a direction and a case flag, and neither a path nor a scope. -/
structure IsObjectItem (fields : Dict Json) (name : String) (d : Direction)
    (ignoreCase : Bool) : Prop where
  field : Dict.get? fields "field" = some (.str name)
  order : Dict.get? fields "order" = some (.str d.wireName)
  ci : Dict.get? fields "ci" = some (.bool ignoreCase)
  assoc : Dict.get? fields "assoc" = none
  scope : Dict.get? fields "scope" = none

/-- The key that an item spells out. -/
def spelledKey (name : String) (d : Direction) (ignoreCase : Bool) : SortKey :=
  ⟨.column name, [], some d, ignoreCase⟩

/-- The key that a text makes of a name which goes on with a dot and a tail after the head. -/
def cutKey (head tail : List Char) (ignoreCase : Bool) : SortKey :=
  ⟨.column (String.ofList head), [], Direction.ofName? (String.ofList (tail.takeWhile (· != '.'))),
    ignoreCase⟩

variable {name : String} {d : Direction} {ignoreCase : Bool} {fields : Dict Json}

/-- An object makes the key that it spells out. -/
theorem item_of_isObjectItem (q : Query) (h : IsObjectItem fields name d ignoreCase) :
    item q (.obj fields) = .ok (some (spelledKey name d ignoreCase)) := by
  have hpath : StrictSort.path fields = .ok [] := by rw [StrictSort.path, h.assoc]
  rw [item, StrictSort.expand_eq_none h.scope]
  show written fields = _
  rw [written, h.field]
  simp only
  rw [hpath, h.order, h.ci]
  show Except.ok (some (SortKey.mk _ _ (Direction.ofName? d.wireName) _)) = _
  rw [Direction.ofName?_wireName]
  rfl

/-- A text item is its name, a dot, and its marks. -/
theorem toList_textItem (name : String) (d : Direction) (ignoreCase : Bool) :
    (textItem name d ignoreCase).toList = name.toList ++ '.' :: (marks d ignoreCase).toList := by
  simp [textItem]

/-- The key of a text whose first part is not empty. -/
theorem ofText_of_parts {text : String} {head : List Char} {more : List (List Char)}
    (h : parts text.toList = head :: more) (hne : head ≠ []) :
    ofText text = some
      { field := .column (String.ofList head), path := []
        direction := ((more.map String.ofList)[0]?).bind Direction.ofName?
        ignoreCase := (more.map String.ofList)[1]? == some "ci" } := by
  have hfull : (String.ofList head).isEmpty = false := by simpa using hne
  simp [ofText, h, hfull]

/-- The text for a name without a dot makes the key that it spells out. -/
theorem ofText_textItem (hname : name ≠ "") (hdot : '.' ∉ name.toList) :
    ofText (textItem name d ignoreCase) = some (spelledKey name d ignoreCase) := by
  have hparts : parts (textItem name d ignoreCase).toList =
      name.toList :: parts (marks d ignoreCase).toList := by
    rw [toList_textItem, parts_append_dot hdot]
  rw [ofText_of_parts hparts (by simpa using hname), String.ofList_toList]
  -- what follows the name is one of four texts, whose parts are computed
  cases d <;> cases ignoreCase <;> rfl

/-- The text for a name with a dot makes a key for what stands before the first dot. -/
theorem ofText_dotted {head tail : List Char} (hname : name.toList = head ++ '.' :: tail)
    (hne : head ≠ []) (hdot : '.' ∉ head) (d : Direction) (ignoreCase : Bool) :
    ∃ ignored, ofText (textItem name d ignoreCase) = some (cutKey head tail ignored) := by
  obtain ⟨more, hmore⟩ := exists_parts (tail ++ '.' :: (marks d ignoreCase).toList)
  rw [takeWhile_append_dot] at hmore
  have hparts : parts (textItem name d ignoreCase).toList =
      head :: tail.takeWhile (· != '.') :: more := by
    rw [toList_textItem, hname, List.append_assoc, List.cons_append, parts_append_dot hdot, hmore]
  exact ⟨_, ofText_of_parts hparts hne⟩

/-- The text and the object for a name without a dot make the same key. -/
theorem item_text_of_object {i : Ident} (hname : Ident.parse name = .ok i)
    (hdot : '.' ∉ name.toList) (hfields : IsObjectItem fields name d ignoreCase) (q : Query) :
    item q (.str (textItem name d ignoreCase)) = item q (.obj fields) := by
  have hnonempty : name ≠ "" := by
    rintro rfl
    cases hname
  rw [item_of_isObjectItem q hfields, item, ofText_textItem hnonempty hdot]

/-- The text for an identifier with a dot makes a key for an opening quote without a closing one. -/
theorem item_text_dotted {i : Ident} (hname : Ident.parse name = .ok i) (hdot : '.' ∈ name.toList)
    (d : Direction) (ignoreCase : Bool) :
    ∃ head tail ignored, name.toList = head ++ '.' :: tail ∧ '.' ∉ head ∧
      Ident.parse (String.ofList head) = .error .unclosed ∧
      ∀ q, item q (.str (textItem name d ignoreCase)) = .ok (some (cutKey head tail ignored)) := by
  obtain ⟨head, tail, hcut, hne, hhead, hparse⟩ := Ident.parse_before_dot hname hdot
  obtain ⟨ignored, htext⟩ := ofText_dotted hcut hne hhead d ignoreCase
  exact ⟨head, tail, ignored, hcut, hhead, hparse, fun q => congrArg Except.ok htext⟩

/-- A key for what stands before the first dot of a name is none for the name. -/
theorem cutKey_ne_spelledKey {head tail : List Char} {ignored : Bool} (hhead : '.' ∉ head)
    (hdot : '.' ∈ name.toList) : cutKey head tail ignored ≠ spelledKey name d ignoreCase := by
  intro h
  injection h with hfield
  injection hfield with hname
  apply hhead
  rwa [← String.toList_ofList (l := head), hname]

/-- Items that make the same key make the same keys of every ordering they stand in. -/
theorem normalise_arr_congr {q : Query} {x y : Json} (h : item q x = item q y)
    (before after : List Json) :
    normalise q (.arr (before ++ x :: after)) = normalise q (.arr (before ++ y :: after)) := by
  show ((before ++ x :: after).mapM (item q) >>= _) = ((before ++ y :: after).mapM (item q) >>= _)
  rw [List.mapM_append, List.mapM_append, List.mapM_cons, List.mapM_cons, h]

/-- A single item that makes a key makes the ordering of that key. -/
theorem normalise_single {q : Query} {request : Json} {key : SortKey}
    (hitems : items request = .ok [request]) (h : item q request = .ok (some key)) :
    normalise q request = .ok [key] := by
  rw [normalise, hitems]
  show ([request].mapM (item q) >>= _) = _
  rw [List.mapM_cons, h]
  rfl

end LenientSort

/-! ### Orderings by a column -/

namespace Query

/-- The name stands for a column of the base entity, not for a computed field. -/
def NamesColumn (r : Query) (name : String) : Prop :=
  r.fieldAt r.base (.column name) = .column name

variable {r : Query} {name : String}

/-- A key for a column of the base entity orders by that column. -/
theorem sort_spelledKey (h : r.NamesColumn name) (d : Direction) (ignoreCase : Bool) :
    r.sort (LenientSort.spelledKey name d ignoreCase) =
      (columnOperand r.base name).map fun operand =>
        r.orderBy (if ignoreCase then .lower operand else operand) d := by
  show (r.operand r.base (.column name) >>= _) = _
  rw [operand, h]
  rfl

/-- A key for a cut name fails unless it has no direction. -/
theorem sort_cutKey {head tail : List Char} (h : r.NamesColumn (String.ofList head))
    (hparse : Ident.parse (String.ofList head) = .error .unclosed) (ignored : Bool) :
    r.sort (LenientSort.cutKey head tail ignored) =
      if (LenientSort.cutKey head tail ignored).direction = none then .ok r
      else .error (.ofIdent .unclosed) := by
  unfold sort
  -- the key is looked at only if it has a direction
  split
  · rename_i hnone
    rw [if_pos hnone]
  · rename_i direction hsome
    rw [if_neg (by simp [hsome])]
    show (r.operand r.base (.column (String.ofList head)) >>= _) = _
    rw [operand, h, writtenOperand, columnOperand, hparse]
    rfl

end Query

namespace Builtin

open LenientSort

variable {m : Type → Type} [Monad m]

/-- The ordering of one key, written and read back, sorts by that key. -/
theorem run_lenientSort_single (r : Query) {key : SortKey} (h : key.field.wellFormed = true) :
    lenientSort.run r (SortKeys.encode [key]) = r.sort key := by
  rw [run_sort (.inr rfl) (SortKeys.decode_encode (List.forall_mem_singleton.mpr h)),
    Query.sortAll, List.foldlM_cons]
  cases r.sort key <;> rfl

/-- A single item that makes a key is the ordering of that key. -/
theorem format_single {q : Query} {request : Json} {key : SortKey}
    (hitems : LenientSort.items request = .ok [request])
    (h : item q request = .ok (some key)) (context : Context m) :
    lenientSort.format q request context = pure (SortKeys.encode [key]) := by
  rw [format, normalise_single hitems h]
  rfl

/-- **Forms of an item agree without dots.** The text (`textItem`) and the object (`IsObjectItem`)
for the same name, direction and case flag make the same key, and hence the same ordering by
`Builtin.lenientSort`, if and only if the name has no dot.  The object always makes the key it
spells out (`spelledKey`).  The text for a name with a dot makes one for what stands before the
first dot (`cutKey`), which is no identifier: where no computed field has that name, the ordering
fails, or it changes nothing as what stands behind the dot is no direction, while the object orders
by the column. -/
theorem item_forms_agree_iff {name : String} {i : Ident} (hname : Ident.parse name = .ok i)
    (d : Direction) (ignoreCase : Bool) {fields : Dict Json}
    (hfields : IsObjectItem fields name d ignoreCase) (q : Query) (context : Context m) :
    lenientSort.format q (.obj fields) context =
      pure (SortKeys.encode [spelledKey name d ignoreCase]) ∧
    (item q (.str (textItem name d ignoreCase)) = item q (.obj fields) ↔ '.' ∉ name.toList) ∧
    ('.' ∉ name.toList →
      lenientSort.format q (.str (textItem name d ignoreCase)) context =
        lenientSort.format q (.obj fields) context ∧
      ∀ before after,
        lenientSort.format q (.arr (before ++ .str (textItem name d ignoreCase) :: after)) context =
          lenientSort.format q (.arr (before ++ .obj fields :: after)) context) ∧
    ('.' ∈ name.toList → ∃ head tail ignored, name.toList = head ++ '.' :: tail ∧ '.' ∉ head ∧
      Ident.parse (String.ofList head) = .error .unclosed ∧
      lenientSort.format q (.str (textItem name d ignoreCase)) context =
        pure (SortKeys.encode [cutKey head tail ignored]) ∧
      ∀ r : Query, r.NamesColumn (String.ofList head) → r.NamesColumn name →
        lenientSort.run r (SortKeys.encode [cutKey head tail ignored]) =
          (if (cutKey head tail ignored).direction = none then .ok r
            else .error (.ofIdent .unclosed)) ∧
        lenientSort.run r (SortKeys.encode [spelledKey name d ignoreCase]) =
          .ok (r.orderBy (if ignoreCase then .lower (.column r.base.source i)
            else .column r.base.source i) d)) := by
  have hobject := item_of_isObjectItem q hfields
  refine ⟨format_single rfl hobject context, ⟨fun hsame hdot => ?_, fun hdot => ?_⟩,
    fun hdot => ⟨?_, fun before after => ?_⟩, fun hdot => ?_⟩
  · obtain ⟨head, tail, ignored, -, hhead, -, htext⟩ :=
      item_text_dotted hname hdot d ignoreCase
    rw [htext q, hobject] at hsame
    injection hsame with hsome
    injection hsome with hkey
    exact cutKey_ne_spelledKey hhead hdot hkey
  · exact item_text_of_object hname hdot hfields q
  -- without a dot the text is taken apart where the record has its fields
  · have hsame := item_text_of_object hname hdot hfields q
    rw [format_single rfl (hsame.trans hobject), format_single rfl hobject]
  · rw [format, format, normalise_arr_congr (item_text_of_object hname hdot hfields q)]
  · obtain ⟨head, tail, ignored, hcut, hhead, hparse, htext⟩ :=
      item_text_dotted hname hdot d ignoreCase
    refine ⟨head, tail, ignored, hcut, hhead, hparse, format_single rfl (htext q) context, ?_⟩
    intro r hcolumn hnamed
    constructor
    · rw [run_lenientSort_single r rfl, Query.sort_cutKey hcolumn hparse]
    · rw [run_lenientSort_single r rfl, Query.sort_spelledKey hnamed, Query.columnOperand, hname]
      rfl

/-- The object for a quoted name with a dot, ascending. -/
def unitPriceItem : Dict Json :=
  [("field", .str "\"unit.price\""), ("order", .str "asc"), ("ci", .bool false)]

/-- The record says of the quoted price what the text says. -/
theorem isObjectItem_unitPrice :
    IsObjectItem unitPriceItem "\"unit.price\"" .asc false := ⟨rfl, rfl, rfl, rfl, rfl⟩

/-- The object for a bare name, descending and without regard to case. -/
def nameItem : Dict Json := [("ci", .bool true), ("field", .str "name"), ("order", .str "desc")]

/-- The record says of the name what the text says. -/
theorem isObjectItem_name : IsObjectItem nameItem "name" .desc true := ⟨rfl, rfl, rfl, rfl, rfl⟩

/-- The two forms agree for a bare name, and they do not for a quoted one with a dot. -/
theorem item_forms_agree_name :
    lenientSort.format namedProducts (.str "name.desc.ci") plainContext =
      lenientSort.format namedProducts (.obj nameItem) plainContext ∧
    item namedProducts (.str "\"unit.price\".asc") ≠ item namedProducts (.obj unitPriceItem) := by
  have hname : Ident.parse "name" = .ok (.bare "name") := by decide
  have hquoted : Ident.parse "\"unit.price\"" = .ok (.quoted "unit.price") := by decide
  have hbare := item_forms_agree_iff hname .desc true isObjectItem_name namedProducts plainContext
  have hdotted := item_forms_agree_iff hquoted .asc false isObjectItem_unitPrice namedProducts
    plainContext
  exact ⟨(hbare.2.2.1 (by decide)).1, fun hsame => hdotted.2.1.mp hsame (by decide)⟩

/-- **A dotted name is taken apart.** The text for a quoted name with a dot changes nothing of the
query, while the object with the same name orders by the column. -/
theorem item_forms_differ :
    Ident.parse "\"unit.price\"" = .ok (.quoted "unit.price") ∧
    ∃ cut spelled,
      lenientSort.format namedProducts (.str "\"unit.price\".asc") plainContext = pure cut ∧
      lenientSort.format namedProducts (.obj unitPriceItem) plainContext = pure spelled ∧
      lenientSort.run namedProducts cut = .ok namedProducts ∧
      lenientSort.run namedProducts spelled =
        .ok (namedProducts.orderBy (.column ⟨'p', 0⟩ (.quoted "unit.price")) .asc) ∧
      namedProducts.order ≠
        (namedProducts.orderBy (.column ⟨'p', 0⟩ (.quoted "unit.price")) .asc).order := by
  refine ⟨by decide, _, _, rfl, rfl, rfl, rfl, ?_⟩
  decide

end Builtin

end Listing
