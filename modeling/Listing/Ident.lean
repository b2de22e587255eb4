namespace Listing

/-!
# Identifiers

The names of tables, columns and keys.  A name that a request supplies reaches a statement only as
an identifier, so this grammar is what keeps requests out of the text of statements.

* `Ident` — a bare name, or a quoted name with any characters but NUL;
* `Ident.parse` — reads one identifier: `[A-Za-z_][A-Za-z0-9_$]*`, or a non-empty body between
  double quotes in which a quote is written twice;
* `Ident.text` — the identifier as it stands in a statement.
-/

/-- The name of a table, column or key. -/
inductive Ident
  | bare (name : String)
  | quoted (name : String)
  deriving DecidableEq, Repr

/-- Why a text is no identifier. -/
inductive IdentFault
  | empty
  | containsNul
  | badStart (text : String)
  | badCharacter (text : String) (c : Char)
  | unclosed
  | trailing
  | emptyBody
  deriving DecidableEq, Repr

namespace IdentFault

/-- The wording of the fault. -/
def message : IdentFault → String
  | empty => "Identifier cannot be empty"
  | containsNul => "Identifier cannot contain NUL character"
  | badStart text => "Invalid identifier start in `" ++ text ++ "`"
  | badCharacter text c =>
    "Invalid character in identifier `" ++ text ++ "`: '" ++ c.toString ++ "'"
  | unclosed => "Unclosed quoted identifier"
  | trailing => "Unexpected characters after quoted identifier"
  | emptyBody => "Empty quoted identifier"

end IdentFault

namespace Ident

/-- Whether a bare name may start with `c`. -/
def isStart (c : Char) : Bool := c == '_' || c.isAlpha

/-- Whether a bare name may go on with `c`. -/
def isPart (c : Char) : Bool := c == '_' || c == '$' || c.isAlphanum

/-- The body of a quoted name up to its closing quote, and the text after that quote. -/
def body : List Char → Except IdentFault (List Char × List Char)
  | [] => .error .unclosed
  | '"' :: '"' :: rest => (body rest).map fun (name, rest) => ('"' :: name, rest)
  | c :: rest =>
    if c = '"' then .ok ([], rest) else (body rest).map fun (name, rest) => (c :: name, rest)

/-- A quoted name after its opening quote. -/
def parseQuoted (text : List Char) : Except IdentFault Ident := do
  let (name, rest) ← body text
  if !rest.isEmpty then throw .trailing
  else if name.isEmpty then throw .emptyBody
  else return .quoted (String.ofList name)

/-- A bare name. -/
def parseBare (text : String) (start : Char) (rest : List Char) : Except IdentFault Ident :=
  if isStart start then
    match rest.find? fun c => !isPart c with
    | some c => .error (.badCharacter text c)
    | none => .ok (.bare text)
  else .error (.badStart text)

/-- Reads a text that is one identifier. -/
def parse (text : String) : Except IdentFault Ident :=
  match text.toList with
  | [] => .error .empty
  | start :: rest =>
    -- wherever it stands, also after a fault of another kind
    if '\x00' ∈ start :: rest then .error .containsNul
    else if start = '"' then parseQuoted rest
    else parseBare text start rest

/-- The body of a quoted name as written: a quote twice, any other character once. -/
def doubled : List Char → List Char
  | [] => []
  | c :: rest => if c = '"' then '"' :: '"' :: doubled rest else c :: doubled rest

/-- The identifier as it stands in a statement. -/
def text : Ident → String
  | bare name => name
  | quoted name => String.ofList ('"' :: (doubled name.toList ++ ['"']))

/-- The name, whatever way it is written. -/
def name : Ident → String
  | bare name => name
  | quoted name => name

/-- Reading a written body gives the name back, whatever follows the closing quote. -/
theorem body_doubled (name rest : List Char) (h : rest.head? ≠ some '"') :
    body (doubled name ++ '"' :: rest) = .ok (name, rest) := by
  induction name with
  | nil =>
    cases rest with
    | nil => rfl
    | cons c rest =>
      have hc : c ≠ '"' := by simpa using h
      simp [doubled, body, hc]
  | cons c name ih =>
    by_cases hc : c = '"'
    · subst hc
      simp [doubled, body, ih, Except.map]
    · cases hd : doubled name ++ '"' :: rest with
      | nil => simp at hd
      | cons d tail =>
        rw [hd] at ih
        simp [doubled, hc, hd, body, ih, Except.map]

end Ident

end Listing
