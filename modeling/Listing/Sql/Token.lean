import Listing.Ident
import Listing.Number.Layout

namespace Listing.Sql

/-!
# Tokens of statements

A statement is built as a list of tokens and written with one blank between two tokens, except where
one of them clings to the other.  Values never stand in a statement: a token for a value holds only
the number of its placeholder.

* `Alias` — the name of a row source inside one statement;
* `Token` — a token, with its spelling in `Token.text`;
* `text` — the text of a list of tokens.
-/

/-- The name of a row source: a letter of its table and its position among the sources. -/
structure Alias where
  initial : Char
  index : Nat
  deriving DecidableEq, Repr

namespace Alias

/-- The alias of a table at a position: its first letter in lower case, `t` if it has none. -/
def ofTable (table : String) (index : Nat) : Alias :=
  match table.toList.find? Char.isAlpha with
  | some c => ⟨c.toLower, index⟩
  | none => ⟨'t', index⟩

/-- The alias as it stands in a statement. -/
def text (a : Alias) : String := String.ofList (a.initial :: Number.natDigits a.index)

end Alias

/-- The words of statements. -/
inductive Keyword
  | select
  | distinct
  | from_
  | as_
  | inner
  | left
  | cross
  | join
  | on
  | where_
  | and
  | or
  | not
  | in_
  | is
  | null
  | like
  | ilike
  | year
  | month
  | order
  | by_
  | asc
  | desc
  | limit
  | offset
  deriving DecidableEq, Repr

/-- The spelling of a word. -/
def Keyword.text : Keyword → String
  | select => "SELECT"
  | distinct => "DISTINCT"
  | from_ => "FROM"
  | as_ => "AS"
  | inner => "INNER"
  | left => "LEFT"
  | cross => "CROSS"
  | join => "JOIN"
  | on => "ON"
  | where_ => "WHERE"
  | and => "AND"
  | or => "OR"
  | not => "NOT"
  | in_ => "IN"
  | is => "IS"
  | null => "NULL"
  | like => "LIKE"
  | ilike => "ILIKE"
  | year => "YEAR"
  | month => "MONTH"
  | order => "ORDER"
  | by_ => "BY"
  | asc => "ASC"
  | desc => "DESC"
  | limit => "LIMIT"
  | offset => "OFFSET"

/-- The functions of statements. -/
inductive Function
  | extract
  | lower
  | upper
  | concat
  | coalesce
  | count
  deriving DecidableEq, Repr

/-- The spelling of a function's name. -/
def Function.text : Function → String
  | extract => "EXTRACT"
  | lower => "LOWER"
  | upper => "UPPER"
  | concat => "CONCAT"
  | coalesce => "COALESCE"
  | count => "COUNT"

/-- The relations between two values that are written as a sign. -/
inductive Sign
  | eq
  | gt
  | lt
  | gteq
  | lteq
  deriving DecidableEq, Repr

/-- The spelling of a sign. -/
def Sign.text : Sign → String
  | eq => "="
  | gt => ">"
  | lt => "<"
  | gteq => ">="
  | lteq => "<="

/-- A token of a statement. -/
inductive Token
  | keyword (k : Keyword)
  | call (f : Function)
  | openParen
  | closeParen
  | comma
  | dot
  | star
  | sign (s : Sign)
  | toInteger
  | truth (b : Bool)
  | placeholder (n : Nat)
  | source (a : Alias)
  | column (ident : Ident)
  | name (declared : String)
  | integer (n : Int)
  deriving DecidableEq, Repr

namespace Token

/-- The spelling of a token; the call of a function includes its opening parenthesis. -/
def text : Token → String
  | keyword k => k.text
  | call f => f.text ++ "("
  | openParen => "("
  | closeParen => ")"
  | comma => ","
  | dot => "."
  | star => "*"
  | sign s => s.text
  | toInteger => "::integer"
  | truth b => if b then "1=1" else "1=0"
  | placeholder n => "$" ++ Number.natText n
  | source a => a.text
  | column ident => ident.text
  | name declared => declared
  | integer n => Number.intText n

/-- Whether the next token follows without a blank. -/
def clingsToNext : Token → Bool
  | call _ | openParen | dot => true
  | _ => false

/-- Whether the token follows the one before it without a blank. -/
def clingsToLast : Token → Bool
  | closeParen | comma | dot | toInteger => true
  | _ => false

end Token

/-- The text of some tokens: a blank between two of them unless one clings to the other. -/
def text : List Token → String
  | [] => ""
  | [token] => token.text
  | token :: next :: rest =>
    -- one side is enough: `LOWER(` takes its argument, and `)` follows whatever it closes
    if token.clingsToNext || next.clingsToLast then token.text ++ text (next :: rest)
    else token.text ++ " " ++ text (next :: rest)

/-- Two lists of tokens with a token between them, unless one of them is empty. -/
def joined (link : Token) (first second : List Token) : List Token :=
  if first.isEmpty then second
  else if second.isEmpty then first
  else first ++ link :: second

/-- Lists of tokens with commas between them. -/
def commaSeparated : List (List Token) → List Token
  | [] => []
  | [only] => only
  | first :: next :: rest => first ++ .comma :: commaSeparated (next :: rest)

end Listing.Sql
