import Listing.Json.Decode
import Listing.Number.Reader

namespace Listing

/-!
# Relayed messages

The message of an error that a nested decoder raised becomes the message of the decoding error.  A
message may end in a position, ` at line L column C`; relaying reads the position and writes it
anew, and line zero stands for no position.

* `DecodeError.relay` — the decoding error with the message of another error.
-/

namespace DecodeError

namespace Position

/-- The start of a position. -/
def lineMark : List Char := " at line ".toList

/-- What stands between line and column. -/
def columnMark : List Char := " column ".toList

/-- Digits as a number of 64 bits. -/
def readWord (digits : List Char) : Option Nat :=
  if digits.isEmpty then none
  else
    let n := Number.digitsToNat digits
    if n < 2 ^ 64 then some n else none

/-- A position after its start, which takes up the whole text. -/
def readLineColumn (text : List Char) : Option (Nat × Nat) := do
  let (line, rest) := Number.spanDigits text
  if columnMark.isPrefixOf rest then
    let (column, rest) := Number.spanDigits (rest.drop columnMark.length)
    if rest.isEmpty then
      let line ← readWord line
      let column ← readWord column
      return (line, column)
    else none
  else none

/-- The text before the last start of a position, and the text after it. -/
def splitLast : List Char → Option (List Char × List Char)
  | [] => none
  | c :: rest =>
    match splitLast rest with
    | some (before, after) => some (c :: before, after)
    | none =>
      if lineMark.isPrefixOf (c :: rest) then some ([], (c :: rest).drop lineMark.length) else none

/-- The message with the position at its end, if it has one, written anew. -/
def renew (message : String) : String :=
  match splitLast message.toList with
  | none => message
  | some (before, after) =>
    match readLineColumn after with
    | none => message
    -- line zero stands for no position, so only the words remain
    | some (0, _) => String.ofList before
    | some (line, column) =>
      String.ofList before ++ " at line " ++ Number.natText line ++ " column " ++
        Number.natText column

end Position

/-- The decoding error with the message of another error. -/
def relay (message : String) : DecodeError := custom (Position.renew message)

example : Position.renew "odd at line 007 column 1" = "odd at line 7 column 1" ∧
    Position.renew "odd at line 0 column 1" = "odd" ∧
    Position.renew "odd at line 1 column 1." = "odd at line 1 column 1." := by decide +kernel

end DecodeError

end Listing
