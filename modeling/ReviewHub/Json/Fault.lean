import ReviewHub.Json.Mismatch
/-!
# Faults in a JSON text

A fault is either a defect of the text as JSON or a mismatch between a well-formed part of it and
what was to be read there. Most faults know their place.
-/

namespace ReviewHub.Json

/-- A place in a text. Lines count from one; the column is the number of bytes since the line
began. -/
structure Position where
  line : Nat
  column : Nat
deriving DecidableEq, Repr

/-- What is wrong with a text that is not JSON. -/
inductive Defect where
  | openList
  | openObject
  | openString
  | noValue
  | colonExpected
  | listCommaExpected
  | objectCommaExpected
  | wordExpected
  | valueExpected
  | invalidEscape
  | invalidNumber
  | numberOutOfRange
  | controlCharacter
  | keyNotString
  | loneSurrogate
  | trailingComma
  | trailingCharacters
  | escapeCutShort
  | nestedTooDeep
deriving DecidableEq, Repr

namespace Defect

def message : Defect → String
  | openList => "EOF while parsing a list"
  | openObject => "EOF while parsing an object"
  | openString => "EOF while parsing a string"
  | noValue => "EOF while parsing a value"
  | colonExpected => "expected `:`"
  | listCommaExpected => "expected `,` or `]`"
  | objectCommaExpected => "expected `,` or `\x7d`"
  | wordExpected => "expected ident"
  | valueExpected => "expected value"
  | invalidEscape => "invalid escape"
  | invalidNumber => "invalid number"
  | numberOutOfRange => "number out of range"
  | controlCharacter => "control character (\\u0000-\\u001F) found while parsing a string"
  | keyNotString => "key must be a string"
  | loneSurrogate => "lone leading surrogate in hex escape"
  | trailingComma => "trailing comma"
  | trailingCharacters => "trailing characters"
  | escapeCutShort => "unexpected end of hex escape"
  | nestedTooDeep => "recursion limit exceeded"

end Defect

inductive Cause where
  | malformed (defect : Defect)
  | mismatch (mismatch : Mismatch)
deriving Inhabited

def Cause.message : Cause → String
  | malformed d => d.message
  | mismatch m => m.message

/-- Why a text could not be read, and where that showed. -/
structure Fault where
  cause : Cause
  place : Option Position
deriving Inhabited

namespace Fault

/-- A mismatch in a value that no longer knows its text. -/
def unplaced (m : Mismatch) : Fault := ⟨.mismatch m, none⟩

/-- The wording of the fault with its place, if it has one. -/
def message (f : Fault) : String :=
  match f.place with
  | none => f.cause.message
  | some p =>
    f.cause.message ++ " at line " ++ toString p.line ++ " column " ++ toString p.column

end Fault

end ReviewHub.Json
