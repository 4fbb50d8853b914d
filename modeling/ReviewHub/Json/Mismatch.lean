import ReviewHub.Decimal.Layout
import ReviewHub.Text.Numeral
import ReviewHub.Text.Quoted
/-!
# Values that do not fit

What can be wrong with a well-formed JSON value that is to be read as something particular: it has
the wrong type, lies out of range, repeats a member, lacks the tag, carries an unknown one, has too
many elements, or is a number text that denotes no number.
-/

namespace ReviewHub

/-- What stands where something else was expected. -/
inductive Found where
  | null
  | bool (b : Bool)
  | integer (n : Int)
  | real (x : Float)
  | string (s : String)
  | list
  | map
deriving Inhabited

inductive Expected where
  | text
  | flag
  | list
  /-- A natural number, by the name of its width. -/
  | natural (width : String)
  /-- A record, by its title. -/
  | record (title : String)
  /-- An event with its type. -/
  | event
  /-- The type of an event. -/
  | eventType
deriving DecidableEq, Repr

/-- Why a JSON value is not a value of the expected shape. -/
inductive Mismatch where
  | wrongType (found : Found) (expected : Expected)
  | outOfRange (n : Int) (expected : Expected)
  | duplicateMember (key : String)
  | missingType
  | unknownType (type : String) (known : List String)
  | tooManyElements (count expected : Nat)
  | neitherNumberNorText
  | numeral (fault : Text.NumeralFault)
deriving Inhabited

namespace Found

def message : Found → String
  | null => "null"
  | bool b => if b then "boolean `true`" else "boolean `false`"
  | integer n => "integer `" ++ toString n ++ "`"
  | real x => "floating point `" ++ Decimal.plainLayout.render x ++ "`"
  | string s => "string " ++ Text.quoted s
  | list => "sequence"
  | map => "map"

end Found

namespace Expected

def message : Expected → String
  | text => "a string"
  | flag => "a boolean"
  | list => "a sequence"
  | natural width => width
  | record title => "struct " ++ title
  | event => "internally tagged enum GerritEvent"
  | eventType => "variant identifier"

end Expected

namespace Mismatch

def ticked (s : String) : String := "`" ++ s ++ "`"

def message : Mismatch → String
  | wrongType found expected =>
    "invalid type: " ++ found.message ++ ", expected " ++ expected.message
  | outOfRange n expected =>
    "invalid value: " ++ (Found.integer n).message ++ ", expected " ++ expected.message
  | duplicateMember key => "duplicate field " ++ ticked key
  | missingType => "missing field " ++ ticked "type"
  | unknownType type known =>
    "unknown variant " ++ ticked type ++ ", expected one of " ++
      ", ".intercalate (known.map ticked)
  | tooManyElements count expected =>
    "invalid length " ++ toString count ++ ", expected " ++ toString expected ++
      (if expected = 1 then " element in sequence" else " elements in sequence")
  | neitherNumberNorText => "data did not match any variant of untagged enum Raw"
  | numeral fault => fault.message

end Mismatch

end ReviewHub
