import ReviewHub.Json.Structure
import ReviewHub.Text.Blank
/-!
# Decoders

A decoder reads a value of a domain type off the wire. It works on a JSON value that has been read
already and, without building one, on the text itself; the second way can also run into defects of
the text. Both report the same mismatches.
-/

namespace ReviewHub.Wire

open Json (Reader)

variable {α β : Type}

/-- A way to read an `α` from a JSON value, and straight from a text in which lists and objects may
nest less than the given number of levels deep. -/
structure Decoder (α : Type) where
  ofJson : Json → Except Mismatch α
  ofText : Nat → Reader α

/-- What a JSON value shows of itself where it is not wanted. -/
def shown : Json → Found
  | .null => .null
  | .bool b => .bool b
  | .integer n => .integer n
  | .real x => .real x
  | .string s => .string s
  | .array _ => .list
  | .object _ => .map

def wrongType (expected : Expected) (v : Json) : Mismatch := .wrongType (shown v) expected

/-- The outcome of a decoder at the cursor. -/
def settle : Except Mismatch α → Reader α
  | .ok a => return a
  | .error m => Reader.refuse m

namespace Decoder

def map (f : α → β) (d : Decoder α) : Decoder β where
  ofJson v := (d.ofJson v).map f
  ofText levels := f <$> d.ofText levels

@[simp] theorem map_ofJson (f : α → β) (d : Decoder α) (v : Json) :
    (d.map f).ofJson v = (d.ofJson v).map f := rfl

/-- Reads the next value of the text to the end if it is a scalar, and decides on it. A list or an
object is not entered; `read` refuses those. -/
def ofScalar (read : Json → Except Mismatch α) : Decoder α where
  ofJson := read
  ofText _ := do
    match ← Reader.peekToken with
    | none => Reader.fail .noValue
    | some '[' => settle (read (.array []))
    | some '{' => settle (read (.object []))
    | some c => settle (read (← Reader.scalar c))

/-- Reads the next value of the text as a tree and decides on it. -/
def ofTree (read : Json → Except Mismatch α) : Decoder α where
  ofJson := read
  ofText levels := do settle (read (← Reader.value levels))

def text : Decoder String := ofScalar fun
  | .string s => .ok s
  | v => .error (wrongType .text v)

def flag : Decoder Bool := ofScalar fun
  | .bool b => .ok b
  | v => .error (wrongType .flag v)

/-- A natural number below `bound`, whose width has a name. -/
def natural (width : String) (bound : Nat) : Decoder Nat := ofScalar fun
  | .integer n =>
    if 0 ≤ n ∧ n < bound then .ok n.toNat else .error (.outOfRange n (.natural width))
  | v => .error (wrongType (.natural width) v)

def word64 : Decoder UInt64 := (natural "u64" UInt64.size).map UInt64.ofNat

def word32 : Decoder UInt32 := (natural "u32" UInt32.size).map UInt32.ofNat

/-- A count: a natural number of 64 bits. -/
def count : Decoder UInt64 := (natural "usize" UInt64.size).map UInt64.ofNat

/-- A natural number of 64 bits, as an integer or as its decimal text between blanks, or `null`. -/
def numberOrText : Decoder (Option UInt64) := ofTree fun
  | .null => .ok none
  | .integer n =>
    if 0 ≤ n ∧ n < UInt64.size then .ok (some (UInt64.ofNat n.toNat))
    else .error .neitherNumberNorText
  | .string s =>
    match Text.readNumeral UInt64.size (Text.trim s.toList) with
    | .ok n => .ok (some (UInt64.ofNat n))
    | .error fault => .error (.numeral fault)
  | _ => .error .neitherNumberNorText

/-- What `d` reads, or `null` for nothing. -/
def optional (d : Decoder α) : Decoder (Option α) where
  ofJson
    | .null => .ok none
    | v => (d.ofJson v).map some
  ofText levels := do
    match ← Reader.peekToken with
    | some 'n' => let _ ← Reader.scalar 'n'; return none
    | _ => some <$> d.ofText levels

def listOf (d : Decoder α) : Decoder (List α) where
  ofJson
    | .array xs => xs.mapM d.ofJson
    | v => .error (wrongType .list v)
  ofText levels := do
    match ← Reader.peekToken with
    | some '[' =>
      let xs ← Reader.list levels [] fun inner xs => return (← d.ofText inner) :: xs
      return xs.reverse
    | none => Reader.fail .noValue
    | some '{' => Reader.refuse (wrongType .list (.object []))
    | some c => Reader.refuse (wrongType .list (← Reader.scalar c))

def decodeText (d : Decoder α) (text : List Char) : Except Json.Fault α :=
  Reader.readWhole (d.ofText Reader.levelLimit) text

end Decoder

end ReviewHub.Wire
