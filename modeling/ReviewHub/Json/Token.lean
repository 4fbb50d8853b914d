import ReviewHub.Json.Basic
import ReviewHub.Json.Cursor
/-!
# Words, strings and numbers

The scalars of JSON. A number without point and exponent is an integer as long as it fits 64 bits
(and is not a negative zero); every other number is a double. Of the digits of a double those count
that fit a 64-bit word; the integer digits after them count as places only.
-/

namespace ReviewHub.Json.Reader

/-- Takes off exactly the characters of a word. -/
def word : List Char → Reader Unit
  | [] => pure ()
  | expected :: more => do
    match ← peek with
    | none => fail .noValue
    | some c => if c = expected then skip; word more else failNext .wordExpected

/-! ### Strings -/

def hexDigit? (c : Char) : Option Nat :=
  if c.isDigit then some (c.toNat - '0'.toNat)
  else if 'a' ≤ c ∧ c ≤ 'f' then some (c.toNat - 'a'.toNat + 10)
  else if 'A' ≤ c ∧ c ≤ 'F' then some (c.toNat - 'A'.toNat + 10)
  else none

def hexNumber? (cs : List Char) : Option Nat :=
  cs.foldl (fun n? c => n?.bind fun n => (hexDigit? c).map (n * 16 + ·)) (some 0)

/-- Takes off the four digits of an escape by code unit. -/
def hexEscape : Reader Nat := fun c =>
  let digits := c.rest.take 4
  if (String.ofList digits).utf8ByteSize < 4 then
    .error ⟨.malformed .openString, some (c.place.afterAll c.rest)⟩
  else
    match hexNumber? digits with
    | some n => .ok (n, c.advance digits (c.rest.drop 4))
    | none => .error ⟨.malformed .invalidEscape, some (c.place.afterBytes 4 c.rest)⟩

/-- The code unit is the first half of a pair. -/
def isLeading (n : Nat) : Bool := 0xD800 ≤ n && n ≤ 0xDBFF

def isTrailing (n : Nat) : Bool := 0xDC00 ≤ n && n ≤ 0xDFFF

/-- The character of an escape by code unit; a leading half needs its trailing half at once. -/
def unicodeEscape : Reader Char := do
  let lead ← hexEscape
  if isTrailing lead then fail .loneSurrogate
  else if isLeading lead then
    require '\\'
    require 'u'
    let trail ← hexEscape
    if isTrailing trail then
      return Char.ofNat ((lead - 0xD800) * 0x400 + (trail - 0xDC00) + 0x10000)
    else fail .loneSurrogate
  else return Char.ofNat lead
where
  /-- Takes off the character that continues a pair. -/
  require (expected : Char) : Reader Unit := do
    match ← peek with
    | none => fail .openString
    | some c => if c = expected then skip else failNext .escapeCutShort

/-- The character that a one-letter escape stands for. -/
def shortEscape? : Char → Option Char
  | '"' => some '"'
  | '\\' => some '\\'
  | '/' => some '/'
  | 'b' => some '\x08'
  | 'f' => some '\x0c'
  | 'n' => some '\n'
  | 'r' => some '\r'
  | 't' => some '\t'
  | _ => none

/-- The character of an escape whose backslash has been taken off. -/
def escape (unicode : Reader Char) : Reader Char := do
  match ← peek with
  | none => fail .openString
  | some 'u' => skip; unicode
  | some c =>
    match shortEscape? c with
    | some x => skip; return x
    | none => failNext .invalidEscape

/-- A control character, which a string may hold only as an escape. -/
def isControl (c : Char) : Bool := c.toNat < 0x20

/-- The rest of a string whose opening quote has been taken off; `done` has the characters before
it in reverse. Every round takes off a character, so the length of the text is fuel enough. -/
def stringRest (done : List Char) : Nat → Reader String
  | 0 => fail .openString
  | fuel + 1 => do
    match ← peek with
    | none => fail .openString
    | some '"' => skip; return String.ofList done.reverse
    | some '\\' => skip; let c ← escape unicodeEscape; stringRest (c :: done) fuel
    | some c =>
      if isControl c then failNext .controlCharacter else skip; stringRest (c :: done) fuel

def string : Reader String := fun c => stringRest [] (c.rest.length + 1) c

/-! ### Numbers -/

/-- `10 ^ n` as a double. -/
def tenTo (n : Nat) : Float := Float.ofScientific 1 false n

/-- Moves the point `places` to the left, at most 308 places in one division. -/
def divideOut (x : Float) (places : Nat) : Float :=
  if places ≤ 308 then x / tenTo places
  else if x == 0 then x
  else divideOut (x / tenTo 308) (places - 308)
termination_by places

/-- The double `significand * 10 ^ exponent`, each step rounded, unless it is infinite. -/
def realOfParts? (significand : Nat) (exponent : Int) : Option Float :=
  let x := significand.toUInt64.toFloat
  if exponent < 0 then some (divideOut x exponent.natAbs)
  else if 308 < exponent then (if x == 0 then some x else none)
  else
    let y := x * tenTo exponent.toNat
    if y.isInf then none else some y

def signedReal (positive : Bool) (significand : Nat) (exponent : Int) : Reader Json :=
  match realOfParts? significand exponent with
  | some x => return .real (if positive then x else -x)
  | none => fail .numberOutOfRange

/-- The integer with a sign. What does not fit 64 bits, and minus zero, is a double. -/
def signedInteger (positive : Bool) (n : Nat) : Json :=
  if positive then .integer n
  else if 0 < n ∧ n ≤ 0x8000000000000000 then .integer (-n)
  else .real (-n.toUInt64.toFloat)

/-- Appends digits to a number as long as it fits 64 bits, and counts those appended. -/
def absorb (n : Nat) : List Char → Nat × Nat
  | [] => (n, 0)
  | c :: cs =>
    let m := n * 10 + (c.toNat - '0'.toNat)
    if m < UInt64.size then (absorb m cs).map id (· + 1) else (n, 0)

/-- Takes off the digits of an exponent; `none` if it does not fit 31 bits, whose digits are only
taken off up to the one that is too many. -/
def exponentDigits (n : Nat) : Nat → Reader (Option Nat)
  | 0 => return some n
  | fuel + 1 => do
    match ← peek with
    | none => return some n
    | some c =>
      if c.isDigit then
        skip
        let m := n * 10 + (c.toNat - '0'.toNat)
        if m < 0x80000000 then exponentDigits m fuel else return none
      else return some n

/-- The exponent and all before it; `e` is next. -/
def exponentPart (positive : Bool) (significand : Nat) (places : Int) : Reader Json := do
  skip
  let up ← match ← peek with
    | some '+' => skip; pure true
    | some '-' => skip; pure false
    | _ => pure true
  match ← peek with
  | none => fail .noValue
  | some c =>
    if !c.isDigit then failNext .invalidNumber
    else
      match ← fun c => exponentDigits 0 (c.rest.length + 1) c with
      | some n => signedReal positive significand (if up then places + n else places - n)
      | none =>
        if significand ≠ 0 ∧ up then fail .numberOutOfRange
        else
          let _ ← takeWhile Char.isDigit
          signedReal positive 0 0

def afterDigits (positive : Bool) (significand : Nat) (places : Int) : Reader Json := do
  match ← peek with
  | some 'e' => exponentPart positive significand places
  | some 'E' => exponentPart positive significand places
  | _ => signedReal positive significand places

def fractionPart (positive : Bool) (significand : Nat) (places : Int) : Reader Json := do
  skip
  match ← takeWhile Char.isDigit with
  | [] =>
    match ← peek with
    | none => fail .noValue
    | some _ => failNext .invalidNumber
  | digits =>
    let (n, count) := absorb significand digits
    afterDigits positive n (places - count)

/-- A number whose sign has been taken off. -/
def number (positive : Bool) : Reader Json := do
  match ← peek with
  | none => fail .noValue
  | some '0' =>
    skip
    match ← peek with
    | some c => if c.isDigit then failNext .invalidNumber else afterInteger 0 0
    | none => afterInteger 0 0
  | some c =>
    if c.isDigit then
      let digits ← takeWhile Char.isDigit
      let (n, count) := absorb 0 digits
      afterInteger n (digits.length - count)
    else failNext .invalidNumber
where
  /-- What follows the integer digits, of which `dropped` did not fit. -/
  afterInteger (n dropped : Nat) : Reader Json := do
    match ← peek with
    | some '.' => fractionPart positive n dropped
    | some 'e' => exponentPart positive n dropped
    | some 'E' => exponentPart positive n dropped
    | _ => if dropped = 0 then return signedInteger positive n else signedReal positive n dropped

/-! ### Values that are passed over -/

/-- Takes off the exponent of a number that is passed over; `e` is next. -/
def passExponent : Reader Unit := do
  skip
  match ← peek with
  | some '+' => skip
  | some '-' => skip
  | _ => pure ()
  match ← takeWhile Char.isDigit with
  | [] => failNext .invalidNumber
  | _ => pure ()

def passFraction : Reader Unit := do
  skip
  match ← takeWhile Char.isDigit with
  | [] => failNext .invalidNumber
  | _ =>
    match ← peek with
    | some 'e' => passExponent
    | some 'E' => passExponent
    | _ => pure ()

/-- Takes off a number whose sign has been taken off, whatever its size. -/
def passNumber : Reader Unit := do
  match ← peek with
  | some '0' =>
    skip
    match ← peek with
    | some c => if c.isDigit then failNext .invalidNumber else tail
    | none => pure ()
  | _ =>
    match ← takeWhile Char.isDigit with
    | [] => failNext .invalidNumber
    | _ => tail
where
  /-- What may follow the integer digits. -/
  tail : Reader Unit := do
    match ← peek with
    | some '.' => passFraction
    | some 'e' => passExponent
    | some 'E' => passExponent
    | _ => pure ()

/-- Takes off the rest of a string that is passed over; halves of pairs may stand alone in it. -/
def passStringRest : Nat → Reader Unit
  | 0 => fail .openString
  | fuel + 1 => do
    match ← peek with
    | none => fail .openString
    | some '"' => skip
    | some '\\' =>
      skip
      let _ ← escape (do let _ ← hexEscape; return ' ')
      passStringRest fuel
    | some c => if isControl c then fail .controlCharacter else skip; passStringRest fuel

def passString : Reader Unit := fun c => passStringRest (c.rest.length + 1) c

end ReviewHub.Json.Reader
