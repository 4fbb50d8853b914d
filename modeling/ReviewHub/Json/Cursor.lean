import ReviewHub.Json.Fault
/-!
# Reading a text from left to right

A cursor is the rest of a text together with the place where it begins. A reader takes a value off
the front of the rest or fails. Defects are reported either at the cursor or just past the next
byte, the one that is at fault.
-/

namespace ReviewHub.Json

namespace Position

def after (p : Position) (c : Char) : Position :=
  if c = '\n' then ⟨p.line + 1, 0⟩ else ⟨p.line, p.column + c.utf8Size⟩

def afterAll (p : Position) (cs : List Char) : Position :=
  cs.foldl after p

@[simp] theorem afterAll_append (p : Position) (front rest : List Char) :
    p.afterAll (front ++ rest) = (p.afterAll front).afterAll rest := by
  simp [afterAll]

/-- The place `n` bytes further on in the text, or its end. -/
def afterBytes (p : Position) (n : Nat) : List Char → Position
  | [] => p
  | c :: cs =>
    if c.utf8Size ≤ n then afterBytes (p.after c) (n - c.utf8Size) cs
    else ⟨p.line, p.column + n⟩

end Position

/-- The rest of a text and the place where it begins. -/
structure Cursor where
  rest : List Char
  place : Position
deriving DecidableEq, Repr

namespace Cursor

def ofText (text : List Char) : Cursor := ⟨text, ⟨1, 0⟩⟩

/-- The cursor after its first characters, which are `front`, with `rest` left. -/
def advance (c : Cursor) (front rest : List Char) : Cursor :=
  ⟨rest, c.place.afterAll front⟩

/-- The place just past the next byte. -/
def pastNext (c : Cursor) : Position := c.place.afterBytes 1 c.rest

end Cursor

/-- A computation that takes a value off the front of a text or fails. -/
abbrev Reader (α : Type) := StateT Cursor (Except Fault) α

namespace Reader

variable {α : Type}

/-- Fails with `defect` at the cursor. -/
def fail (defect : Defect) : Reader α :=
  fun c => .error ⟨.malformed defect, some c.place⟩

/-- Fails with `defect` just past the next byte. -/
def failNext (defect : Defect) : Reader α :=
  fun c => .error ⟨.malformed defect, some c.pastNext⟩

def refuse (mismatch : Mismatch) : Reader α :=
  fun c => .error ⟨.mismatch mismatch, some c.place⟩

def peek : Reader (Option Char) :=
  fun c => .ok (c.rest.head?, c)

def skip : Reader Unit :=
  fun c => .ok ((), match c.rest with | [] => c | x :: xs => c.advance [x] xs)

def takeWhile (p : Char → Bool) : Reader (List Char) :=
  fun c =>
    let front := c.rest.takeWhile p
    .ok (front, c.advance front (c.rest.dropWhile p))

/-- The blanks that may stand between tokens. -/
def isSpace (c : Char) : Bool :=
  c = ' ' || c = '\n' || c = '\t' || c = '\r'

/-- Takes the blanks off and looks at the next character. -/
def peekToken : Reader (Option Char) := do
  let _ ← takeWhile isSpace
  peek

/-- Reads the whole text with `r`; only blanks may follow. -/
def readWhole (r : Reader α) (text : List Char) : Except Fault α :=
  let whole : Reader α := do
    let a ← r
    match ← peekToken with
    | none => return a
    | some _ => failNext .trailingCharacters
  (whole (Cursor.ofText text)).map Prod.fst

end Reader

end ReviewHub.Json
