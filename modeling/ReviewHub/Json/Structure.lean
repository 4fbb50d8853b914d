import ReviewHub.Json.Token
/-!
# Lists and objects

The punctuation of lists and objects, and two readers built on it: one that keeps a value as a
tree, and one that passes over a value without looking into it. The tree reader bounds how deep
lists and objects may nest; the other does not, and is laxer about numbers and strings as well.
-/

namespace ReviewHub.Json.Reader

variable {α σ : Type}

/-- How deep lists and objects may nest, plus one. -/
def levelLimit : Nat := 128

/-- Takes off an opening bracket and reads on with one level less, if one is left. -/
def nested (levels : Nat) (inner : Nat → Reader α) : Reader α :=
  match levels with
  | 0 => failNext .nestedTooDeep
  | 1 => failNext .nestedTooDeep
  | more + 1 => do skip; inner more

/-- Whether one more element of a list follows, taking off the comma before it. -/
def nextElement (first : Bool) : Reader Bool := do
  match ← peekToken with
  | none => fail .openList
  | some ']' => return false
  | some c =>
    if first then return true
    else if c = ',' then
      skip
      match ← peekToken with
      | some ']' => failNext .trailingComma
      | some _ => return true
      | none => fail .noValue
    else failNext .listCommaExpected

def closeList : Reader Unit := do
  match ← peekToken with
  | some ']' => skip
  | some ',' =>
    skip
    match ← peekToken with
    | some ']' => failNext .trailingComma
    | _ => failNext .trailingCharacters
  | some _ => failNext .trailingCharacters
  | none => fail .openList

/-- The key of one more member of an object, if one follows, taking off the comma before it. -/
def nextKey (first : Bool) : Reader (Option String) := do
  match ← peekToken with
  | none => fail .openObject
  | some '}' => return none
  | some c =>
    if first then
      if c = '"' then some <$> (do skip; string) else failNext .keyNotString
    else if c = ',' then
      skip
      match ← peekToken with
      | some '"' => some <$> (do skip; string)
      | some '}' => failNext .trailingComma
      | some _ => failNext .keyNotString
      | none => fail .noValue
    else failNext .objectCommaExpected

def colon : Reader Unit := do
  match ← peekToken with
  | some ':' => skip
  | some _ => failNext .colonExpected
  | none => fail .openObject

def closeObject : Reader Unit := do
  match ← peekToken with
  | some '}' => skip
  | some ',' => failNext .trailingComma
  | some _ => failNext .trailingCharacters
  | none => fail .openObject

def foldElements (step : σ → Reader σ) (first : Bool) (s : σ) : Nat → Reader σ
  | 0 => fail .openList
  | fuel + 1 => do
    if ← nextElement first then foldElements step false (← step s) fuel else return s

/-- Reads the members of an object up to its end; `step` reads what follows a key. -/
def foldMembers (step : σ → String → Reader σ) (first : Bool) (s : σ) : Nat → Reader σ
  | 0 => fail .openObject
  | fuel + 1 => do
    match ← nextKey first with
    | none => return s
    | some key => foldMembers step false (← step s key) fuel

/-- A list, its bracket being next, read by `step` from `s` on. Every element takes off a
character, so the length of the text is fuel enough. -/
def list (levels : Nat) (s : σ) (step : Nat → σ → Reader σ) : Reader σ :=
  nested levels fun inner => do
    let s ← fun c => foldElements (step inner) true s (c.rest.length + 1) c
    closeList
    return s

/-- An object, its brace being next, read by `step` from `s` on. -/
def object (levels : Nat) (s : σ) (step : Nat → σ → String → Reader σ) : Reader σ :=
  nested levels fun inner => do
    let s ← fun c => foldMembers (step inner) true s (c.rest.length + 1) c
    closeObject
    return s

/-- A scalar, of which `first` is the next character. -/
def scalar (first : Char) : Reader Json := do
  match first with
  | 'n' => word ['n', 'u', 'l', 'l']; return .null
  | 't' => word ['t', 'r', 'u', 'e']; return .bool true
  | 'f' => word ['f', 'a', 'l', 's', 'e']; return .bool false
  | '"' => skip; return .string (← string)
  | '-' => skip; number false
  | c => if c.isDigit then number true else failNext .valueExpected

def valueWithin (levels : Nat) : Nat → Reader Json
  | 0 => fail .noValue
  | fuel + 1 => do
    match ← peekToken with
    | none => fail .noValue
    | some '[' =>
      let xs ← list levels [] fun inner xs => return (← valueWithin inner fuel) :: xs
      return .array xs.reverse
    | some '{' =>
      let ms ← object levels [] fun inner ms key => do
        colon
        return (key, ← valueWithin inner fuel) :: ms
      return .object ms.reverse
    | some c => scalar c

/-- A value as a tree, its lists and objects nested less than `levels` deep. -/
def value (levels : Nat) : Reader Json := fun c => valueWithin levels (c.rest.length + 1) c

/-! ### Passing over -/

inductive Frame where
  | list
  | object
deriving DecidableEq, Repr

/-- Takes off a key and its colon inside an object that is passed over. -/
def passKey : Reader Unit := do
  match ← peekToken with
  | some '"' => skip; passString
  | some _ => failNext .keyNotString
  | none => fail .openObject
  colon

/-- Takes off the scalar of which `first` is the next character, or an opening bracket, which it
answers. -/
def passOpening (first : Char) : Reader (Option Frame) := do
  match first with
  | 'n' => word ['n', 'u', 'l', 'l']; return none
  | 't' => word ['t', 'r', 'u', 'e']; return none
  | 'f' => word ['f', 'a', 'l', 's', 'e']; return none
  | '"' => skip; passString; return none
  | '-' => skip; passNumber; return none
  | '[' => skip; return some .list
  | '{' => skip; return some .object
  | c => if c.isDigit then passNumber; return none else failNext .valueExpected

/-- Takes off closing brackets up to where the next value of an enclosing frame begins, and answers
the frames that are still open. `complete` says that the last frame has had a value. -/
def passClosings (complete : Bool) : List Frame → Reader (List Frame)
  | [] => return []
  | frame :: outer => do
    match ← peekToken with
    | none => match frame with
      | .list => fail .openList
      | .object => fail .openObject
    | some c =>
      if c = ',' ∧ complete then skip; return frame :: outer
      else if (c = ']' ∧ frame = .list) ∨ (c = '}' ∧ frame = .object) then
        skip
        passClosings true outer
      else if complete then match frame with
        | .list => failNext .listCommaExpected
        | .object => failNext .objectCommaExpected
      else return frame :: outer

/-- Takes off a value that stands in the given frames, and all that they hold after it. -/
def passFrames (frames : List Frame) : Nat → Reader Unit
  | 0 => fail .noValue
  | fuel + 1 => do
    match ← peekToken with
    | none => fail .noValue
    | some c =>
      let frames ← match ← passOpening c with
        | some frame => passClosings false (frame :: frames)
        | none => passClosings true frames
      match frames with
      | [] => return ()
      | .list :: _ => passFrames frames fuel
      | .object :: _ => passKey; passFrames frames fuel

def pass : Reader Unit := fun c => passFrames [] (c.rest.length + 1) c

end Reader

/-- The value that the text writes, with members in text order. -/
def parse (text : List Char) : Except Fault Json :=
  Reader.readWhole (Reader.value Reader.levelLimit) text

end ReviewHub.Json
