import ReviewHub.Wire.Decoder
/-!
# Records on the wire

A record is an object whose members stand under known keys in any order, or a list of its members
in the order of declaration. What is missing keeps its default. Members under other keys do not
matter; a known key may stand only once, and a list may not be longer than the record.
-/

namespace ReviewHub.Wire

open Json (Reader)

variable {R α : Type}

/-- A member of a record: its key, and how its value is read and put into the record. -/
structure Member (R : Type) where
  key : String
  decoder : Decoder (R → R)

/-- The member under `key` that `d` reads and `set` puts into the record. -/
def member (key : String) (d : Decoder α) (set : α → R → R) : Member R :=
  ⟨key, d.map set⟩

namespace Member

/-- The same member of a larger record. -/
def within {S : Type} (f : Member R) (modify : (R → R) → S → S) : Member S :=
  ⟨f.key, f.decoder.map modify⟩

def named? (known : List (Member R)) (key : String) : Option (Member R) :=
  known.find? (·.key = key)

end Member

/-- A record that is being read: what it holds so far, and the keys that have stood. -/
structure Draft (R : Type) where
  record : R
  seen : List String

namespace Record

def takeMember (known : List (Member R)) (d : Draft R) (key : String) (v : Json) :
    Except Mismatch (Draft R) :=
  match Member.named? known key with
  | none => .ok d
  | some f =>
    if key ∈ d.seen then .error (.duplicateMember key)
    else (f.decoder.ofJson v).map fun set => ⟨set d.record, key :: d.seen⟩

def takeMembers (known : List (Member R)) :
    Draft R → List (String × Json) → Except Mismatch (Draft R)
  | d, [] => .ok d
  | d, (key, v) :: ms => do takeMembers known (← takeMember known d key v) ms

/-- Takes the elements of a list into the record. `total` is the length of the whole list and
`expected` the number of members of the record. -/
def takeElements (total expected : Nat) :
    List (Member R) → R → List Json → Except Mismatch R
  | _, r, [] => .ok r
  | [], _, _ :: _ => .error (.tooManyElements total expected)
  | f :: fs, r, v :: vs => do
    let set ← f.decoder.ofJson v
    takeElements total expected fs (set r) vs

/-- Refuses an object with `m` once it is known whether the object ends here. -/
def refuseAfterClosing (m : Mismatch) : Reader α := do
  match ← Reader.peekToken with
  | some '}' => Reader.skip; Reader.refuse m
  | _ => Reader.refuse m

def readMember (known : List (Member R)) (levels : Nat) (d : Draft R) (key : String) :
    Reader (Draft R) := do
  match Member.named? known key with
  | none =>
    Reader.colon
    Reader.pass
    return d
  | some f =>
    if key ∈ d.seen then refuseAfterClosing (.duplicateMember key)
    else
      Reader.colon
      let set ← f.decoder.ofText levels
      return ⟨set d.record, key :: d.seen⟩

/-- Reads the elements of a list into the record, as many as there are members. -/
def readElements (levels : Nat) (first : Bool) : List (Member R) → R → Reader R
  | [], r => return r
  | f :: fs, r => do
    if ← Reader.nextElement first then
      let set ← f.decoder.ofText levels
      readElements levels false fs (set r)
    else return r

/-- The record with the title, the defaults and the members. -/
def decoder (title : String) (default : R) (known : List (Member R)) : Decoder R where
  ofJson
    | .object ms => (takeMembers known ⟨default, []⟩ ms).map Draft.record
    | .array xs => takeElements xs.length known.length known default xs
    | v => .error (wrongType (.record title) v)
  ofText levels := do
    match ← Reader.peekToken with
    | none => Reader.fail .noValue
    | some '{' =>
      let d ← Reader.object levels ⟨default, []⟩ (readMember known)
      return d.record
    | some '[' => Reader.nested levels fun inner => do
      let r ← readElements inner true known default
      Reader.closeList
      return r
    | some c => Reader.refuse (wrongType (.record title) (← Reader.scalar c))

end Record

end ReviewHub.Wire
