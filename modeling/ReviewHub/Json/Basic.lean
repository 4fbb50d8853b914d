/-!
# JSON values

A JSON value as it stands in a text: the members of an object keep their order, and a key may
repeat. `Json.canonical` is the value that remains when only the last member of each key counts
and members are ordered by key; two texts that differ in the order of members, or in members that
a later one overrides, have the same canonical value.
-/

namespace ReviewHub

/-- A JSON value with its members in text order. -/
inductive Json where
  | null
  | bool (b : Bool)
  | integer (n : Int)
  | real (x : Float)
  | string (s : String)
  | array (elements : List Json)
  | object (members : List (String × Json))
deriving Inhabited

namespace Json

/-- The value of the first member with the key. -/
def member? (key : String) : List (String × Json) → Option Json
  | [] => none
  | (k, v) :: ms => if k = key then some v else member? key ms

@[simp] theorem member?_cons (key k : String) (v : Json) (ms : List (String × Json)) :
    member? key ((k, v) :: ms) = if k = key then some v else member? key ms := rfl

/-- Puts a member in its place among ascending keys unless its key is there already. -/
def insertAbsent (key : String) (value : Json) : List (String × Json) → List (String × Json)
  | [] => [(key, value)]
  | (k, v) :: ms =>
    if key < k then (key, value) :: (k, v) :: ms
    else if key = k then (k, v) :: ms
    else (k, v) :: insertAbsent key value ms

mutual

/-- The value with members ordered by key and only the last member of each key, at every depth. -/
def canonical : Json → Json
  | .array xs => .array (canonicalElements xs)
  | .object ms => .object (canonicalMembers ms)
  | v => v

def canonicalElements : List Json → List Json
  | [] => []
  | x :: xs => canonical x :: canonicalElements xs

/-- The canonical members of an object: the later ones are placed first and keep their place. -/
def canonicalMembers : List (String × Json) → List (String × Json)
  | [] => []
  | (k, v) :: ms => insertAbsent k (canonical v) (canonicalMembers ms)

end

@[simp] theorem canonicalElements_eq_map (xs : List Json) :
    canonicalElements xs = xs.map canonical := by
  induction xs with
  | nil => rfl
  | cons x xs ih => rw [canonicalElements, ih, List.map_cons]

end Json

end ReviewHub
