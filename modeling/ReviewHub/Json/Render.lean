import ReviewHub.Json.Basic
import ReviewHub.Decimal.Layout
/-!
# Compact JSON text

Writing a value without blanks. Strings escape quotes, backslashes and controls, and nothing else.
-/

namespace ReviewHub.Json

/-- One character inside a JSON string. -/
def stringChar (c : Char) : String :=
  match c with
  | '"' => "\\\""
  | '\\' => "\\\\"
  | '\n' => "\\n"
  | '\r' => "\\r"
  | '\t' => "\\t"
  | '\x08' => "\\b"
  | '\x0c' => "\\f"
  | c =>
    if c.toNat < 0x20 then
      "\\u00" ++ String.ofList [Nat.digitChar (c.toNat / 16), Nat.digitChar (c.toNat % 16)]
    else c.toString

def renderString (s : String) : String :=
  "\"" ++ String.join (s.toList.map stringChar) ++ "\""

mutual

/-- The compact text of a value. -/
def render : Json → String
  | .null => "null"
  | .bool b => if b then "true" else "false"
  | .integer n => toString n
  | .real x => Decimal.plainLayout.render x
  | .string s => renderString s
  | .array xs => "[" ++ ",".intercalate (renderElements xs) ++ "]"
  | .object ms => "\x7b" ++ ",".intercalate (renderMembers ms) ++ "\x7d"

def renderElements : List Json → List String
  | [] => []
  | x :: xs => render x :: renderElements xs

def renderMembers : List (String × Json) → List String
  | [] => []
  | (k, v) :: ms => (renderString k ++ ":" ++ render v) :: renderMembers ms

end

end ReviewHub.Json
