import ReviewHub.Text.Printable
/-!
# Quoted text

A text between double quotes, as diagnostics show it. Quotes and backslashes are escaped, the usual
controls have short escapes, and characters that would not be seen, or would merge with the one
before them, are written by code point in hexadecimal.
-/

namespace ReviewHub.Text

/-- The escape by code point: `\u` and the lower-case hexadecimal number in braces. -/
def codePointEscape (c : Char) : String :=
  "\\u\x7b" ++ String.ofList (Nat.toDigits 16 c.toNat) ++ "\x7d"

def quotedChar (c : Char) : String :=
  match c with
  | '"' => "\\\""
  | '\\' => "\\\\"
  | '\n' => "\\n"
  | '\r' => "\\r"
  | '\t' => "\\t"
  | '\x00' => "\\0"
  | c => if extendsGrapheme c || !isPrintable c then codePointEscape c else c.toString

def quoted (s : String) : String :=
  "\"" ++ String.join (s.toList.map quotedChar) ++ "\""

end ReviewHub.Text
