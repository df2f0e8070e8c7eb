import Courier.Text.Invisible
import Courier.Text.Combining

/-!
# Quoted text

A text inside double quotes, as diagnostics show it: the quote and the backslash are escaped, line
breaks, tabs and the null character have short names, and whatever cannot be seen or would join the
character before it is written by its code point in hexadecimal.
-/
namespace Courier.Text.Quoted

/-- The code point in the fewest lower-case hexadecimal digits. -/
def hexNumber (n : Nat) : String := String.ofList (Nat.toDigits 16 n)

/-- Whether the character is written by its code point. -/
def isHidden (c : Char) : Bool :=
  if c.toNat < 0x80 then c.toNat < 0x20 || c.toNat = 0x7f
  else Invisible.isInvisible c || Combining.isCombining c

/-- How one character is written between the quotes. -/
def escape (c : Char) : String :=
  match c with
  | '\x00' => "\\0"
  | '\t' => "\\t"
  | '\r' => "\\r"
  | '\n' => "\\n"
  | '\\' => "\\\\"
  | '"' => "\\\""
  | c => if isHidden c then "\\u\x7b" ++ hexNumber c.toNat ++ "\x7d" else c.toString

/-- The text between double quotes. -/
def quote (s : String) : String :=
  "\"" ++ String.join (s.toList.map escape) ++ "\""

end Courier.Text.Quoted
