import HostBridge.Text.Unprinted

/-!
# Quoted text

Where a message shows a text that somebody else has chosen, it shows it in
double quotes and with every character visible: quotes, backslashes and the
common controls have escapes of two characters, and whatever is not printed as
it is stands as `\u` with its code point in braces.
-/

namespace HostBridge

namespace Quoted

/-- The hexadecimal digits of a number, in lower case. -/
def hex (n : Nat) : String := String.ofList (Nat.toDigits 16 n)

/-- A character between the quotes. -/
def char (c : Char) : String :=
  match c with
  | '\x00' => "\\0"
  | '\t' => "\\t"
  | '\r' => "\\r"
  | '\n' => "\\n"
  | '\\' => "\\\\"
  | '"' => "\\\""
  | c =>
    if isUnprinted c then "\\u\x7b" ++ hex c.toNat ++ "\x7d" else c.toString

/-- The text in quotes. -/
def text (s : String) : String :=
  "\"" ++ String.join (s.toList.map char) ++ "\""

end Quoted

end HostBridge
