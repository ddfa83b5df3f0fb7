import Packetizer.Text.Marks
import Packetizer.Text.Unprintable

/-!
# `Packetizer.Text.Quoted`: texts in double quotes

A quoted text shows the quote, the backslash and every character that
would not be seen by escapes, so that it stays on one line and can be
read back.
-/

set_option autoImplicit false

namespace Packetizer.Text

/-- Whether a character is shown by its code point. -/
def needsCode (c : Char) : Bool := isMark c || isUnprintable c

/-- One character of a quoted text. -/
def escape (c : Char) : List Char :=
  match c with
  | '"' => ['\\', '"']
  | '\\' => ['\\', '\\']
  | '\n' => ['\\', 'n']
  | '\r' => ['\\', 'r']
  | '\t' => ['\\', 't']
  | c =>
      if c.toNat = 0 then ['\\', '0']
      else if needsCode c then
        ['\\', 'u', '\x7b'] ++ Nat.toDigits 16 c.toNat ++ ['\x7d']
      else [c]

/-- `text` in double quotes. -/
def quoted (text : String) : String :=
  String.ofList ('"' :: text.toList.flatMap escape ++ ['"'])

end Packetizer.Text
