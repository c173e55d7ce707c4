import SceneBaker.Text.Hidden

/-! # Escaped text

Two ways to write text for a reader. Between quotes, everything that would not be seen by itself is
written as a number. On a line of its own, only characters that steer a terminal are; tabs and line
breaks stay.
-/

namespace SceneBaker.Text

/-- The lower-case hexadecimal digits of a number. -/
def hexDigits (number : Nat) : String := String.ofList (Nat.toDigits 16 number)

/-- A character as the number of its code point. -/
def codePointText (c : Char) : String := "\\u\x7b" ++ hexDigits c.toNat ++ "\x7d"

def quotedChar : Char → String
  | '\x00' => "\\0"
  | '\t' => "\\t"
  | '\r' => "\\r"
  | '\n' => "\\n"
  | '"' => "\\\""
  | '\\' => "\\\\"
  | c => if isHidden c then codePointText c else c.toString

/-- Text in quotes. -/
def quoted (text : String) : String := "\"" ++ String.join (text.toList.map quotedChar) ++ "\""

/-- Bell, backspace, form feed, escape and delete have numbers of two digits; the controls beyond
ASCII are written as their code points. -/
def shownChar (c : Char) : String :=
  match c with
  | '\x07' => "\\x07"
  | '\x08' => "\\x08"
  | '\x0c' => "\\x0c"
  | '\x1b' => "\\x1b"
  | '\x7f' => "\\x7f"
  | c => if '\x80' ≤ c && c ≤ '\u009f' then codePointText c else c.toString

/-- Text that cannot steer a terminal. -/
def shown (text : String) : String := String.join (text.toList.map shownChar)

end SceneBaker.Text
