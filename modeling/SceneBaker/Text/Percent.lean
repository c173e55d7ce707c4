import SceneBaker.Text.Scan

/-! # Percent escapes

A percent sign and two hexadecimal digits stand for an octet. A percent sign that no two digits
follow stands for itself.
-/

namespace SceneBaker.Text.Percent

/-- The octets that octets with escapes stand for. -/
def unescape : List UInt8 → List UInt8
  | percent :: high :: low :: rest =>
    let digits := [Char.ofNat high.toNat, Char.ofNat low.toNat]
    if percent.toNat = '%'.toNat ∧ digits.all isHexDigit then
      UInt8.ofNat (ofDigits 16 digits) :: unescape rest
    else percent :: unescape (high :: low :: rest)
  | octets => octets

/-- A text without its escapes, if the octets spell text again. -/
def decode? (text : String) : Option String :=
  String.fromUTF8? ⟨(unescape text.toUTF8.toList).toArray⟩

end SceneBaker.Text.Percent
