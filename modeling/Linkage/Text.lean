/-!
# Byte text

Names, messages and logs are sequences of bytes. They are compared and ordered byte by byte, and
a string literal stands for its UTF-8 bytes. Nothing is escaped when a name is written.
-/

set_option autoImplicit false

namespace Linkage

/-- A text is the sequence of its bytes; `<` on texts is the lexicographic order of the bytes. -/
abbrev Text := List UInt8

/-- A name is a text. No text is refused as a name, the empty one included. -/
abbrev Name := Text

namespace Text

def ofString (s : String) : Text := s.toUTF8.data.toList

instance coeString : Coe String Text := ⟨ofString⟩

def ofNat (n : Nat) : Text := (Nat.toDigits 10 n).map Char.toUInt8

def quoted (name : Name) : Text := "'" ++ name ++ "'"

def doubleQuoted (name : Name) : Text := "\"" ++ name ++ "\""

def blanks (n : Nat) : Text := List.replicate n 0x20

def beforeZero (text : Text) : Text := text.takeWhile (· ≠ 0)

/-- A text of at most forty bytes as it is, of a longer one `...` and its last 37 bytes. The cut
may fall inside a character. -/
def shortened (text : Text) : Text :=
  if text.length ≤ 40 then text else "..." ++ text.drop (text.length - 37)

end Text

end Linkage
