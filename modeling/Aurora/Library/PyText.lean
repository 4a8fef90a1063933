import Mathlib.Data.List.DropRight

/-! Texts, by their characters. -/

namespace PyText

abbrev Text := List Char

/-- `str.isspace` of a character, which is also what `\s` matches. -/
def isSpace (char : Char) : Bool :=
  let code := char.toNat
  (9 ≤ code && code ≤ 13) || (28 ≤ code && code ≤ 32) || (0x2000 ≤ code && code ≤ 0x200a) ||
    code ∈ [0x85, 0xa0, 0x1680, 0x2028, 0x2029, 0x202f, 0x205f, 0x3000]

def stripWith (blank : Char → Bool) (text : Text) : Text := (text.dropWhile blank).rdropWhile blank

def strip (text : Text) : Text := stripWith isSpace text

def decimal (n : Int) : Text := if n < 0 then '-' :: Nat.toDigits 10 n.natAbs else Nat.toDigits 10 n.natAbs

end PyText
