/-! White space.

A blank is a character with the Unicode property White_Space.
-/

set_option autoImplicit false

namespace ObsCatalog.Text

def isBlank (c : Char) : Bool :=
  let n := c.toNat
  (9 ≤ n && n ≤ 13) || n == 0x20 || n == 0x85 || n == 0xA0 || n == 0x1680 ||
    (0x2000 ≤ n && n ≤ 0x200A) || n == 0x2028 || n == 0x2029 || n == 0x202F ||
    n == 0x205F || n == 0x3000

theorem not_isBlank_of_isDigit {c : Char} (digit : c.isDigit) : isBlank c = false := by
  have low : 48 ≤ c.toNat := by
    simp [Char.isDigit, UInt32.le_iff_toNat_le] at digit; exact digit.1
  have high : c.toNat ≤ 57 := by
    simp [Char.isDigit, UInt32.le_iff_toNat_le] at digit; exact digit.2
  simp [isBlank]
  omega

def dropBlanks (cs : List Char) : List Char := cs.dropWhile isBlank

def isAllBlank (s : String) : Bool := s.toList.all isBlank

end ObsCatalog.Text
