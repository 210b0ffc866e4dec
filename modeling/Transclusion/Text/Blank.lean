import Transclusion.Text.Basic

/-!
This module contains white space: the characters that Unicode counts as such together with the four
information separators, and the trimming and splitting that go by them.
-/

namespace Transclusion
namespace Text

def isBlank (c : Char) : Bool :=
  let n := c.toNat
  (9 ≤ n && n ≤ 13) || (28 ≤ n && n ≤ 32) || n == 0x85 || n == 0xa0 || n == 0x1680 ||
    (0x2000 ≤ n && n ≤ 0x200a) || n == 0x2028 || n == 0x2029 || n == 0x202f || n == 0x205f ||
    n == 0x3000

def isIndent (c : Char) : Bool :=
  c == ' ' || c == '\t'

def strip (text : Text) : Text :=
  trimBoth isBlank text

def words (text : Text) : List Text :=
  (text.splitOnP isBlank).filter (!·.isEmpty)

theorem isBlank_of_isWhitespace {c : Char} (h : c.isWhitespace = true) : isBlank c = true := by
  simp only [Char.isWhitespace, Bool.or_eq_true, decide_eq_true_eq] at h
  rcases h with ((h | h) | h) | h <;> subst h <;> rfl

end Text
end Transclusion
