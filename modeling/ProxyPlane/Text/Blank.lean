/-!
# Blank characters

The characters that separate words: those with the Unicode property `White_Space`.

## Main definitions

* `isBlank` — membership in that property.
* `trim`, `trimText` — a text without the blanks at its two ends.
* `splitOn` — the parts of a text between separators.
-/

set_option autoImplicit false
namespace ProxyPlane
namespace Text

/-- Whether a character has the Unicode property `White_Space`. -/
def isBlank (c : Char) : Bool :=
  let n := c.toNat
  (9 ≤ n && n ≤ 13) || n == 0x20 || n == 0x85 || n == 0xA0 || n == 0x1680
    || (0x2000 ≤ n && n ≤ 0x200A) || n == 0x2028 || n == 0x2029 || n == 0x202F || n == 0x205F
    || n == 0x3000

/-- The blanks of ASCII are blanks. -/
theorem isBlank_of_isWhitespace {c : Char} (h : c.isWhitespace = true) : isBlank c = true := by
  simp only [Char.isWhitespace, Bool.or_eq_true, decide_eq_true_eq] at h
  rcases h with ((rfl | rfl) | rfl) | rfl <;> decide

/-- The characters without the blanks before the first and after the last non-blank one. -/
def trim (s : List Char) : List Char :=
  ((s.dropWhile isBlank).reverse.dropWhile isBlank).reverse

/-- `trim` on a text. -/
def trimText (s : String) : String :=
  String.ofList (trim s.toList)

/-- The parts of a text between the characters that separate them. -/
def splitOn (isSeparator : Char → Bool) : List Char → List (List Char)
  | [] => [[]]
  | c :: rest =>
    if isSeparator c then [] :: splitOn isSeparator rest
    else
      match splitOn isSeparator rest with
      | [] => [[c]]
      | part :: parts => (c :: part) :: parts

/-- The words of a text: its longest runs of non-blank characters. -/
def words (s : List Char) : List (List Char) :=
  (splitOn isBlank s).filter fun w => !w.isEmpty

end Text
end ProxyPlane
