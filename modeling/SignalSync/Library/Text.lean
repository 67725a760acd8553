import Mathlib.Data.List.DropRight

/-!
# Text

`Unicode` is what a program uses of its language's text: case mappings, white
space and its stripping, digits, and the class of alphanumeric characters. On
ASCII text they are the ASCII operations (`asciiUpper`, `asciiLower`,
`asciiStrip`); elsewhere they are whatever the language's tables say.
`Unicode.ascii` is the instance that leaves all other text alone.
-/

namespace Library

/-- What holds of the letters of a word is decided letter by letter, not over all characters. -/
instance (priority := 2000) decidableLetters (p : Char → Prop) [DecidablePred p] (w : List Char) : Decidable (∀ x ∈ w, p x) :=
  List.decidableBAll p w

def IsAscii (s : String) : Prop := ∀ c ∈ s.toList, c.toNat < 128

/-- The white space of ASCII: tab to carriage return, the four separators and
the blank. -/
def isAsciiSpace (c : Char) : Bool :=
  (9 ≤ c.toNat && c.toNat ≤ 13) || (28 ≤ c.toNat && c.toNat ≤ 32)

theorem isAlpha_iff {c : Char} : c.isAlpha ↔ (65 ≤ c.toNat ∧ c.toNat ≤ 90) ∨ 97 ≤ c.toNat ∧ c.toNat ≤ 122 := by
  change (decide ('A'.val ≤ c.val ∧ c.val ≤ 'Z'.val) || decide ('a'.val ≤ c.val) && decide (c.val ≤ 'z'.val)) = true ↔ _
  rw [Bool.or_eq_true, Bool.and_eq_true, decide_eq_true_iff, decide_eq_true_iff, decide_eq_true_iff]
  exact Iff.rfl

theorem isAlphanum_of_isAsciiSpace {c : Char} (h : isAsciiSpace c) : c.isAlphanum = false := by
  simp only [isAsciiSpace, Bool.or_eq_true, Bool.and_eq_true, decide_eq_true_eq] at h
  refine Bool.or_eq_false_iff.mpr ⟨?_, ?_⟩
  · rw [← Bool.not_eq_true, isAlpha_iff]
    omega
  · rw [← Bool.not_eq_true, Char.isDigit_iff_toNat]
    have hzero : '0'.toNat = 48 := rfl
    omega

def asciiUpper (s : String) : String := .ofList (s.toList.map Char.toUpper)

def asciiLower (s : String) : String := .ofList (s.toList.map Char.toLower)

def asciiStrip (s : String) : String := .ofList (s.toList.dropWhile isAsciiSpace |>.rdropWhile isAsciiSpace)

def asciiDecimal (c : Char) : Option Nat := if c.isDigit then some (c.toNat - 48) else none

/-- The operations on text that depend on the Unicode tables. -/
class Unicode where
  upper : String → String
  lower : String → String
  casefold : String → String
  strip : String → String
  isAlnum : Char → Bool
  isSpace : Char → Bool
  /-- The value of a decimal digit. -/
  decimal : Char → Option Nat
  /-- The characters are one to a search that ignores case. -/
  sameCase : Char → Char → Bool
  upper_ascii {s : String} : IsAscii s → upper s = asciiUpper s
  lower_ascii {s : String} : IsAscii s → lower s = asciiLower s
  casefold_ascii {s : String} : IsAscii s → casefold s = asciiLower s
  strip_ascii {s : String} : IsAscii s → strip s = asciiStrip s
  strip_eq (s : String) : strip s = .ofList (s.toList.dropWhile isSpace |>.rdropWhile isSpace)
  isAlnum_ascii {c : Char} : c.toNat < 128 → isAlnum c = c.isAlphanum
  isSpace_ascii {c : Char} : c.toNat < 128 → isSpace c = isAsciiSpace c
  isAlnum_space {c : Char} : isSpace c → isAlnum c = false
  decimal_ascii {c : Char} : c.toNat < 128 → decimal c = asciiDecimal c
  sameCase_ascii {c d : Char} : c.toNat < 128 → d.toNat < 128 → sameCase c d = decide (c.toLower = d.toLower)

/-- The tables that know ASCII only. -/
@[reducible] def Unicode.ascii : Unicode where
  upper := asciiUpper
  lower := asciiLower
  casefold := asciiLower
  strip := asciiStrip
  isAlnum := Char.isAlphanum
  isSpace := isAsciiSpace
  decimal := asciiDecimal
  sameCase c d := c.toLower = d.toLower
  upper_ascii _ := rfl
  lower_ascii _ := rfl
  casefold_ascii _ := rfl
  strip_ascii _ := rfl
  strip_eq _ := rfl
  isAlnum_ascii _ := rfl
  isSpace_ascii _ := rfl
  isAlnum_space h := isAlphanum_of_isAsciiSpace h
  decimal_ascii _ := rfl
  sameCase_ascii _ _ := rfl

end Library
