import Mathlib.Algebra.Group.Int.Defs
import Mathlib.Algebra.Group.Nat.Defs
import Mathlib.Data.Int.Order.Basic
import Mathlib.Data.List.TakeWhile

/-!
# Numerals in texts

A text is the list of its characters. `text` writes a natural number in decimal notation, and
`strtoul` and `parseInt` read one: the first as far as the text is a numeral, the second only the
whole text and only a number of 32 bits with its sign. The digits are those from 0 to 9.
-/

namespace Numeral

def text (n : ℕ) : List Char := Nat.toDigits 10 n

/-- What a list of digits stands for. -/
def value (digits : List Char) : ℕ := Nat.ofDigitChars 10 digits 0

/-- A numeral without a sign. -/
structure Plain (t : List Char) : Prop where
  ne_nil : t ≠ []
  digits : ∀ c ∈ t, c.isDigit = true

instance (t : List Char) : Decidable (Plain t) :=
  decidable_of_iff (t ≠ [] ∧ t.all Char.isDigit = true)
    ⟨fun h => ⟨h.1, List.all_eq_true.mp h.2⟩, fun h => ⟨h.ne_nil, List.all_eq_true.mpr h.digits⟩⟩

def isspace (c : Char) : Bool := c = ' ' ∨ ('\t' ≤ c ∧ c ≤ '\r')

/-- Whether there is a minus sign, and what follows the sign. -/
def sign : List Char → Bool × List Char
  | '-' :: t => (true, t)
  | '+' :: t => (false, t)
  | t => (false, t)

/-- `strtoul` to the base 10, where `unsigned long` has 64 bits: the number and what is left of
the text, which is all of it if there is no numeral. -/
def strtoul (t : List Char) : ℕ × List Char :=
  let signed := sign (t.dropWhile isspace)
  let digits := signed.2.takeWhile Char.isDigit
  if digits = [] then (0, t)
  else
    let n := value digits
    (if 2 ^ 64 ≤ n then 2 ^ 64 - 1 else if signed.1 then (2 ^ 64 - n) % 2 ^ 64 else n,
      signed.2.dropWhile Char.isDigit)

/-- `Integer.parseInt`, or `none` for a `NumberFormatException`. -/
def parseInt (t : List Char) : Option ℤ :=
  let signed := sign t
  if Plain signed.2 then
    let n : ℤ := if signed.1 then -value signed.2 else value signed.2
    if -2 ^ 31 ≤ n ∧ n < 2 ^ 31 then some n else none
  else none

variable {t rest : List Char} {n : ℕ} {c : Char}

@[simp] theorem value_text : value (text n) = n := Nat.ofDigitChars_ten_toDigits

theorem plain_text : Plain (text n) where
  ne_nil := Nat.toDigits_ne_nil
  digits := fun _ hc => Nat.isDigit_of_mem_toDigits (by decide) (by decide) hc

theorem isDigit_iff : c.isDigit = true ↔ '0' ≤ c ∧ c ≤ '9' := by
  simp only [Char.isDigit, Bool.and_eq_true, decide_eq_true_eq, ge_iff_le, Char.le_def]

theorem not_isspace_of_isDigit (h : c.isDigit = true) : isspace c = false := by
  obtain ⟨hlow, _⟩ := isDigit_iff.mp h
  have hspace : c ≠ ' ' := by
    intro heq
    rw [heq] at h
    simp at h
  have hreturn : ¬c ≤ '\r' := by
    intro hle
    have hle' : '0' ≤ '\r' := Char.le_trans hlow hle
    exact absurd hle' (by decide)
  simp [isspace, hspace, hreturn]

theorem sign_of_isDigit (h : ∀ d ∈ t.head?, d.isDigit = true) : sign t = (false, t) := by
  unfold sign
  split
  · have hdigit := h '-' rfl
    simp at hdigit
  · have hdigit := h '+' rfl
    simp at hdigit
  · rfl

namespace Plain

theorem head (h : Plain t) : ∀ d ∈ t.head?, d.isDigit = true :=
  fun d hd => h.digits d (List.mem_of_mem_head? hd)

theorem sign_eq (h : Plain t) : sign t = (false, t) := sign_of_isDigit h.head

theorem dropWhile_isspace (h : Plain t) : t.dropWhile isspace = t := by
  cases t with
  | nil => rfl
  | cons c t =>
      have hspace := not_isspace_of_isDigit (h.digits c List.mem_cons_self)
      exact List.dropWhile_cons_of_neg (by rw [hspace]; decide)

/-- A plain numeral is read to its end, and the largest number stands for all larger ones. -/
theorem strtoul_eq (h : Plain t) : strtoul t = (min (value t) (2 ^ 64 - 1), []) := by
  unfold strtoul
  rw [h.dropWhile_isspace, h.sign_eq]
  have htake : t.takeWhile Char.isDigit = t := List.takeWhile_eq_self_iff.mpr h.digits
  have hdrop : t.dropWhile Char.isDigit = [] := List.dropWhile_eq_nil_iff.mpr h.digits
  simp only [htake, hdrop, h.ne_nil, if_false, Bool.false_eq_true]
  split
  · rw [Nat.min_eq_right (by omega)]
  · rw [Nat.min_eq_left (by omega)]

theorem parseInt_eq (h : Plain t) :
    parseInt t = if value t < 2 ^ 31 then some (value t : ℤ) else none := by
  unfold parseInt
  rw [h.sign_eq]
  simp only [h, if_true, Bool.false_eq_true, if_false]
  have hbounds : -2 ^ 31 ≤ (value t : ℤ) ∧ (value t : ℤ) < 2 ^ 31 ↔ value t < 2 ^ 31 := by omega
  simp only [hbounds]

end Plain

theorem parseInt_text (h : n < 2 ^ 31) : parseInt (text n) = some (n : ℤ) := by
  rw [plain_text.parseInt_eq, value_text, if_pos h]

end Numeral
