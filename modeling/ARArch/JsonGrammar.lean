import Mathlib.Data.List.Basic
import Mathlib.Tactic.Common

/-!
# The grammar of JSON

Each rule relates a text that starts with something to what is left of the text behind it.
-/

namespace Json

def quote : Char := '\"'

def IsSpace (c : Char) : Prop := c = ' ' ∨ c = '\t' ∨ c = '\n' ∨ c = '\r'

instance (c : Char) : Decidable (IsSpace c) := inferInstanceAs (Decidable (_ ∨ _ ∨ _ ∨ _))

/-- A character that stands for itself in a string. -/
def IsPlain (c : Char) : Prop := c ≠ quote ∧ c ≠ '\\' ∧ 32 ≤ c.toNat

instance (c : Char) : Decidable (IsPlain c) := inferInstanceAs (Decidable (_ ∧ _ ∧ _))

def IsEscape (c : Char) : Prop := c ∈ [quote, '\\', '/', 'b', 'f', 'n', 'r', 't']

def IsHex (c : Char) : Prop := c.isDigit ∨ c ∈ "abcdefABCDEF".toList

inductive Spaces : List Char → List Char → Prop
  | none {s} : Spaces s s
  | more {c s r} (hc : IsSpace c) (h : Spaces s r) : Spaces (c :: s) r

inductive Digits : List Char → List Char → Prop
  | one {c r} (hc : c.isDigit) : Digits (c :: r) r
  | more {c s r} (hc : c.isDigit) (h : Digits s r) : Digits (c :: s) r

/-- The integer part of a number, without leading zeros. -/
inductive IntPart : List Char → List Char → Prop
  | zero {r} : IntPart ('0' :: r) r
  | one {c r} (hc : c.isDigit) (h0 : c ≠ '0') : IntPart (c :: r) r
  | more {c s r} (hc : c.isDigit) (h0 : c ≠ '0') (h : Digits s r) : IntPart (c :: s) r

inductive Fraction : List Char → List Char → Prop
  | none {s} : Fraction s s
  | digits {s r} (h : Digits s r) : Fraction ('.' :: s) r

inductive Exponent : List Char → List Char → Prop
  | none {s} : Exponent s s
  | digits {e s r} (he : e ∈ ['e', 'E']) (h : Digits s r) : Exponent (e :: s) r
  | signed {e p s r} (he : e ∈ ['e', 'E']) (hp : p ∈ ['+', '-']) (h : Digits s r) :
      Exponent (e :: p :: s) r

inductive Unsigned : List Char → List Char → Prop
  | parts {s t u r} (hi : IntPart s t) (hf : Fraction t u) (he : Exponent u r) : Unsigned s r

inductive Number : List Char → List Char → Prop
  | pos {s r} (h : Unsigned s r) : Number s r
  | neg {s r} (h : Unsigned s r) : Number ('-' :: s) r

/-- What follows the quote that opens a string. -/
inductive StringRest : List Char → List Char → Prop
  | close {r} : StringRest (quote :: r) r
  | plain {c s r} (hc : IsPlain c) (h : StringRest s r) : StringRest (c :: s) r
  | escape {c s r} (hc : IsEscape c) (h : StringRest s r) : StringRest ('\\' :: c :: s) r
  | unicode {c₁ c₂ c₃ c₄ s r} (h₁ : IsHex c₁) (h₂ : IsHex c₂) (h₃ : IsHex c₃) (h₄ : IsHex c₄)
      (h : StringRest s r) : StringRest ('\\' :: 'u' :: c₁ :: c₂ :: c₃ :: c₄ :: s) r

mutual

inductive Value : List Char → List Char → Prop
  | null {r} : Value ('n' :: 'u' :: 'l' :: 'l' :: r) r
  | true {r} : Value ('t' :: 'r' :: 'u' :: 'e' :: r) r
  | false {r} : Value ('f' :: 'a' :: 'l' :: 's' :: 'e' :: r) r
  | number {s r} (h : Number s r) : Value s r
  | string {s r} (h : StringRest s r) : Value (quote :: s) r
  | emptyArray {s r} (h : Spaces s (']' :: r)) : Value ('[' :: s) r
  | array {s r} (h : Elements s r) : Value ('[' :: s) r
  | emptyObject {s r} (h : Spaces s ('}' :: r)) : Value ('{' :: s) r
  | object {s r} (h : Members s r) : Value ('{' :: s) r

/-- The elements of an array with the bracket behind them. -/
inductive Elements : List Char → List Char → Prop
  | last {s t u r} (hs : Spaces s t) (hv : Value t u) (he : Spaces u (']' :: r)) : Elements s r
  | more {s t u v r} (hs : Spaces s t) (hv : Value t u) (hc : Spaces u (',' :: v))
      (h : Elements v r) : Elements s r

/-- The keys and values of an object with the brace behind them. -/
inductive Members : List Char → List Char → Prop
  | last {s t u v w r} (hs : Spaces s (quote :: t)) (hk : StringRest t u) (hc : Spaces u (':' :: v))
      (hv : Element v w) (he : Spaces w ('}' :: r)) : Members s r
  | more {s t u v w x r} (hs : Spaces s (quote :: t)) (hk : StringRest t u)
      (hc : Spaces u (':' :: v)) (hv : Element v w) (he : Spaces w (',' :: x))
      (h : Members x r) : Members s r

/-- A value with spaces before it. -/
inductive Element : List Char → List Char → Prop
  | value {s t r} (hs : Spaces s t) (hv : Value t r) : Element s r

end

/-- A text that is one JSON value. -/
def WellFormed (s : List Char) : Prop := ∃ t u, Spaces s t ∧ Value t u ∧ Spaces u []

variable {c : Char} {cs ds s t r : List Char}

theorem Spaces.eq_of_not_space (h : Spaces (c :: s) r) (hc : ¬IsSpace c) : r = c :: s := by
  cases h with
  | none => rfl
  | more hc' _ => exact absurd hc' hc

theorem Spaces.of_space (h : Spaces (c :: s) r) (hr : r ≠ c :: s) : Spaces s r := by
  cases h with
  | none => exact absurd rfl hr
  | more _ h => exact h

theorem Number.head (h : Number (c :: s) r) : c = '-' ∨ c.isDigit = true := by
  cases h with
  | neg _ => exact .inl rfl
  | pos h =>
    obtain ⟨hi, _, _⟩ := h
    cases hi with
    | zero => exact .inr rfl
    | one hc _ => exact .inr hc
    | more hc _ _ => exact .inr hc

theorem Value.stringRest (h : Value (quote :: s) r) : StringRest s r := by
  generalize hq : quote :: s = l at h
  cases h with
  | string h =>
    obtain rfl := (List.cons.inj hq).2
    exact h
  | number h =>
    subst hq
    rcases h.head with hc | hc
    · exact absurd hc (by decide)
    · exact absurd hc (by decide)
  | _ => exact absurd (List.cons.inj hq).1 (by decide)

/-- A string of plain characters ends at the quote behind them. -/
theorem StringRest.eq_of_plain (hcs : ∀ c ∈ cs, IsPlain c) (h : StringRest (cs ++ quote :: s) r) :
    r = s := by
  induction cs with
  | nil =>
    generalize hq : [] ++ quote :: s = l at h
    cases h with
    | close => exact (List.cons.inj hq).2.symm
    | plain hc _ => exact absurd (List.cons.inj hq).1.symm hc.1
    | escape _ _ => exact absurd (List.cons.inj hq).1 (by decide)
    | unicode _ _ _ _ _ => exact absurd (List.cons.inj hq).1 (by decide)
  | cons c cs ih =>
    obtain ⟨hc, hcs⟩ := List.forall_mem_cons.mp hcs
    generalize hl : (c :: cs) ++ quote :: s = l at h
    cases h with
    | close => exact absurd (List.cons.inj hl).1 hc.1
    | plain _ h =>
      have htail : cs ++ quote :: s = _ := (List.cons.inj hl).2
      rw [← htail] at h
      exact ih hcs h
    | escape _ _ => exact absurd (List.cons.inj hl).1 hc.2.1
    | unicode _ _ _ _ _ => exact absurd (List.cons.inj hl).1 hc.2.1

theorem Value.head_not_space (h : Value s r) : ∀ c ∈ s.head?, ¬IsSpace c := by
  intro c hc hspace
  cases h with
  | number h =>
    cases s with
    | nil => cases hc
    | cons d s =>
      obtain rfl : d = c := Option.some.inj hc
      rcases h.head with rfl | hdigit
      · exact absurd hspace (by decide)
      · rcases hspace with rfl | rfl | rfl | rfl <;> cases hdigit
  | _ =>
    rw [← Option.some.inj hc] at hspace
    exact absurd hspace (by decide)

theorem Spaces.eq_of_append (hcs : ∀ c ∈ cs, IsSpace c) (hc : ¬IsSpace c)
    (hr : ∀ c ∈ r.head?, ¬IsSpace c) (h : Spaces (cs ++ c :: s) r) : r = c :: s := by
  induction cs with
  | nil => exact h.eq_of_not_space hc
  | cons d cs ih =>
    obtain ⟨hd, hcs⟩ := List.forall_mem_cons.mp hcs
    apply ih hcs
    apply h.of_space
    rintro rfl
    exact hr d rfl hd

/-- After a string an array goes on with a comma or ends. -/
theorem Elements.next (hcs : ∀ c ∈ cs, IsSpace c) (hds : ∀ c ∈ ds, IsPlain c) (hc : ¬IsSpace c)
    (h : Elements (cs ++ quote :: (ds ++ quote :: c :: s)) r) : c = ',' ∨ c = ']' := by
  have hquote : ¬IsSpace quote := by decide
  have hnext {t u v : List Char} {d : Char} (hs : Spaces (cs ++ quote :: (ds ++ quote :: c :: s)) t)
      (hv : Value t u) (hd : Spaces u (d :: v)) : c = d := by
    obtain rfl := Spaces.eq_of_append hcs hquote hv.head_not_space hs
    obtain rfl := hv.stringRest.eq_of_plain hds
    exact (List.cons.inj (hd.eq_of_not_space hc)).1.symm
  cases h with
  | last hs hv he => exact .inr (hnext hs hv he)
  | more hs hv hd _ => exact .inl (hnext hs hv hd)

/-- An array cannot start with a string and something else than a comma behind it. -/
theorem not_wellFormed (hcs : ∀ c ∈ cs, IsSpace c) (hds : ∀ c ∈ ds, IsPlain c) (hc : ¬IsSpace c)
    (hcomma : c ≠ ',') (hbracket : c ≠ ']') :
    ¬WellFormed ('[' :: (cs ++ quote :: (ds ++ quote :: c :: s))) := by
  rintro ⟨t, u, hs, hv, _⟩
  obtain rfl := hs.eq_of_not_space (by decide)
  generalize hl : '[' :: (cs ++ quote :: (ds ++ quote :: c :: s)) = l at hv
  cases hv with
  | number h =>
    subst hl
    rcases h.head with hhead | hhead
    · exact absurd hhead (by decide)
    · exact absurd hhead (by decide)
  | emptyArray h =>
    obtain rfl := (List.cons.inj hl).2
    have hquote : ¬IsSpace quote := by decide
    have heq := Spaces.eq_of_append hcs hquote (by simp; decide) h
    exact absurd (List.cons.inj heq).1 (by decide)
  | array h =>
    obtain rfl := (List.cons.inj hl).2
    rcases h.next hcs hds hc with h | h
    · exact hcomma h
    · exact hbracket h
  | _ => exact absurd (List.cons.inj hl).1 (by decide)

end Json
