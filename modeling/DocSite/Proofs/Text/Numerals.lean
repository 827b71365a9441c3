import DocSite.Text.Basic
import Mathlib.Data.List.Basic

/-!
# Numerals

A numeral is read back as its number, whether zeros stand before it or not. So different numbers
have different numerals, and no numeral but that of zero starts with a zero.

* `Text.toNat?_ofNat` : a numeral is read back.
* `Text.toNat?_zeros` : so it is with zeros before it.
* `Text.toWord?_eq_some_iff` : the texts that write a number of one word.
-/

namespace DocSite

namespace Text

theorem isDigit_of_mem_ofNat {n : Nat} {c : Char} (h : c ∈ ofNat n) : c.isDigit = true :=
  Nat.isDigit_of_mem_toDigits (by decide) (by decide) h

theorem ofNat_ne_nil (n : Nat) : ofNat n ≠ [] := Nat.toDigits_ne_nil

theorem toNat?_ofNat (n : Nat) : toNat? (ofNat n) = some n := by
  have hdigits : (ofNat n).all Char.isDigit = true :=
    List.all_eq_true.2 fun _ => isDigit_of_mem_ofNat
  rw [toNat?, if_pos ⟨ofNat_ne_nil n, hdigits⟩, ofNat, Nat.ofDigitChars_ten_toDigits]

theorem ofNat_injective {m n : Nat} (h : ofNat m = ofNat n) : m = n := by
  have hread := congrArg toNat? h
  rw [toNat?_ofNat, toNat?_ofNat] at hread
  exact Option.some.inj hread

theorem isDigit_of_mem_zeros {k n : Nat} {c : Char} (h : c ∈ List.replicate k '0' ++ ofNat n) :
    c.isDigit = true := by
  rcases List.mem_append.1 h with hzero | hdigit
  · rw [List.eq_of_mem_replicate hzero]
    decide
  · exact isDigit_of_mem_ofNat hdigit

/-- `s` writes `n` in decimal digits, with or without a plus sign before them, and `n` fits a word
of 64 bits. -/
def WritesWord (s : Text) (n : Nat) : Prop :=
  ∃ digits : Text, (s = digits ∨ s = '+' :: digits) ∧ digits ≠ [] ∧
    (∀ c ∈ digits, c.isDigit = true) ∧ Nat.ofDigitChars 10 digits 0 = n ∧ n < Nat.pow 2 64

theorem toNat?_eq_some_iff {s : Text} {n : Nat} :
    toNat? s = some n ↔
      s ≠ [] ∧ (∀ c ∈ s, c.isDigit = true) ∧ Nat.ofDigitChars 10 s 0 = n := by
  rw [toNat?, Option.ite_none_right_eq_some, Option.some.injEq, List.all_eq_true, and_assoc]

theorem toWord?_eq_some_iff {s : Text} {n : Nat} : toWord? s = some n ↔ WritesWord s n := by
  have hword {digits : Text} : (toNat? digits).filter (· < Nat.pow 2 64) = some n ↔
      digits ≠ [] ∧ (∀ c ∈ digits, c.isDigit = true) ∧ Nat.ofDigitChars 10 digits 0 = n ∧
        n < Nat.pow 2 64 := by
    rw [Option.filter_eq_some_iff, toNat?_eq_some_iff, decide_eq_true_eq, and_assoc, and_assoc]
  unfold toWord?
  split
  · rename_i digits
    refine hword.trans ⟨fun h => ⟨digits, .inr rfl, h⟩, ?_⟩
    rintro ⟨digits', rfl | hs, hne, hdigits, h⟩
    · -- a plus sign is no digit
      exact absurd (hdigits '+' List.mem_cons_self) (by decide)
    · exact (List.cons.inj hs).2 ▸ ⟨hne, hdigits, h⟩
  · rename_i hplus
    refine hword.trans ⟨fun h => ⟨s, .inl rfl, h⟩, ?_⟩
    rintro ⟨digits, rfl | rfl, h⟩
    · exact h
    · exact absurd rfl (hplus digits)

/-- Zeros before a numeral do not change its number. -/
theorem toNat?_zeros (k n : Nat) : toNat? (List.replicate k '0' ++ ofNat n) = some n := by
  have hne : List.replicate k '0' ++ ofNat n ≠ [] :=
    List.append_ne_nil_of_right_ne_nil _ (ofNat_ne_nil n)
  have hdigits : (List.replicate k '0' ++ ofNat n).all Char.isDigit = true :=
    List.all_eq_true.2 fun _ => isDigit_of_mem_zeros
  rw [toNat?, if_pos ⟨hne, hdigits⟩, Nat.ofDigitChars_append, Nat.ofDigitChars_replicate_zero,
    Nat.mul_zero, ofNat, Nat.ofDigitChars_ten_toDigits]

theorem ofNat_eq_zero_of_head? {n : Nat} (h : (ofNat n).head? = some '0') : ofNat n = ['0'] := by
  induction n using Nat.strongRecOn with
  | ind n ih =>
    rw [ofNat] at h ⊢
    by_cases hn : n < 10
    · rw [Nat.toDigits_of_lt_base hn] at h ⊢
      exact congrArg (fun c => [c]) (Option.some.inj h)
    · -- the first digit is that of the number without its last digit, which is not zero
      rw [Nat.toDigits_of_base_le (by decide) (Nat.not_lt.1 hn),
        List.head?_append_of_ne_nil _ Nat.toDigits_ne_nil] at h
      have hzero : ofNat (n / 10) = ofNat 0 := ih (n / 10) (by omega) h
      have := ofNat_injective hzero
      omega

end Text

end DocSite
