import DocSite.Json.Printer
import DocSite.Json.Raw
import DocSite.Proofs.Text.Numerals
import Mathlib.Tactic.SplitIfs

/-!
# Strings and numbers are read back

What is printed for a text or a number is read back, whatever follows it. Each character of a
printed string is read as its own code point, which is no half of a surrogate pair. A printed number
ends where neither a digit nor a point nor an exponent follows.

* `Json.stringRest?_quote` : the text of a string is read back.
* `Json.Ends` : what may follow a number.
* `Json.numeral?_ofNat`, `Json.numeral?_exponent` : the parts of a number are read back.
-/

namespace DocSite

namespace Json

/-! ### Strings -/

theorem stringUnits?_letter {e c : Char} (h : escaped? e = some c) (hu : e ≠ 'u') (rest : Text) :
    stringUnits? ('\\' :: e :: rest) =
      (stringUnits? rest).map fun (units, rest) => (c.toNat :: units, rest) := by
  rw [stringUnits?, h]
  · cases stringUnits? rest <;> rfl
  · exact fun _ _ _ _ _ heq => absurd heq hu

theorem stringUnits?_hex {a b c d : Char} {n : Nat} (h : Text.hex? [a, b, c, d] = some n)
    (rest : Text) :
    stringUnits? ('\\' :: 'u' :: a :: b :: c :: d :: rest) =
      (stringUnits? rest).map fun (units, rest) => (n :: units, rest) := by
  rw [stringUnits?, h]
  cases stringUnits? rest <;> rfl

theorem stringUnits?_plain {c : Char} (hquote : c ≠ '"') (hbackslash : c ≠ '\\')
    (hcontrol : ¬ c.toNat < 0x20) (rest : Text) :
    stringUnits? (c :: rest) =
      (stringUnits? rest).map fun (units, rest) => (c.toNat :: units, rest) := by
  rw [stringUnits?, if_neg (not_or.2 ⟨hcontrol, hbackslash⟩)]
  · exact hquote
  · exact fun _ _ _ _ _ heq => absurd heq hbackslash
  · exact fun _ _ heq => absurd heq hbackslash

theorem hex?_control :
    ∀ n < 0x20, Text.hex? ['0', '0', hexChar (n / 16), hexChar (n % 16)] = some n := by
  decide

theorem stringUnits?_escapeChar (c : Char) (rest : Text) :
    stringUnits? (escapeChar c ++ rest) =
      (stringUnits? rest).map fun (units, rest) => (c.toNat :: units, rest) := by
  unfold escapeChar
  split_ifs with hquote hbackslash hfeed hreturn htab hback hform hcontrol
  · subst hquote
    exact stringUnits?_letter rfl (by decide) rest
  · subst hbackslash
    exact stringUnits?_letter rfl (by decide) rest
  · subst hfeed
    exact stringUnits?_letter rfl (by decide) rest
  · subst hreturn
    exact stringUnits?_letter rfl (by decide) rest
  · subst htab
    exact stringUnits?_letter rfl (by decide) rest
  · subst hback
    exact stringUnits?_letter rfl (by decide) rest
  · subst hform
    exact stringUnits?_letter rfl (by decide) rest
  · exact stringUnits?_hex (hex?_control c.toNat hcontrol) rest
  · exact stringUnits?_plain hquote hbackslash hcontrol rest

theorem stringUnits?_flatMap (s rest : Text) :
    stringUnits? (s.flatMap escapeChar ++ '"' :: rest) = some (s.map Char.toNat, rest) := by
  induction s with
  | nil => rfl
  | cons c s ih =>
    rw [List.flatMap_cons, List.append_assoc, stringUnits?_escapeChar, ih]
    rfl

theorem joinHalves?_cons {n : Nat} (hlow : isLowHalf n = false) (hhigh : isHighHalf n = false)
    (rest : List Nat) :
    joinHalves? (n :: rest) = (joinHalves? rest).map (Char.ofNat n :: ·) := by
  cases rest <;> simp [joinHalves?, hlow, hhigh]

/-- No character is half of a surrogate pair. -/
theorem joinHalves?_map (s : Text) : joinHalves? (s.map Char.toNat) = some s := by
  induction s with
  | nil => rfl
  | cons c s ih =>
    have hvalid : c.toNat < 0xD800 ∨ 0xDFFF < c.toNat ∧ c.toNat < 0x110000 := c.valid
    have hlow : isLowHalf c.toNat = false := by
      simp only [isLowHalf, Bool.and_eq_false_iff, decide_eq_false_iff_not]
      omega
    have hhigh : isHighHalf c.toNat = false := by
      simp only [isHighHalf, Bool.and_eq_false_iff, decide_eq_false_iff_not]
      omega
    rw [List.map_cons, joinHalves?_cons hlow hhigh, ih, Char.ofNat_toNat]
    rfl

/-- **The text of a string is read back.** -/
theorem stringRest?_quote (s rest : Text) :
    stringRest? (s.flatMap escapeChar ++ '"' :: rest) = some (some s, rest) := by
  rw [stringRest?, stringUnits?_flatMap, Option.map_some]
  dsimp only
  rw [joinHalves?_map]

/-! ### Numbers -/

/-- What may follow a number: its end can be seen. -/
def Ends (rest : Text) : Prop :=
  ∀ c ∈ rest.head?, c.isDigit = false ∧ c ≠ '.' ∧ c ≠ 'e' ∧ c ≠ 'E'

theorem ends_cons {c : Char} {rest : Text}
    (h : c.isDigit = false ∧ c ≠ '.' ∧ c ≠ 'e' ∧ c ≠ 'E') : Ends (c :: rest) := by
  intro d hd
  obtain rfl := Option.some.inj hd
  exact h

theorem ofNat_append_ne {n : Nat} {c : Char} {rest s : Text} (hc : c.isDigit = false) :
    Text.ofNat n ++ rest ≠ c :: s := by
  intro h
  cases hn : Text.ofNat n with
  | nil => exact Text.ofNat_ne_nil n hn
  | cons d ds =>
    rw [hn, List.cons_append, List.cons.injEq] at h
    have hd : d.isDigit = true := Text.isDigit_of_mem_ofNat (hn ▸ List.mem_cons_self)
    rw [h.1, hc] at hd
    cases hd

theorem digits_ofNat (n : Nat) {rest : Text} (h : ∀ c ∈ rest.head?, c.isDigit = false) :
    digits (Text.ofNat n ++ rest) = (Text.ofNat n, rest) := by
  have hdigits : ∀ c ∈ Text.ofNat n, c.isDigit = true := fun _ => Text.isDigit_of_mem_ofNat
  rw [digits, List.takeWhile_append_of_pos hdigits, List.dropWhile_append_of_pos hdigits]
  cases rest with
  | nil => simp
  | cons c rest => simp [h c rfl]

theorem wholePart?_ofNat (n : Nat) {rest : Text} (h : ∀ c ∈ rest.head?, c.isDigit = false) :
    wholePart? (Text.ofNat n ++ rest) = some (Text.ofNat n, rest) := by
  unfold wholePart?
  split
  · rename_i s tail hs
    -- a zero is all of its number
    have hzero : Text.ofNat n = ['0'] := by
      refine Text.ofNat_eq_zero_of_head? ?_
      rw [← List.head?_append_of_ne_nil _ (Text.ofNat_ne_nil n), hs, List.head?_cons]
    rw [hzero] at hs ⊢
    obtain rfl : rest = tail := List.cons.inj hs |>.2
    cases rest with
    | nil => rfl
    | cons c rest => simp [h c rfl]
  · rw [digits_ofNat n h]
    cases hn : Text.ofNat n with
    | nil => exact absurd hn (Text.ofNat_ne_nil n)
    | cons c cs => rfl

theorem fractionPart?_of_ends {rest : Text} (h : rest.head? ≠ some '.') :
    fractionPart? rest = some (none, rest) := by
  unfold fractionPart?
  split
  · exact absurd rfl h
  · rfl

theorem exponentPart?_of_ends {rest : Text} (h : Ends rest) :
    exponentPart? rest = some (none, rest) := by
  cases rest with
  | nil => rfl
  | cons c rest =>
    obtain ⟨-, -, hlower, hupper⟩ := h c rfl
    simp [exponentPart?, hlower, hupper]

theorem exponentDigits_ofNat (n : Nat) (f : Int → Int) {rest : Text}
    (h : ∀ c ∈ rest.head?, c.isDigit = false) :
    (match digits (Text.ofNat n ++ rest) with
      | ([], _) => none
      | (ds, rest) => some (some (f (Nat.ofDigitChars 10 ds 0 : Nat)), rest)) =
      some (some (f n), rest) := by
  have hread : Nat.ofDigitChars 10 (Text.ofNat n) 0 = n := Nat.ofDigitChars_ten_toDigits
  rw [digits_ofNat n h]
  cases hn : Text.ofNat n with
  | nil => exact absurd hn (Text.ofNat_ne_nil n)
  | cons c cs =>
    dsimp only
    rw [← hn, hread]

theorem exponentPart?_ofInt (e : Int) {rest : Text} (h : ∀ c ∈ rest.head?, c.isDigit = false) :
    exponentPart? ('e' :: (Text.ofInt e ++ rest)) = some (some e, rest) := by
  cases e with
  | negSucc n => exact exponentDigits_ofNat (n + 1) (- ·) h
  | ofNat n =>
    rw [exponentPart?, if_pos (.inl rfl)]
    · exact exponentDigits_ofNat n id h
    · exact fun r => ofNat_append_ne (by decide)
    · exact fun r => ofNat_append_ne (by decide)

/-- The digits of a number without an exponent. -/
theorem numeral?_ofNat (negative : Bool) (n : Nat) {rest : Text} (h : Ends rest) :
    numeral? negative (Text.ofNat n ++ rest) =
      some ({ negative, whole := Text.ofNat n, fraction? := none, exponent? := none }, rest) := by
  have hdigit : ∀ c ∈ rest.head?, c.isDigit = false := fun c hc => (h c hc).1
  have hpoint : rest.head? ≠ some '.' := fun heq => (h '.' heq).2.1 rfl
  rw [numeral?, wholePart?_ofNat n hdigit]
  simp [fractionPart?_of_ends hpoint, exponentPart?_of_ends h]

/-- The digits of a number with an exponent. -/
theorem numeral?_exponent (negative : Bool) (n : Nat) (e : Int) {rest : Text} (h : Ends rest) :
    numeral? negative (Text.ofNat n ++ 'e' :: (Text.ofInt e ++ rest)) =
      some ({ negative, whole := Text.ofNat n, fraction? := none, exponent? := some e },
        rest) := by
  have hdigit : ∀ c ∈ rest.head?, c.isDigit = false := fun c hc => (h c hc).1
  have hpoint : ('e' :: (Text.ofInt e ++ rest)).head? ≠ some '.' := by simp
  rw [numeral?, wholePart?_ofNat n (by simp)]
  simp [fractionPart?_of_ends hpoint, exponentPart?_ofInt e hdigit]

end Json

end DocSite
