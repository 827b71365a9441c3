import DocSite.Text.Letters
import Mathlib.Data.List.Basic
import Mathlib.Data.List.TakeWhile

/-!
# Words and white space

A text whose ends are no white space is not changed by trimming it. Letters and numerals are no
white space, so this holds of names, and of quoted values.

* `Text.trim_eq_self` : a text that starts and ends with no white space stays.
* `Text.mem_trim` : trimming takes white space only.
* `Text.trim_append_blank` : white space around a text does not matter to trimming.
* `Text.isBlankChar_of_isAlphanumeric` : the characters of words are no white space.
-/

namespace DocSite

namespace Text

/-! ### Trimming -/

theorem trimStart_eq_self {s : Text} (h : ∀ c ∈ s.head?, isBlankChar c = false) :
    s.trimStart = s := by
  cases s with
  | nil => rfl
  | cons c s =>
    have hc : ¬ isBlankChar c = true := by simp [h c rfl]
    exact List.dropWhile_cons_of_neg hc

theorem trimStart_append {s : Text} (h : s.head?.any (fun c => !isBlankChar c) = true)
    (rest : Text) : (s ++ rest).trimStart = s ++ rest := by
  cases s with
  | nil => cases h
  | cons c s =>
    refine trimStart_eq_self fun d hd => ?_
    obtain rfl := Option.some.inj hd
    simpa using h

theorem trimEnd_eq_self {s : Text} (h : ∀ c ∈ s.getLast?, isBlankChar c = false) :
    s.trimEnd = s := by
  have hstart : trimStart s.reverse = s.reverse := trimStart_eq_self (by simpa using h)
  rw [trimEnd, dropEndWhile, ← trimStart, hstart, List.reverse_reverse]

/-- A text that neither starts nor ends with white space stays. -/
theorem trim_eq_self {s : Text} (hhead : ∀ c ∈ s.head?, isBlankChar c = false)
    (hlast : ∀ c ∈ s.getLast?, isBlankChar c = false) : s.trim = s := by
  rw [trim, trimStart_eq_self hhead, trimEnd_eq_self hlast]

theorem trim_of_isBlank {s : Text} (h : isBlank s = true) : s.trim = [] := by
  have hstart : s.trimStart = [] := List.dropWhile_eq_nil_iff.2 (List.all_eq_true.1 h)
  rw [trim, hstart]
  rfl

theorem trimEnd_isPrefix (s : Text) : s.trimEnd <+: s := by
  have h := List.dropWhile_suffix isBlankChar (l := s.reverse)
  rw [← List.reverse_prefix, List.reverse_reverse] at h
  exact h

theorem trim_cons {c : Char} (hc : isBlankChar c = false) (s : Text) :
    ∃ rest, trim (c :: s) = c :: rest := by
  have hstart : trimStart (c :: s) = c :: s := trimStart_eq_self fun d hd => by
    rw [← Option.some.inj hd, hc]
  rw [trim, hstart, trimEnd, dropEndWhile, List.reverse_cons, List.dropWhile_append]
  split
  · rw [List.dropWhile_cons_of_neg (by rw [hc]; exact Bool.false_ne_true)]
    exact ⟨[], rfl⟩
  · rw [List.reverse_append]
    exact ⟨_, rfl⟩

theorem isBlankChar_getLast? {s : Text} (htrim : s.trim = s) :
    ∀ c ∈ s.getLast?, isBlankChar c = false := by
  intro c hc
  rw [← htrim, trim, trimEnd, dropEndWhile, List.getLast?_reverse] at hc
  have hhead := List.head?_dropWhile_not isBlankChar s.trimStart.reverse
  rw [Option.mem_def.1 hc] at hhead
  exact hhead

theorem isBlank_eq_false {s : Text} (hne : s ≠ []) (htrim : s.trim = s) : isBlank s = false := by
  by_contra hblank
  exact hne (htrim.symm.trans (trim_of_isBlank (eq_true_of_ne_false hblank)))

theorem isBlank_eq_false_of_mem {s : Text} {c : Char} (hc : isBlankChar c = false) (h : c ∈ s) :
    isBlank s = false :=
  List.all_eq_false.2 ⟨c, h, by simp [hc]⟩

theorem mem_dropWhile {p : Char → Bool} {s : Text} {c : Char} (hc : p c = false) (h : c ∈ s) :
    c ∈ s.dropWhile p := by
  rw [← List.takeWhile_append_dropWhile (p := p) (l := s)] at h
  rcases List.mem_append.1 h with htake | hdrop
  · rw [List.mem_takeWhile_imp htake] at hc
    cases hc
  · exact hdrop

/-- Trimming takes white space only. -/
theorem mem_trim {s : Text} {c : Char} (hc : isBlankChar c = false) (h : c ∈ s) : c ∈ s.trim := by
  have hstart : c ∈ s.trimStart := mem_dropWhile hc h
  rw [trim, trimEnd, dropEndWhile, List.mem_reverse]
  exact mem_dropWhile hc (List.mem_reverse.2 hstart)

/-- White space around a text is taken away with that of the text. -/
theorem trim_append_blank {before after : Text} (hbefore : isBlank before = true)
    (hafter : isBlank after = true) (s : Text) : (before ++ s ++ after).trim = s.trim := by
  have hfront : ∀ c ∈ before, isBlankChar c = true := List.all_eq_true.1 hbefore
  have hback : ∀ c ∈ after, isBlankChar c = true := List.all_eq_true.1 hafter
  have hend : ∀ t : Text, trimEnd (t ++ after) = trimEnd t := fun t => by
    rw [trimEnd, trimEnd, dropEndWhile, dropEndWhile, List.reverse_append,
      List.dropWhile_append_of_pos fun c hc => hback c (List.mem_reverse.1 hc)]
  rw [trim, trim, trimStart, List.append_assoc, List.dropWhile_append_of_pos hfront,
    List.dropWhile_append]
  split
  · rename_i hempty
    have hnil : s.dropWhile isBlankChar = [] := List.isEmpty_iff.1 hempty
    rw [trimStart, hnil, List.dropWhile_eq_nil_iff.2 hback]
  · exact hend _

/-! ### Letters and numerals -/

theorem isAlphanumeric_of_isLetter {c : Char} (h : isLetter c = true) :
    isAlphanumeric c = true := by
  unfold isLetter at h
  unfold isAlphanumeric
  split
  · rename_i hascii
    rw [if_pos hascii] at h
    simp [Char.isAlphanum, h]
  · rename_i hascii
    rw [if_neg hascii] at h
    simp [h]

/-- The code points of white space. -/
def blankCodes : List Nat :=
  [9, 10, 11, 12, 13, 0x20, 0x85, 0xA0, 0x1680, 0x2000, 0x2001, 0x2002, 0x2003, 0x2004, 0x2005,
    0x2006, 0x2007, 0x2008, 0x2009, 0x200A, 0x2028, 0x2029, 0x202F, 0x205F, 0x3000]

theorem mem_blankCodes {c : Char} (h : isBlankChar c = true) : c.toNat ∈ blankCodes := by
  simp only [isBlankChar, Bool.or_eq_true, Bool.and_eq_true, decide_eq_true_eq, beq_iff_eq] at h
  simp only [blankCodes, List.mem_cons, List.not_mem_nil]
  omega

/-- A class of characters that holds none of the white space is apart from it. -/
theorem isBlankChar_of_class {p : Char → Bool} (hcodes : ∀ n ∈ blankCodes, p (Char.ofNat n) = false)
    {c : Char} (h : p c = true) : isBlankChar c = false := by
  by_contra hblank
  have hc := hcodes c.toNat (mem_blankCodes (eq_true_of_ne_false hblank))
  rw [Char.ofNat_toNat, h] at hc
  cases hc

/-- The characters of words are no white space. -/
theorem isBlankChar_of_isAlphanumeric {c : Char} (h : isAlphanumeric c = true) :
    isBlankChar c = false :=
  isBlankChar_of_class (by decide +kernel) h

theorem isBlankChar_of_isDigit {c : Char} (h : c.isDigit = true) : isBlankChar c = false :=
  isBlankChar_of_class (by decide) h

end Text

end DocSite
