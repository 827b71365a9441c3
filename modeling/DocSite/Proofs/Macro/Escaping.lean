import DocSite.Proofs.Macro.Syntax
import Mathlib.Algebra.Group.Nat.Even
import Mathlib.Data.List.Induction

/-!
# Escaped brackets

`Bracket.escape` writes a backslash before every closing bracket of a text, and before nothing else.
A reader of brackets takes two backslashes as two characters, so the one that is written is seen as
an escape only after an even number of backslashes; and a text that ends with an odd number of them
escapes the bracket that is to close it (`Bracket.EvenBackslashes`).

* `Bracket.writes_escape_iff` : the escaped form of a text stands for the text exactly if its
  backslashes are even there.
* `Bracket.writes_escape_concat` : they are if none stands before a closing bracket or at the end.
* `Bracket.close?_escape_iff` : such a text, and no other, is read back from its escaped form.
-/

namespace DocSite

namespace Bracket

/-! ### Escaping -/

theorem escape_append (a b : Text) : escape (a ++ b) = escape a ++ escape b :=
  List.flatMap_append

theorem escape_cons_of_ne {c : Char} (hc : c ≠ ']') (s : Text) :
    escape (c :: s) = c :: escape s := by
  simp [escape, Text.replace, hc]

theorem escape_cons_bracket (s : Text) : escape (']' :: s) = '\\' :: ']' :: escape s := rfl

theorem escape_of_not_mem {s : Text} (h : ']' ∉ s) : escape s = s := by
  induction s with
  | nil => rfl
  | cons c s ih =>
    have hc : c ≠ ']' := fun hc => h (by simp [hc])
    rw [escape_cons_of_ne hc, ih fun hs => h (List.mem_cons_of_mem _ hs)]

/-! ### Runs of backslashes -/

/-- How many backslashes a text ends with. -/
def endingBackslashes (s : Text) : Nat := (s.reverse.takeWhile (· = '\\')).length

theorem endingBackslashes_le (s : Text) : endingBackslashes s ≤ s.length := by
  have h := (List.takeWhile_sublist (· = '\\') (l := s.reverse)).length_le
  rwa [List.length_reverse] at h

theorem endingBackslashes_concat {c : Char} (hc : c ≠ '\\') (s : Text) :
    endingBackslashes (s ++ [c]) = 0 := by
  simp [endingBackslashes, hc]

theorem endingBackslashes_cons (c : Char) (s : Text) :
    endingBackslashes (c :: s) =
      if c = '\\' ∧ endingBackslashes s = s.length then s.length + 1 else endingBackslashes s := by
  unfold endingBackslashes
  rw [List.reverse_cons, List.takeWhile_append, List.length_reverse]
  by_cases hs : (s.reverse.takeWhile (· = '\\')).length = s.length
  · by_cases hc : c = '\\' <;> simp [hs, hc]
  · simp [hs]

theorem endingBackslashes_cons_of_ne {c : Char} (hc : c ≠ '\\') (s : Text) :
    endingBackslashes (c :: s) = endingBackslashes s := by
  rw [endingBackslashes_cons, if_neg fun h => hc h.1]

/-- A backslash and the character after it, which is another one or ends the run, leave an even
number even. -/
theorem even_endingBackslashes_cons_cons (c : Char) (s : Text) :
    Even (endingBackslashes ('\\' :: c :: s)) ↔ Even (endingBackslashes s) := by
  have hle := endingBackslashes_le s
  rw [endingBackslashes_cons, endingBackslashes_cons, List.length_cons]
  by_cases hall : c = '\\' ∧ endingBackslashes s = s.length
  · rw [if_pos hall, if_pos ⟨rfl, rfl⟩, hall.2, Nat.even_add_one, Nat.even_add_one, not_not]
  · rw [if_neg hall, if_neg (by omega)]

/-- An even number of backslashes stands before each closing bracket of a text, and at its end. -/
structure EvenBackslashes (s : Text) : Prop where
  bracket : ∀ before after, s = before ++ ']' :: after → Even (endingBackslashes before)
  last : Even (endingBackslashes s)

namespace EvenBackslashes

theorem nil : EvenBackslashes [] := ⟨by simp, .zero⟩

theorem cons_iff {c : Char} (hc : c ≠ '\\') {s : Text} :
    EvenBackslashes (c :: s) ↔ EvenBackslashes s := by
  constructor
  · rintro ⟨hbracket, hlast⟩
    refine ⟨?_, endingBackslashes_cons_of_ne hc s ▸ hlast⟩
    rintro before after rfl
    exact endingBackslashes_cons_of_ne hc before ▸ hbracket (c :: before) after rfl
  · rintro ⟨hbracket, hlast⟩
    refine ⟨fun before after h => ?_, (endingBackslashes_cons_of_ne hc s).symm ▸ hlast⟩
    cases before with
    | nil => exact .zero
    | cons d before =>
      obtain ⟨rfl, hs⟩ := List.cons.inj h
      exact (endingBackslashes_cons_of_ne hc before).symm ▸ hbracket before after hs

theorem pair_iff {c : Char} (hc : c ≠ ']') {s : Text} :
    EvenBackslashes ('\\' :: c :: s) ↔ EvenBackslashes s := by
  constructor
  · rintro ⟨hbracket, hlast⟩
    refine ⟨?_, (even_endingBackslashes_cons_cons c s).1 hlast⟩
    rintro before after rfl
    exact (even_endingBackslashes_cons_cons c before).1 (hbracket ('\\' :: c :: before) after rfl)
  · rintro ⟨hbracket, hlast⟩
    refine ⟨fun before after h => ?_, (even_endingBackslashes_cons_cons c s).2 hlast⟩
    -- the bracket is neither the backslash nor the character after it
    match before with
    | [] => cases h
    | [_] => exact absurd (List.cons.inj (List.cons.inj h).2).1 hc
    | d :: e :: before =>
      obtain ⟨rfl, rfl, hs⟩ : d = '\\' ∧ e = c ∧ s = before ++ ']' :: after := by
        simpa [eq_comm] using h
      exact (even_endingBackslashes_cons_cons _ before).2 (hbracket before after hs)

theorem not_backslash : ¬ EvenBackslashes ['\\'] := fun h => Nat.not_even_one h.last

theorem not_backslash_bracket (s : Text) : ¬ EvenBackslashes ('\\' :: ']' :: s) :=
  fun h => Nat.not_even_one (h.bracket ['\\'] s rfl)

end EvenBackslashes

/-! ### Escaped texts in brackets -/

theorem writes_cons_iff {c : Char} (hc : c ≠ '\\') {s : Text} :
    Writes (c :: s) (escape (c :: s)) ↔ Writes s (escape s) := by
  by_cases hbracket : c = ']'
  · subst hbracket
    rw [escape_cons_bracket]
    constructor
    · intro h
      cases h with
      | bracket h => exact h
    · exact .bracket
  · rw [escape_cons_of_ne hbracket]
    generalize escape s = written
    constructor
    · intro h
      cases h with
      | backslash => exact absurd rfl hc
      | char _ _ h => exact h
    · exact .char hc hbracket

theorem writes_pair_iff {c : Char} (hc : c ≠ ']') {s : Text} :
    Writes ('\\' :: c :: s) (escape ('\\' :: c :: s)) ↔ Writes s (escape s) := by
  rw [escape_cons_of_ne (by decide), escape_cons_of_ne hc]
  constructor
  · intro h
    cases h with
    | backslash _ h => exact h
    | char hslash => exact absurd rfl hslash
  · exact .backslash hc

/-- **The escaped form of a text stands for the text** exactly if its backslashes are even. -/
theorem writes_escape_iff {s : Text} : Writes s (escape s) ↔ EvenBackslashes s := by
  induction s using List.twoStepInduction with
  | nil => exact ⟨fun _ => .nil, fun _ => .nil⟩
  | singleton c =>
    by_cases hc : c = '\\'
    · subst hc
      refine ⟨fun h => ?_, fun h => absurd h EvenBackslashes.not_backslash⟩
      cases h with
      | char hslash => exact absurd rfl hslash
    · rw [writes_cons_iff hc, EvenBackslashes.cons_iff hc]
      exact ⟨fun _ => .nil, fun _ => .nil⟩
  | cons_cons c d s ih ih' =>
    by_cases hc : c = '\\'
    · subst hc
      by_cases hd : d = ']'
      · subst hd
        refine ⟨fun h => ?_, fun h => absurd h (EvenBackslashes.not_backslash_bracket s)⟩
        cases h with
        | char hslash => exact absurd rfl hslash
      · rw [writes_pair_iff hd, EvenBackslashes.pair_iff hd, ih]
    · rw [writes_cons_iff hc, EvenBackslashes.cons_iff hc, ih' d]

theorem EvenBackslashes.of_not_mem {s : Text} (h : '\\' ∉ s) : EvenBackslashes s := by
  induction s with
  | nil => exact .nil
  | cons c s ih =>
    have hc : c ≠ '\\' := fun hc => h (by simp [hc])
    exact (cons_iff hc).2 (ih fun hs => h (List.mem_cons_of_mem _ hs))

theorem Writes.append {a b written written' : Text} (ha : Writes a written)
    (hb : Writes b written') : Writes (a ++ b) (written ++ written') := by
  induction ha with
  | nil => exact hb
  | bracket _ ih => exact .bracket ih
  | backslash hc _ ih => exact .backslash hc ih
  | char hslash hc _ ih => exact .char hslash hc ih

theorem writes_escape_of_forall {s : Text} (h : ∀ c ∈ s, c ≠ '\\' ∧ c ≠ ']') :
    Writes s (escape s) :=
  writes_escape_iff.2 (.of_not_mem fun hs => (h _ hs).1 rfl)

/-- A text without a closing bracket right after a backslash is read back, if a character follows
that is neither. -/
theorem writes_escape_concat {c : Char} (hslash : c ≠ '\\') (hc : c ≠ ']') {s : Text}
    (h : ¬ ['\\', ']'] <:+: s) : Writes (s ++ [c]) (escape (s ++ [c])) := by
  refine writes_escape_iff.2 ⟨fun before after hs => ?_, ?_⟩
  · rcases List.eq_nil_or_concat' before with rfl | ⟨before, d, rfl⟩
    · exact .zero
    · rcases List.eq_nil_or_concat' after with rfl | ⟨after, e, rfl⟩
      · exact absurd (List.append_inj' hs rfl).2 (by simpa using hc)
      · have hs' : s ++ [c] = (before ++ [d] ++ ']' :: after) ++ [e] := by simpa using hs
        obtain ⟨rfl, -⟩ := List.append_inj' hs' rfl
        have hd : d ≠ '\\' := by
          rintro rfl
          exact h ⟨before, after, by simp⟩
        exact endingBackslashes_concat hd before ▸ .zero
  · exact endingBackslashes_concat hslash s ▸ .zero

/-- **An escaped text is read back exactly if its backslashes allow it.** In brackets, with any text
after them, the escaped form of a text is read as the text, and nothing else is taken, if and only
if an even number of backslashes stands before each closing bracket of the text and at its end. So
it is with every text without backslashes. -/
theorem close?_escape_iff (s rest : Text) :
    (close? (escape s ++ ']' :: rest) = some (s, rest) ↔
        (∀ before after, s = before ++ ']' :: after → Even (endingBackslashes before)) ∧
          Even (endingBackslashes s)) ∧
      ('\\' ∉ s → close? (escape s ++ ']' :: rest) = some (s, rest)) := by
  have hread : close? (escape s ++ ']' :: rest) = some (s, rest) ↔ EvenBackslashes s := by
    rw [close?_eq_some_iff, ← writes_escape_iff]
    constructor
    · rintro ⟨written, hwritten, heq⟩
      exact List.append_cancel_right heq ▸ hwritten
    · exact fun h => ⟨_, h, rfl⟩
  refine ⟨hread.trans ⟨fun h => ⟨h.bracket, h.last⟩, fun h => ⟨h.1, h.2⟩⟩, fun h => ?_⟩
  exact hread.2 (.of_not_mem h)

end Bracket

end DocSite
