import DocSite.Text.Basic
import Mathlib.Data.List.Basic
import Mathlib.Tactic.SplitIfs

/-!
# Texts joined, and cut at a separator

Where a text is cut is told by where the separator occurs: the first occurrence has none before it,
the last none after it, and the parts between all occurrences hold none.

* `Text.splitFirst?_append`, `Text.splitFirstText?_append` : a text is cut at the first separator.
* `Text.contains_iff` : a text can be cut at what it contains.
* `Text.eq_of_splitLast?` : a text is cut at the last separator.
* `Text.not_mem_of_mem_splitOn` : the parts of a text between separators hold none.
-/

namespace DocSite

namespace Text

/-! ### Joining -/

@[simp] theorem join_singleton (sep part : Text) : join sep [part] = part :=
  List.intercalate_singleton

@[simp] theorem join_cons_cons (sep part next : Text) (parts : List Text) :
    join sep (part :: next :: parts) = part ++ (sep ++ join sep (next :: parts)) := by
  rw [join, List.intercalate_cons_cons, List.append_assoc, ← join]

/-! ### Cutting -/

variable {sep : Char}

theorem splitFirst?_append {a : Text} (h : sep ∉ a) (b : Text) :
    splitFirst? sep (a ++ sep :: b) = some (a, b) := by
  induction a with
  | nil => simp [splitFirst?]
  | cons c a ih =>
    have hc : c ≠ sep := fun hc => h (by simp [hc])
    have ha : sep ∉ a := fun ha => h (List.mem_cons_of_mem _ ha)
    simp [splitFirst?, hc, ih ha]

theorem splitFirst?_eq_none {s : Text} (h : sep ∉ s) : splitFirst? sep s = none := by
  induction s with
  | nil => rfl
  | cons c s ih =>
    have hc : c ≠ sep := fun hc => h (by simp [hc])
    have hs : sep ∉ s := fun hs => h (List.mem_cons_of_mem _ hs)
    rw [splitFirst?, if_neg hc, ih hs]
    rfl

theorem not_mem_of_splitFirst?_eq_none {s : Text} (h : splitFirst? sep s = none) : sep ∉ s := by
  intro hmem
  obtain ⟨a, b, rfl, ha⟩ := List.eq_append_cons_of_mem hmem
  rw [splitFirst?_append ha] at h
  cases h

theorem eq_of_splitFirst? {s a b : Text} (h : splitFirst? sep s = some (a, b)) :
    s = a ++ sep :: b := by
  induction s generalizing a with
  | nil => cases h
  | cons c s ih =>
    rw [splitFirst?] at h
    split_ifs at h with hc
    · obtain ⟨rfl, rfl⟩ := Prod.mk.inj (Option.some.inj h)
      rw [hc, List.nil_append]
    · obtain ⟨⟨a', b'⟩, hcut, heq⟩ := Option.map_eq_some_iff.1 h
      obtain ⟨rfl, rfl⟩ := Prod.mk.inj heq
      rw [ih hcut, List.cons_append]

theorem not_mem_of_splitFirst? {s a b : Text} (h : splitFirst? sep s = some (a, b)) :
    sep ∉ a := by
  induction s generalizing a b with
  | nil => cases h
  | cons c s ih =>
    rw [splitFirst?] at h
    split_ifs at h with hc
    · obtain ⟨rfl, -⟩ := Prod.mk.inj (Option.some.inj h)
      exact List.not_mem_nil
    · obtain ⟨⟨a', b'⟩, hcut, heq⟩ := Option.map_eq_some_iff.1 h
      obtain ⟨rfl, -⟩ := Prod.mk.inj heq
      rw [List.mem_cons, not_or]
      exact ⟨fun heq => hc heq.symm, ih hcut⟩

theorem splitFirst?_eq_some_iff {s a b : Text} :
    splitFirst? sep s = some (a, b) ↔ s = a ++ sep :: b ∧ sep ∉ a := by
  refine ⟨fun h => ⟨eq_of_splitFirst? h, not_mem_of_splitFirst? h⟩, ?_⟩
  rintro ⟨rfl, ha⟩
  exact splitFirst?_append ha b

/-- A text is cut at the first occurrence of a text whose first character does not occur before. -/
theorem splitFirstText?_append {a : Text} (h : sep ∉ a) (tail b : Text) :
    splitFirstText? (sep :: tail) (a ++ (sep :: tail ++ b)) = some (a, b) := by
  induction a with
  | nil =>
    have hprefix : (sep :: tail).isPrefixOf? (sep :: (tail ++ b)) = some b :=
      List.isPrefixOf?_eq_some_iff_append_eq.2 rfl
    rw [List.nil_append, List.cons_append, splitFirstText?, hprefix]
  | cons c a ih =>
    have hc : sep ≠ c := fun hc => h (by simp [hc])
    have ha : sep ∉ a := fun ha => h (List.mem_cons_of_mem _ ha)
    have hnone : (sep :: tail).isPrefixOf? (c :: (a ++ (sep :: tail ++ b))) = none := by
      rw [List.isPrefixOf?, if_neg (by simpa using hc)]
    rw [List.cons_append, splitFirstText?, hnone, ih ha]
    rfl

theorem eq_of_splitFirstText? {sep s a b : Text} (h : splitFirstText? sep s = some (a, b)) :
    s = a ++ (sep ++ b) := by
  induction s generalizing a with
  | nil =>
    rw [splitFirstText?] at h
    split_ifs at h with hsep
    obtain ⟨rfl, rfl⟩ := Prod.mk.inj (Option.some.inj h)
    rw [hsep, List.nil_append, List.nil_append]
  | cons c s ih =>
    rw [splitFirstText?] at h
    split at h
    · rename_i rest hprefix
      obtain ⟨rfl, rfl⟩ := Prod.mk.inj (Option.some.inj h)
      exact (List.isPrefixOf?_eq_some_iff_append_eq.1 hprefix).symm
    · obtain ⟨⟨a', b'⟩, hcut, heq⟩ := Option.map_eq_some_iff.1 h
      obtain ⟨rfl, rfl⟩ := Prod.mk.inj heq
      rw [ih hcut, List.cons_append]

theorem contains_iff {fragment s : Text} : contains fragment s = true ↔ fragment <:+: s := by
  rw [contains, Option.isSome_iff_exists]
  constructor
  · rintro ⟨⟨a, b⟩, h⟩
    exact ⟨a, b, by rw [eq_of_splitFirstText? h, List.append_assoc]⟩
  · intro h
    induction s with
    | nil =>
      obtain rfl := List.infix_nil.1 h
      exact ⟨_, rfl⟩
    | cons c s ih =>
      rw [splitFirstText?]
      split
      · exact ⟨_, rfl⟩
      · rename_i hprefix
        rcases List.infix_cons_iff.1 h with ⟨rest, hrest⟩ | h
        · rw [List.isPrefixOf?_eq_some_iff_append_eq.2 hrest] at hprefix
          cases hprefix
        · obtain ⟨cut, hcut⟩ := ih h
          exact ⟨_, by rw [hcut, Option.map_some]⟩

theorem splitLast?_eq_none {s : Text} (h : sep ∉ s) : splitLast? sep s = none := by
  induction s with
  | nil => rfl
  | cons c s ih =>
    have hc : c ≠ sep := fun hc => h (by simp [hc])
    have hs : sep ∉ s := fun hs => h (List.mem_cons_of_mem _ hs)
    rw [splitLast?, ih hs]
    exact if_neg hc

theorem splitLast?_append {b : Text} (h : sep ∉ b) (a : Text) :
    splitLast? sep (a ++ sep :: b) = some (a, b) := by
  induction a with
  | nil =>
    rw [List.nil_append, splitLast?, splitLast?_eq_none h]
    exact if_pos rfl
  | cons c a ih => rw [List.cons_append, splitLast?, ih]

theorem not_mem_of_splitLast? {s : Text} (h : splitLast? sep s = none) : sep ∉ s := by
  induction s with
  | nil => exact List.not_mem_nil
  | cons c r ih =>
    rw [splitLast?] at h
    split at h
    · cases h
    · rename_i hr
      split_ifs at h with hc
      simp only [List.mem_cons, not_or]
      exact ⟨fun heq => hc heq.symm, ih hr⟩

theorem eq_of_splitLast? {s a b : Text} (h : splitLast? sep s = some (a, b)) :
    s = a ++ sep :: b ∧ sep ∉ b := by
  induction s generalizing a with
  | nil => cases h
  | cons c r ih =>
    rw [splitLast?] at h
    split at h
    · rename_i a' b' hr
      obtain ⟨rfl, rfl⟩ := Prod.mk.inj (Option.some.inj h)
      obtain ⟨rfl, hb⟩ := ih hr
      exact ⟨rfl, hb⟩
    · rename_i hr
      split_ifs at h with hc
      obtain ⟨rfl, rfl⟩ := Prod.mk.inj (Option.some.inj h)
      exact ⟨by rw [hc]; rfl, not_mem_of_splitLast? hr⟩

/-- The parts of a text between separators hold none. -/
theorem not_mem_of_mem_splitOn {s part : Text} (h : part ∈ s.splitOn sep) : sep ∉ part := by
  induction s generalizing part with
  | nil =>
    rw [List.splitOn_nil, List.mem_singleton] at h
    exact h ▸ List.not_mem_nil
  | cons c r ih =>
    rw [List.splitOn_cons_eq_if_modifyHead] at h
    obtain ⟨first, others, hr⟩ := List.exists_cons_of_ne_nil (List.splitOn_ne_nil sep r)
    rw [hr] at h ih
    split_ifs at h with hc
    · rcases List.mem_cons.1 h with rfl | h
      · exact List.not_mem_nil
      · exact ih h
    · rcases List.mem_cons.1 h with rfl | h
      · simp only [List.mem_cons, not_or]
        exact ⟨fun heq => hc (by simp [heq]), ih List.mem_cons_self⟩
      · exact ih (List.mem_cons_of_mem _ h)

end Text

end DocSite
