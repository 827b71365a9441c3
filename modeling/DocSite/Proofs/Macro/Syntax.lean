import DocSite.Macro.Invocation
import Mathlib.Data.List.Basic
import Mathlib.Data.List.TakeWhile

/-!
# The syntax of inline macros

`Invocation.ofStart?` reads the macro at the start of a text from left to right. Here what it
accepts is said without a reader: `Bracket.Writes list written` that a text in brackets stands for a
list, and `Invocation.Spells name i source` that the text `source` is `name:target[list]`.

* `Bracket.close?_eq_some_iff` : brackets are closed by the first closing bracket that is not
  escaped.
* `Invocation.namedAt?_eq_some_iff` : a macro is found at the start of a text exactly if the text
  starts with one.
* `Invocation.siteAt?_eq_some_iff` : the same with several names, and a text before the macro.

No look at what follows the macro is needed: it ends with its closing bracket.
-/

namespace DocSite

/-! ### Brackets -/

namespace Bracket

/-- In brackets the text `written` stands for `list`: a closing bracket that is part of the list has
a backslash before it, and a backslash is followed by a character of the list. -/
inductive Writes : (list written : Text) → Prop
  | nil : Writes [] []
  | bracket {list written : Text} (h : Writes list written) :
      Writes (']' :: list) ('\\' :: ']' :: written)
  | backslash {c : Char} {list written : Text} (hc : c ≠ ']') (h : Writes list written) :
      Writes ('\\' :: c :: list) ('\\' :: c :: written)
  | char {c : Char} {list written : Text} (hslash : c ≠ '\\') (hc : c ≠ ']')
      (h : Writes list written) : Writes (c :: list) (c :: written)

theorem close?_of_writes {list written : Text} (h : Writes list written) (rest : Text) :
    close? (written ++ ']' :: rest) = some (list, rest) := by
  unfold close?
  induction h with
  | nil => rfl
  | bracket _ ih => simp [closeFrom?, ih]
  | backslash hc _ ih => simp [closeFrom?, ih, hc]
  | char hslash hc _ ih => simp [closeFrom?, ih, hslash, hc]

/-- What a text that is closed has before the closing bracket, where `escaped` says whether a
backslash stands before the text. -/
theorem exists_writes {escaped : Bool} {s list rest : Text}
    (h : closeFrom? escaped s = some (list, rest)) :
    ∃ written, Writes list ((if escaped then ['\\'] else []) ++ written) ∧
      s = written ++ ']' :: rest := by
  induction s generalizing escaped list with
  | nil => cases escaped <;> simp [closeFrom?] at h
  | cons c s ih =>
    cases escaped with
    | true =>
      rw [closeFrom?] at h
      obtain ⟨⟨inner, after⟩, hinner, heq⟩ := Option.map_eq_some_iff.1 h
      obtain ⟨hlist, rfl⟩ := Prod.mk.inj heq
      obtain ⟨written, hwrites, rfl⟩ := ih hinner
      refine ⟨c :: written, ?_, rfl⟩
      by_cases hc : c = ']'
      · subst hc
        rw [← hlist]
        exact .bracket hwrites
      · rw [← hlist, if_neg hc]
        exact .backslash hc hwrites
    | false =>
      rw [closeFrom?] at h
      split at h
      · rename_i hslash
        obtain ⟨written, hwrites, rfl⟩ := ih h
        exact ⟨c :: written, hslash ▸ hwrites, rfl⟩
      · rename_i hslash
        split at h
        · rename_i hc
          obtain ⟨rfl, rfl⟩ := Prod.mk.inj (Option.some.inj h)
          exact ⟨[], .nil, by rw [hc, List.nil_append]⟩
        · rename_i hc
          obtain ⟨⟨inner, after⟩, hinner, heq⟩ := Option.map_eq_some_iff.1 h
          obtain ⟨rfl, rfl⟩ := Prod.mk.inj heq
          obtain ⟨written, hwrites, rfl⟩ := ih hinner
          exact ⟨c :: written, .char hslash hc hwrites, rfl⟩

/-- **Brackets are closed by the first closing bracket that is not escaped.** -/
theorem close?_eq_some_iff {s list rest : Text} :
    close? s = some (list, rest) ↔ ∃ written, Writes list written ∧ s = written ++ ']' :: rest := by
  constructor
  · exact exists_writes
  · rintro ⟨written, h, rfl⟩
    exact close?_of_writes h rest

end Bracket

namespace Invocation

/-! ### One name -/

/-- A target that an inline macro can have: it has characters, no opening bracket and no white space
among them, and the first is not a colon. -/
structure IsTarget (target : Text) : Prop where
  ne_nil : target ≠ []
  isTargetChar : ∀ c ∈ target, isTargetChar c = true
  head_ne : target.head? ≠ some ':'

/-- The text `source` is the inline macro `i` with the name `name`: `name:target[list]`. -/
inductive Spells (name : Text) : (i : Invocation) → (source : Text) → Prop
  | intro {target list written : Text} (htarget : IsTarget target)
      (hwritten : Bracket.Writes list written) :
      Spells name ⟨name, target, Attributes.read list⟩
        (name ++ ':' :: (target ++ '[' :: (written ++ [']'])))

theorem Spells.name_eq {name source : Text} {i : Invocation} (h : Spells name i source) :
    i.name = name := by
  cases h with
  | intro _ _ => rfl

theorem Spells.getLast?_eq {name source : Text} {i : Invocation} (h : Spells name i source) :
    source.getLast? = some ']' := by
  cases h with
  | intro _ _ => simp [List.getLast?_append, List.getLast?_cons]

theorem Spells.exists_append {name source : Text} {i : Invocation} (h : Spells name i source) :
    ∃ rest, source = name ++ ':' :: rest := by
  cases h with
  | intro _ _ => exact ⟨_, rfl⟩

theorem Spells.ne_nil {name source : Text} {i : Invocation} (h : Spells name i source) :
    source ≠ [] := by
  cases h with
  | intro _ _ => simp

theorem takeWhile_target {target : Text} (h : IsTarget target) (rest : Text) :
    (target ++ '[' :: rest).takeWhile isTargetChar = target := by
  rw [List.takeWhile_append_of_pos h.isTargetChar,
    List.takeWhile_cons_of_neg (by decide), List.append_nil]

theorem dropWhile_target {target : Text} (h : IsTarget target) (rest : Text) :
    (target ++ '[' :: rest).dropWhile isTargetChar = '[' :: rest := by
  rw [List.dropWhile_append_of_pos h.isTargetChar, List.dropWhile_cons_of_neg (by decide)]

theorem namedAt?_of_spells {name source : Text} {i : Invocation} (h : Spells name i source)
    (rest : Text) : namedAt? (source ++ rest) name = some (i, rest) := by
  cases h with
  | @intro target list written htarget hwritten =>
    have hsource : name ++ ':' :: (target ++ '[' :: (written ++ [']'])) ++ rest =
        name ++ ':' :: (target ++ '[' :: (written ++ ']' :: rest)) := by simp
    have hprefix : name.isPrefixOf? (name ++ ':' :: (target ++ '[' :: (written ++ ']' :: rest))) =
        some (':' :: (target ++ '[' :: (written ++ ']' :: rest))) :=
      List.isPrefixOf?_eq_some_iff_append_eq.2 rfl
    obtain ⟨c, tail, rfl⟩ := List.exists_cons_of_ne_nil htarget.ne_nil
    have hc : c ≠ ':' := fun hc => htarget.head_ne (by rw [hc, List.head?_cons])
    rw [hsource, namedAt?, hprefix]
    simp only [takeWhile_target htarget, dropWhile_target htarget]
    rw [if_neg hc, Bracket.close?_of_writes hwritten]
    rfl

theorem exists_spells {s name rest : Text} {i : Invocation}
    (h : namedAt? s name = some (i, rest)) :
    ∃ source, s = source ++ rest ∧ Spells name i source := by
  unfold namedAt? at h
  split at h
  · rename_i tail hprefix
    split at h
    · rename_i c target after htake hdrop
      split at h
      · cases h
      · rename_i hc
        obtain ⟨⟨list, last⟩, hclose, heq⟩ := Option.map_eq_some_iff.1 h
        obtain ⟨rfl, rfl⟩ := Prod.mk.inj heq
        obtain ⟨written, hwritten, rfl⟩ := Bracket.close?_eq_some_iff.1 hclose
        have htail : tail = (c :: target) ++ '[' :: (written ++ ']' :: last) := by
          rw [← htake, ← hdrop, List.takeWhile_append_dropWhile]
        have htarget : IsTarget (c :: target) := by
          refine ⟨List.cons_ne_nil _ _, fun d hd => ?_, fun hhead => hc ?_⟩
          · rw [← htake] at hd
            exact List.mem_takeWhile_imp hd
          · rw [List.head?_cons] at hhead
            exact Option.some.inj hhead
        refine ⟨_, ?_, .intro htarget hwritten⟩
        rw [← List.isPrefixOf?_eq_some_iff_append_eq.1 hprefix, htail]
        simp
    · cases h
  · cases h

/-- **A macro is found at the start of a text exactly if the text starts with one.** -/
theorem namedAt?_eq_some_iff {s name rest : Text} {i : Invocation} :
    namedAt? s name = some (i, rest) ↔ ∃ source, s = source ++ rest ∧ Spells name i source := by
  constructor
  · exact exists_spells
  · rintro ⟨source, rfl, h⟩
    exact namedAt?_of_spells h rest

/-! ### Several names -/

/-- The text `source`, followed by `rest`, is the inline macro `i`, and no macro with a name that
comes before that of `i` starts there. -/
def SpellsFirst (names : List Text) (i : Invocation) (source rest : Text) : Prop :=
  ∃ earlier name later, names = earlier ++ name :: later ∧ Spells name i source ∧
    ∀ n ∈ earlier, ∀ i' source' rest', source ++ rest = source' ++ rest' → ¬ Spells n i' source'

theorem ofStart?_eq_some_iff {names : List Text} {s rest : Text} {i : Invocation} :
    ofStart? names s = some (i, rest) ↔
      ∃ source, s = source ++ rest ∧ SpellsFirst names i source rest := by
  rw [ofStart?, List.findSome?_eq_some_iff]
  constructor
  · rintro ⟨earlier, name, later, rfl, hname, hearlier⟩
    obtain ⟨source, rfl, hspells⟩ := namedAt?_eq_some_iff.1 hname
    refine ⟨source, rfl, earlier, name, later, rfl, hspells, fun n hn i' source' rest' heq h => ?_⟩
    have hsome : namedAt? (source ++ rest) n = some (i', rest') :=
      namedAt?_eq_some_iff.2 ⟨source', heq, h⟩
    rw [hearlier n hn] at hsome
    cases hsome
  · rintro ⟨source, rfl, earlier, name, later, rfl, hspells, hearlier⟩
    refine ⟨earlier, name, later, rfl, namedAt?_of_spells hspells rest, fun n hn => ?_⟩
    cases hfound : namedAt? (source ++ rest) n with
    | none => rfl
    | some found =>
      obtain ⟨source', heq, h⟩ := namedAt?_eq_some_iff.1 hfound
      exact absurd h (hearlier n hn _ _ _ heq)

theorem SpellsFirst.exists_spells {names : List Text} {i : Invocation} {source rest : Text}
    (h : SpellsFirst names i source rest) : ∃ name ∈ names, Spells name i source := by
  obtain ⟨earlier, name, later, rfl, hspells, -⟩ := h
  exact ⟨name, by simp, hspells⟩

/-! ### The text before a macro -/

/-- A macro may start after a text: the text does not end with a letter, a numeral, an underscore
or a backslash. -/
def FreeAfter (before : Text) : Prop :=
  ∀ c ∈ before.getLast?, Text.isAlphanumeric c = false ∧ c ≠ '_' ∧ c ≠ '\\'

theorem freeAfter_iff {before : Text} :
    FreeAfter before ↔ before.getLast?.any bindsNext = false := by
  unfold FreeAfter
  cases before.getLast? <;> simp [bindsNext, and_assoc]

/-- In a line the inline macro `i`, with the text `source`, stands between `before` and `rest`. -/
structure Occurs (names : List Text) (before : Text) (i : Invocation) (source rest : Text) :
    Prop where
  free : FreeAfter before
  spells : SpellsFirst names i source rest

/-- **A macro is found after a text exactly where one stands.** -/
theorem siteAt?_eq_some_iff {names : List Text} {before s rest : Text} {i : Invocation} :
    siteAt? names before.getLast? s = some (i, rest) ↔
      ∃ source, s = source ++ rest ∧ Occurs names before i source rest := by
  unfold siteAt?
  split
  · rename_i hbinds
    constructor
    · rintro ⟨⟩
    · rintro ⟨source, -, h⟩
      rw [freeAfter_iff.1 h.free] at hbinds
      cases hbinds
  · rename_i hfree
    have hfree : FreeAfter before := freeAfter_iff.2 (eq_false_of_ne_true hfree)
    rw [ofStart?_eq_some_iff]
    constructor
    · rintro ⟨source, hs, h⟩
      exact ⟨source, hs, hfree, h⟩
    · rintro ⟨source, hs, h⟩
      exact ⟨source, hs, h.spells⟩

end Invocation

end DocSite
