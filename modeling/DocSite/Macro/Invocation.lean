import DocSite.Macro.Attributes
import DocSite.Macro.Bracket

/-!
# Macros in a line

A block macro is a line of its own, `name::target[attributes]`. An inline macro stands anywhere in a
line, `name:target[attributes]`, but not within a word or after a backslash.

* `Invocation` : a macro with its target and its attributes.
* `Invocation.ofLine?` : the block macro that a line consists of.
* `Invocation.ofStart?` : the inline macro at the start of a text.
* `Invocation.find?` : the first inline macro of a line.
* `Invocation.cut` : a line cut at its inline macros.
-/

namespace DocSite

/-- A macro as it is written in a document. -/
structure Invocation where
  name : Text
  target : Text
  attributes : Attributes
  deriving DecidableEq, Repr

namespace Invocation

/-! ### Block macros -/

/-- A name that a block macro can have. -/
def isName : Text → Bool
  | [] => false
  | c :: rest =>
    Text.isLetter c && rest.all fun d => Text.isAlphanumeric d || d = '-' || d = '_'

/-- The block macro that a line consists of. -/
def ofLine? (line : Text) : Option Invocation := do
  let (name, rest) ← Text.splitFirstText? [':', ':'] line.trim
  let (target, rest) ← Text.splitFirst? '[' rest
  let (list, rest) ← Bracket.close? rest
  if isName name ∧ !target.any Text.isBlankChar ∧ rest = [] then
    some ⟨name, target, Attributes.read list⟩
  else none

/-! ### Inline macros -/

/-- A character that can stand in the target of an inline macro. -/
def isTargetChar (c : Char) : Bool := c ≠ '[' && !Text.isBlankChar c

/-- The inline macro with a name at the start of a text, and what follows it. -/
def namedAt? (s name : Text) : Option (Invocation × Text) :=
  match name.isPrefixOf? s with
  | some (':' :: rest) =>
    match rest.takeWhile isTargetChar, rest.dropWhile isTargetChar with
    | c :: target, '[' :: rest =>
      if c = ':' then none
      else (Bracket.close? rest).map fun (list, rest) =>
        (⟨name, c :: target, Attributes.read list⟩, rest)
    | _, _ => none
  | _ => none

/-- The inline macro at the start of a text, and what follows it. The first name that fits wins. -/
def ofStart? (names : List Text) (s : Text) : Option (Invocation × Text) :=
  names.findSome? (namedAt? s)

/-- Whether no macro starts after a character: within a word, and after a backslash. -/
def bindsNext (c : Char) : Bool := Text.isAlphanumeric c || c = '_' || c = '\\'

/-- An inline macro and its source. -/
structure Site where
  invocation : Invocation
  source : Text
  deriving DecidableEq, Repr

/-- A line cut at its inline macros. -/
structure Cut where
  /-- What stands before the first macro. -/
  lead : Text
  /-- The macros, each with what follows it up to the next. -/
  sites : List (Site × Text)
  deriving DecidableEq, Repr

/-- The text that is cut. -/
def Cut.source (c : Cut) : Text :=
  c.lead ++ c.sites.flatMap fun (site, after) => site.source ++ after

/-- The inline macro at the start of a text that stands after `before`. -/
def siteAt? (names : List Text) (before : Option Char) (s : Text) : Option (Invocation × Text) :=
  if before.any bindsNext then none else ofStart? names s

theorem append_of_isPrefixOf? {a s rest : Text} (h : a.isPrefixOf? s = some rest) :
    a ++ rest = s := by
  induction a generalizing s with
  | nil => exact (Option.some.inj h).symm
  | cons c a ih =>
    cases s with
    | nil => cases h
    | cons d s =>
      change (if c == d then a.isPrefixOf? s else none) = some rest at h
      split at h
      · rename_i hc
        simp only [beq_iff_eq] at hc
        rw [List.cons_append, ih h, hc]
      · simp at h

theorem length_closeFrom? {escaped : Bool} {s list rest : Text}
    (h : Bracket.closeFrom? escaped s = some (list, rest)) : rest.length < s.length := by
  induction s generalizing escaped list with
  | nil => simp [Bracket.closeFrom?] at h
  | cons c s ih =>
    cases escaped
    · simp only [Bracket.closeFrom?] at h
      split at h
      · exact Nat.lt_succ_of_lt (ih h)
      · split at h
        · simp at h; simp [h.2]
        · simp only [Option.map_eq_some_iff, Prod.mk.injEq] at h
          obtain ⟨⟨l, r⟩, h, _, rfl⟩ := h
          exact Nat.lt_succ_of_lt (ih h)
    · simp only [Bracket.closeFrom?, Option.map_eq_some_iff, Prod.mk.injEq] at h
      obtain ⟨⟨l, r⟩, h, _, rfl⟩ := h
      exact Nat.lt_succ_of_lt (ih h)

theorem length_namedAt? {s name rest : Text} {i : Invocation}
    (h : namedAt? s name = some (i, rest)) : rest.length < s.length := by
  unfold namedAt? at h
  split at h
  · rename_i tail hp
    split at h
    · rename_i c target tail' ht hd
      split at h
      · simp at h
      · simp only [Option.map_eq_some_iff, Prod.mk.injEq] at h
        obtain ⟨⟨l, r⟩, h, _, rfl⟩ := h
        have h₁ := length_closeFrom? h
        have h₂ : name ++ ':' :: tail = s := append_of_isPrefixOf? hp
        have h₃ : (tail.takeWhile isTargetChar ++ tail.dropWhile isTargetChar).length
            = tail.length := by rw [List.takeWhile_append_dropWhile]
        rw [ht, hd] at h₃
        simp only [List.length_append, List.length_cons] at h₃
        simp only [← h₂, List.length_append, List.length_cons]
        omega
    · simp at h
  · simp at h

theorem length_siteAt? {names : List Text} {before : Option Char} {s rest : Text} {i : Invocation}
    (h : siteAt? names before s = some (i, rest)) : rest.length < s.length := by
  unfold siteAt? at h
  split at h
  · simp at h
  · obtain ⟨_, _, name, _, h, _⟩ := List.findSome?_eq_some_iff.1 h
    exact length_namedAt? h

/-- The first inline macro of a text, with what stands before and after it. -/
structure Found where
  lead : Text
  site : Site
  rest : Text
  deriving DecidableEq, Repr

/-- The first inline macro of a text that stands after the character `before`. -/
def findAfter? (names : List Text) : (before : Option Char) → Text → Option Found
  | _, [] => none
  | before, c :: tail =>
    match siteAt? names before (c :: tail) with
    | some (i, rest) => some ⟨[], ⟨i, (c :: tail).take ((c :: tail).length - rest.length)⟩, rest⟩
    | none =>
      (findAfter? names (some c) tail).map fun found => { found with lead := c :: found.lead }

/-- The first inline macro of a line. -/
def find? (names : List Text) (line : Text) : Option Found := findAfter? names none line

theorem length_findAfter? {names : List Text} {before : Option Char} {s : Text} {found : Found}
    (h : findAfter? names before s = some found) : found.rest.length < s.length := by
  induction s generalizing before found with
  | nil => simp [findAfter?] at h
  | cons c tail ih =>
    rw [findAfter?] at h
    split at h
    · rename_i i rest hsite
      rw [← Option.some.inj h]
      exact length_siteAt? hsite
    · obtain ⟨next, hnext, rfl⟩ := Option.map_eq_some_iff.1 h
      have hlt : next.rest.length < tail.length := ih hnext
      exact Nat.lt_succ_of_lt hlt

/-- A line cut at its inline macros: at the first of them, and then what follows it. -/
def cut (names : List Text) (line : Text) : Cut :=
  match h : find? names line with
  | some found =>
    have := length_findAfter? h
    let next := cut names found.rest
    ⟨found.lead, (found.site, next.lead) :: next.sites⟩
  | none => ⟨line, []⟩
termination_by line.length

end Invocation

end DocSite
