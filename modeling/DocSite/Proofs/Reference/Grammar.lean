import DocSite.Reference
import Mathlib.Data.List.TakeWhile
import Mathlib.Logic.ExistsUnique
import Mathlib.Tactic.SplitIfs

/-!
# The grammar of references

`Reference.parse?` reads a text from left to right, one optional part after the other. Here the
grammar that it decides is stated without a reader: `Reference.Spells s r` says that the text `s` is
the concatenation of the parts of `r`, each with its separator, and that every part that is spelled
out has characters and none of the separators `@`, `:`, `$`.

* `Reference.parse?_eq_some_iff` : a text is read as `r` exactly if it spells `r`.
* `Reference.parse?_render_iff` : what is rendered is read back exactly if it is well formed.
* `Reference.parse?_decides_grammar` : every text has at most one reading, and it is the one found.

The reader is right for two reasons. A leading part is cut off exactly where its separator stands
(`leadingPart?_eq_some_iff`), and what follows a part that is left out does not hold the separator
of that part (`optionalPart_renderPart`, `optionalPlace_append`).
-/

namespace DocSite

namespace Reference

/-! ### Parts -/

/-- Free of the three separators. -/
def Plain (s : Text) : Prop := '@' ∉ s ∧ ':' ∉ s ∧ '$' ∉ s

instance (s : Text) : Decidable (Plain s) := inferInstanceAs (Decidable (_ ∧ _ ∧ _))

/-- A text that can be spelled out as a part: it has characters, and none of the separators. -/
def Spellable (s : Text) : Prop := s ≠ [] ∧ Plain s

instance (s : Text) : Decidable (Spellable s) := inferInstanceAs (Decidable (_ ∧ _))

theorem plain_iff {s : Text} : Plain s ↔ ∀ c ∈ s, isPartChar c = true := by
  simp only [Plain, isPartChar, Bool.and_eq_true, decide_eq_true_eq]
  constructor
  · rintro ⟨hat, hcolon, hdollar⟩ c hc
    refine ⟨⟨?_, ?_⟩, ?_⟩ <;> rintro rfl
    · exact hat hc
    · exact hcolon hc
    · exact hdollar hc
  · intro h
    exact ⟨fun hc => (h _ hc).1.1 rfl, fun hc => (h _ hc).1.2 rfl, fun hc => (h _ hc).2 rfl⟩

theorem isPart_iff {s : Text} : isPart s = true ↔ Spellable s := by
  simp only [isPart, Spellable, plain_iff, Bool.and_eq_true, decide_eq_true_eq, List.all_eq_true]

theorem Plain.not_mem {s : Text} {sep : Char} (h : Plain s) (hsep : isPartChar sep = false) :
    sep ∉ s := by
  intro hc
  rw [plain_iff.1 h sep hc] at hsep
  exact Bool.noConfusion hsep

theorem Spellable.not_mem {s : Text} {sep : Char} (h : Spellable s)
    (hsep : isPartChar sep = false) : sep ∉ s :=
  h.2.not_mem hsep

/-! ### Well-formed references and the texts that spell them -/

/-- Every part that is spelled out can be. -/
structure WellFormed (r : Reference) : Prop where
  version : ∀ p ∈ r.version, Spellable p
  component : ∀ p ∈ r.component, Spellable p
  module : ∀ p ∈ r.module, Spellable p
  family : ∀ p ∈ r.family, Spellable p
  relative : Spellable r.relative

/-- The ways to write a component and a module in front of the family. -/
inductive Place : Option Text → Option Text → Text → Prop where
  /-- `component:module:` -/
  | both (c m : Text) : Place (some c) (some m) (c ++ ':' :: m ++ [':'])
  /-- `component::` -/
  | component (c : Text) : Place (some c) none (c ++ [':', ':'])
  /-- `module:` -/
  | module (m : Text) : Place none (some m) (m ++ [':'])
  /-- A colon that closes an empty slot. -/
  | colon : Place none none [':']
  /-- Nothing at all. -/
  | nothing : Place none none []

/-- The text `s` spells out the parts of `r`. -/
structure Spells (s : Text) (r : Reference) : Prop where
  wellFormed : r.WellFormed
  text : ∃ place, Place r.component r.module place ∧
    s = renderPart '@' r.version ++ place ++ renderPart '$' r.family ++ r.relative

theorem place_renderPlace (c m : Option Text) : Place c m (renderPlace c m) := by
  cases c with
  | none =>
    cases m with
    | none => exact .nothing
    | some m => exact .module m
  | some c =>
    cases m with
    | none => exact .component c
    | some m => exact .both c m

theorem spells_render {r : Reference} (h : r.WellFormed) : Spells r.render r :=
  ⟨h, _, place_renderPlace _ _, rfl⟩

theorem WellFormed.exists_first_part {r : Reference} (h : r.WellFormed) :
    ∃ part, Spellable part ∧ part <+: r.render := by
  obtain ⟨version, component, module, family, relative⟩ := r
  unfold render
  dsimp only
  cases version with
  | some v => exact ⟨v, h.version v rfl, by simp [renderPart]⟩
  | none =>
    cases component with
    | some c =>
      refine ⟨c, h.component c rfl, ?_⟩
      cases module <;> simp [renderPart, renderPlace]
    | none =>
      cases module with
      | some m => exact ⟨m, h.module m rfl, by simp [renderPart, renderPlace]⟩
      | none =>
        cases family with
        | some f => exact ⟨f, h.family f rfl, by simp [renderPart, renderPlace]⟩
        | none => exact ⟨relative, h.relative, by simp [renderPart, renderPlace]⟩

theorem not_mem_renderPart {sep d : Char} {part : Option Text} (hp : ∀ p ∈ part, Spellable p)
    (hd : isPartChar d = false) (hne : d ≠ sep) : d ∉ renderPart sep part := by
  cases part with
  | none => exact List.not_mem_nil
  | some p =>
    simp only [renderPart, List.mem_append, List.mem_singleton, not_or]
    exact ⟨(hp p rfl).not_mem hd, hne⟩

theorem Place.not_mem {c m : Option Text} {place : Text} {d : Char} (h : Place c m place)
    (hc : ∀ p ∈ c, Spellable p) (hm : ∀ p ∈ m, Spellable p) (hd : isPartChar d = false)
    (hne : d ≠ ':') : d ∉ place := by
  cases h with
  | both c m => simp [hne, (hc c rfl).not_mem hd, (hm m rfl).not_mem hd]
  | component c => simp [hne, (hc c rfl).not_mem hd]
  | module m => simp [hne, (hm m rfl).not_mem hd]
  | colon => simpa using hne
  | nothing => exact List.not_mem_nil

theorem WellFormed.at_not_mem {r : Reference} {place : Text} (h : r.WellFormed)
    (hplace : Place r.component r.module place) :
    '@' ∉ place ++ (renderPart '$' r.family ++ r.relative) := by
  simp only [List.mem_append, not_or]
  exact ⟨hplace.not_mem h.component h.module rfl (by decide),
    not_mem_renderPart h.family rfl (by decide), h.relative.not_mem rfl⟩

theorem WellFormed.colon_not_mem {r : Reference} (h : r.WellFormed) :
    ':' ∉ renderPart '$' r.family ++ r.relative := by
  simp only [List.mem_append, not_or]
  exact ⟨not_mem_renderPart h.family rfl (by decide), h.relative.not_mem rfl⟩

/-! ### Leading parts -/

theorem leadingPart?_eq_some_iff {sep : Char} {s p rest : Text} (hsep : isPartChar sep = false) :
    leadingPart? sep s = some (p, rest) ↔ Spellable p ∧ s = p ++ sep :: rest := by
  constructor
  · intro h
    unfold leadingPart? at h
    split at h
    · rename_i c part d rest' htake hdrop
      split_ifs at h with hd
      simp only [Option.some.injEq, Prod.mk.injEq] at h
      obtain ⟨rfl, rfl⟩ := h
      refine ⟨⟨List.cons_ne_nil _ _, plain_iff.2 fun x hx => ?_⟩, ?_⟩
      · rw [← htake] at hx
        exact List.mem_takeWhile_imp hx
      · rw [← List.takeWhile_append_dropWhile (p := isPartChar) (l := s), htake, hdrop, hd]
    · exact absurd h (by simp)
  · rintro ⟨⟨hne, hplain⟩, rfl⟩
    -- the separator is no character of a part: the reader stops there
    have hp := plain_iff.1 hplain
    have htake : (p ++ sep :: rest).takeWhile isPartChar = p := by
      rw [List.takeWhile_append_of_pos hp, List.takeWhile_cons_of_neg (by simpa using hsep),
        List.append_nil]
    have hdrop : (p ++ sep :: rest).dropWhile isPartChar = sep :: rest := by
      rw [List.dropWhile_append_of_pos hp, List.dropWhile_cons_of_neg (by simpa using hsep)]
    obtain ⟨c, part, rfl⟩ := List.exists_cons_of_ne_nil hne
    simp only [leadingPart?, htake, hdrop, if_true]

theorem leadingPart?_eq_none {sep : Char} {s : Text} (hsep : isPartChar sep = false) (h : sep ∉ s) :
    leadingPart? sep s = none := by
  rw [Option.eq_none_iff_forall_ne_some]
  rintro ⟨p, rest⟩ hp
  obtain ⟨-, rfl⟩ := (leadingPart?_eq_some_iff hsep).1 hp
  exact h (by simp)

theorem leadingPart?_cons {sep d : Char} {s : Text} (hd : isPartChar d = false) :
    leadingPart? sep (d :: s) = none := by
  unfold leadingPart?
  rw [List.takeWhile_cons_of_neg (by simpa using hd)]

/-! ### Parts that may be left out -/

/-- Nothing is lost, and a part that is found can be spelled out. -/
theorem optionalPart_sound {sep : Char} {s rest : Text} {part : Option Text}
    (hsep : isPartChar sep = false) (h : optionalPart sep s = (part, rest)) :
    (∀ p ∈ part, Spellable p) ∧ s = renderPart sep part ++ rest := by
  unfold optionalPart at h
  split at h
  · rename_i p rest' hp
    obtain ⟨rfl, rfl⟩ := Prod.mk.inj h
    obtain ⟨hspell, rfl⟩ := (leadingPart?_eq_some_iff hsep).1 hp
    exact ⟨by simpa using hspell, by simp [renderPart]⟩
  · obtain ⟨rfl, rfl⟩ := Prod.mk.inj h
    exact ⟨by simp, rfl⟩

/-- A part is found again, and none is found where none is: what follows does not hold its
separator. -/
theorem optionalPart_renderPart {sep : Char} {part : Option Text} {rest : Text}
    (hsep : isPartChar sep = false) (hp : ∀ p ∈ part, Spellable p) (hrest : sep ∉ rest) :
    optionalPart sep (renderPart sep part ++ rest) = (part, rest) := by
  cases part with
  | none =>
    simp only [renderPart, List.nil_append, optionalPart]
    rw [leadingPart?_eq_none hsep hrest]
  | some p =>
    have h : leadingPart? sep (renderPart sep (some p) ++ rest) = some (p, rest) :=
      (leadingPart?_eq_some_iff hsep).2 ⟨hp p rfl, by simp [renderPart]⟩
    rw [optionalPart, h]

theorem optionalPlace_sound {s rest : Text} {c m : Option Text}
    (h : optionalPlace s = (c, m, rest)) :
    (∀ p ∈ c, Spellable p) ∧ (∀ p ∈ m, Spellable p) ∧
      ∃ place, Place c m place ∧ s = place ++ rest := by
  unfold optionalPlace at h
  split at h
  · -- a part and two colons
    rename_i first rest' hfirst
    obtain ⟨rfl, rfl, rfl⟩ : some first = c ∧ none = m ∧ rest' = rest := by simpa using h
    obtain ⟨hspell, rfl⟩ := (leadingPart?_eq_some_iff rfl).1 hfirst
    exact ⟨by simpa using hspell, by simp, _, .component first, by simp⟩
  · rename_i first rest' _ hfirst
    obtain ⟨hspell, rfl⟩ := (leadingPart?_eq_some_iff rfl).1 hfirst
    split at h
    · -- two parts
      rename_i second rest'' hsecond
      obtain ⟨rfl, rfl, rfl⟩ : some first = c ∧ some second = m ∧ rest'' = rest := by simpa using h
      obtain ⟨hspell', rfl⟩ := (leadingPart?_eq_some_iff rfl).1 hsecond
      exact ⟨by simpa using hspell, by simpa using hspell', _, .both first second, by simp⟩
    · -- one part is the module
      obtain ⟨rfl, rfl, rfl⟩ : none = c ∧ some first = m ∧ rest' = rest := by simpa using h
      exact ⟨by simp, by simpa using hspell, _, .module first, by simp⟩
  · split at h
    · rename_i rest' _
      obtain ⟨rfl, rfl, rfl⟩ : none = c ∧ none = m ∧ rest' = rest := by simpa using h
      exact ⟨by simp, by simp, _, .colon, rfl⟩
    · obtain ⟨rfl, rfl, rfl⟩ : none = c ∧ none = m ∧ s = rest := by simpa using h
      exact ⟨by simp, by simp, _, .nothing, rfl⟩

/-- A component and a module are found again, and nothing else is: no colon follows them. -/
theorem optionalPlace_append {c m : Option Text} {place rest : Text} (h : Place c m place)
    (hc : ∀ p ∈ c, Spellable p) (hm : ∀ p ∈ m, Spellable p) (hrest : ':' ∉ rest) :
    optionalPlace (place ++ rest) = (c, m, rest) := by
  have hnone := leadingPart?_eq_none rfl hrest
  have hlead {p t : Text} (hp : Spellable p) : leadingPart? ':' (p ++ ':' :: t) = some (p, t) :=
    (leadingPart?_eq_some_iff rfl).2 ⟨hp, rfl⟩
  have hhead {t : Text} : rest ≠ ':' :: t := by
    rintro rfl
    exact hrest List.mem_cons_self
  cases h with
  | both c m =>
    obtain ⟨hne, hplain⟩ := hm m rfl
    -- the module has a first character, so that the component is not followed by two colons
    obtain ⟨x, m, rfl⟩ := List.exists_cons_of_ne_nil hne
    have hx : x ≠ ':' := fun hx => hplain.2.1 (hx ▸ List.mem_cons_self)
    have hsecond := hlead (t := rest) (hm (x :: m) rfl)
    rw [List.cons_append] at hsecond
    unfold optionalPlace
    rw [List.append_assoc, List.append_assoc, List.cons_append, hlead (hc c rfl)]
    simp [hx, hsecond]
  | component c =>
    unfold optionalPlace
    rw [List.append_assoc, List.cons_append, hlead (hc c rfl)]
    rfl
  | module m =>
    unfold optionalPlace
    rw [List.append_assoc, List.cons_append, List.nil_append, hlead (hm m rfl)]
    -- neither a colon nor a part with one follows
    split
    · rename_i first rest' h
      exact absurd (Prod.mk.inj (Option.some.inj h)).2 hhead
    · rename_i first rest' _ h
      obtain ⟨rfl, rfl⟩ := Prod.mk.inj (Option.some.inj h)
      rw [hnone]
    · rename_i h
      cases h
  | colon =>
    unfold optionalPlace
    rw [List.cons_append, leadingPart?_cons rfl]
    rfl
  | nothing =>
    unfold optionalPlace
    rw [List.nil_append, hnone]
    dsimp only
    split
    · exact absurd rfl hhead
    · rfl

/-! ### The reader -/

theorem spells_of_parse? {s : Text} {r : Reference} (h : parse? s = some r) : Spells s r := by
  unfold parse? at h
  rcases hv : optionalPart '@' s with ⟨version, s₁⟩
  rcases hp : optionalPlace s₁ with ⟨component, module, s₂⟩
  rcases hf : optionalPart '$' s₂ with ⟨family, s₃⟩
  simp only [hv, hp, hf] at h
  split_ifs at h with hrel
  obtain rfl := Option.some.inj h
  -- put the text together again from its end
  obtain ⟨hversion, rfl⟩ := optionalPart_sound rfl hv
  obtain ⟨hcomponent, hmodule, place, hplace, rfl⟩ := optionalPlace_sound hp
  obtain ⟨hfamily, rfl⟩ := optionalPart_sound rfl hf
  exact ⟨⟨hversion, hcomponent, hmodule, hfamily, isPart_iff.1 hrel⟩, place, hplace,
    by simp [List.append_assoc]⟩

theorem parse?_of_spells {s : Text} {r : Reference} (h : Spells s r) : parse? s = some r := by
  obtain ⟨hr, place, hplace, rfl⟩ := h
  have hdollar : '$' ∉ r.relative := hr.relative.not_mem rfl
  rw [parse?, List.append_assoc, List.append_assoc,
    optionalPart_renderPart rfl hr.version (hr.at_not_mem hplace)]
  simp only [optionalPlace_append hplace hr.component hr.module hr.colon_not_mem,
    optionalPart_renderPart rfl hr.family hdollar]
  rw [if_pos (isPart_iff.2 hr.relative)]

/-- **The reader decides the grammar.** -/
theorem parse?_eq_some_iff {s : Text} {r : Reference} : parse? s = some r ↔ Spells s r :=
  ⟨spells_of_parse?, parse?_of_spells⟩

theorem Spells.unique {s : Text} {r r' : Reference} (h : Spells s r) (h' : Spells s r') :
    r = r' :=
  Option.some.inj ((parse?_of_spells h).symm.trans (parse?_of_spells h'))

theorem parse?_render_iff {r : Reference} : parse? r.render = some r ↔ r.WellFormed :=
  ⟨fun h => (spells_of_parse? h).wellFormed, fun h => parse?_of_spells (spells_render h)⟩

theorem parse?_eq_none_iff {s : Text} : parse? s = none ↔ ¬ ∃ r, Spells s r := by
  simp only [Option.eq_none_iff_forall_ne_some, ne_eq, parse?_eq_some_iff, not_exists]

example : parse? "::x".toList = none := by decide

/-- **The reader accepts exactly the grammar, and the grammar is unambiguous.** A text is read as
the parts that it spells out; a text that spells anything spells one reference alone; what is
rendered is read back if its parts are well formed; and every other text is refused. -/
theorem parse?_decides_grammar (s : Text) (r : Reference) :
    (parse? s = some r ↔ Spells s r) ∧
      ((∃ q, Spells s q) ↔ ∃! q, Spells s q) ∧
      (parse? r.render = some r ↔ r.WellFormed) ∧
      (parse? s = none ↔ ¬ ∃ q, Spells s q) := by
  refine ⟨parse?_eq_some_iff, ⟨?_, ?_⟩, parse?_render_iff, parse?_eq_none_iff⟩
  · rintro ⟨q, hq⟩
    exact ⟨q, hq, fun q' hq' => hq'.unique hq⟩
  · rintro ⟨q, hq, -⟩
    exact ⟨q, hq⟩

end Reference

end DocSite
