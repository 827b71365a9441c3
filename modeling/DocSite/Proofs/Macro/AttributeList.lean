import DocSite.Macro.Attributes
import DocSite.Proofs.Text.Splitting
import DocSite.Proofs.Text.Words
import Mathlib.Data.List.Infix

/-!
# Attribute lists, written and read

A list is written with every value in double quotes (`Attributes.write`). Within them nothing has a
meaning but the closing quote: no comma separates slots, no equals sign ends a name, and white space
at the ends of a value is part of it.

* `Attribute.slots_join` : the slots of a written list are the attributes as they are written.
* `Attribute.ofSlot_write` : an attribute is read from its slot.
* `Attributes.read_write` : a list is read as it was written.
-/

namespace DocSite

namespace Attribute

/-! ### Writing -/

/-- A value in double quotes. -/
def quoted (value : Text) : Text := '"' :: (value ++ ['"'])

/-- An attribute as it is written: a missing value as an empty one, and the name before the
value. -/
def write (a : Attribute) : Text :=
  match a.key with
  | .slot _ => quoted (a.value?.getD [])
  | .name key => key ++ '=' :: quoted (a.value?.getD [])

/-- A value that can be written between double quotes in brackets: it has no double quote, and no
closing bracket right after a backslash. -/
structure Quotable (value : Text) : Prop where
  quote_not_mem : '"' ∉ value
  not_isInfix : ¬ ['\\', ']'] <:+: value

/-- An attribute that can be written in the slot with number `n`: it is known by that number and has
a value that is not empty, or none; or it is known by a name, and has a value. -/
inductive Writable (n : Nat) : Attribute → Prop
  | slot {value? : Option Text} (h : ∀ value ∈ value?, value ≠ [] ∧ Quotable value) :
      Writable n ⟨.slot n, value?⟩
  | name {key value : Text} (hkey : isName key = true) (hvalue : Quotable value) :
      Writable n ⟨.name key, some value⟩

theorem quotable_nil : Quotable [] := ⟨List.not_mem_nil, by simp⟩

/-! ### Names -/

theorem mem_of_isName {key : Text} (h : isName key = true) {c : Char} (hc : c ∈ key) :
    Text.isAlphanumeric c = true ∨ c = '_' ∨ c = '-' := by
  cases key with
  | nil => cases hc
  | cons d rest =>
    simp only [isName, Bool.and_eq_true, Bool.or_eq_true, decide_eq_true_eq, List.all_eq_true] at h
    obtain ⟨hfirst, hrest⟩ := h
    rcases List.mem_cons.1 hc with rfl | hc
    · rcases hfirst with hletter | rfl
      · exact .inl (Text.isAlphanumeric_of_isLetter hletter)
      · exact .inr (.inl rfl)
    · rcases hrest c hc with (hword | hunder) | hhyphen
      · exact .inl hword
      · exact .inr (.inl hunder)
      · exact .inr (.inr hhyphen)

theorem not_mem_of_isName {key : Text} (h : isName key = true) {c : Char}
    (hword : Text.isAlphanumeric c = false) (hunder : c ≠ '_') (hhyphen : c ≠ '-') : c ∉ key := by
  intro hc
  rcases mem_of_isName h hc with hc | hc | hc
  · rw [hword] at hc
    cases hc
  · exact hunder hc
  · exact hhyphen hc

theorem isBlankChar_of_isName {key : Text} (h : isName key = true) {c : Char} (hc : c ∈ key) :
    Text.isBlankChar c = false := by
  rcases mem_of_isName h hc with hc | rfl | rfl
  · exact Text.isBlankChar_of_isAlphanumeric hc
  · decide
  · decide

theorem trim_of_isName {key : Text} (h : isName key = true) : key.trim = key :=
  Text.trim_eq_self (fun _ hc => isBlankChar_of_isName h (List.mem_of_mem_head? hc))
    fun _ hc => isBlankChar_of_isName h (List.mem_of_getLast? hc)

theorem not_mem_name_equals {key : Text} (h : isName key = true) {c : Char}
    (hword : Text.isAlphanumeric c = false) (hrest : c ∉ ['_', '-', '=']) : c ∉ key ++ ['='] := by
  simp only [List.mem_cons, List.not_mem_nil, or_false, not_or] at hrest
  rw [List.mem_append, List.mem_singleton, not_or]
  exact ⟨not_mem_of_isName h hword hrest.1 hrest.2.1, hrest.2.2⟩

theorem write_name (key value : Text) :
    write ⟨.name key, some value⟩ = (key ++ ['=']) ++ quoted value := by
  simp [write]

/-! ### Slots -/

theorem onFirst_foldr (s first : Text) (rest : List Text) :
    s.foldr onFirst (first :: rest) = (s ++ first) :: rest := by
  induction s with
  | nil => rfl
  | cons c s ih => rw [List.foldr_cons, ih, onFirst, List.cons_append]

theorem slotsFrom_append_of_forall {s : Text} (h : ∀ c ∈ s, c ≠ ',' ∧ isQuote c = false)
    (rest : Text) : slotsFrom none (s ++ rest) = s.foldr onFirst (slotsFrom none rest) := by
  induction s with
  | nil => rfl
  | cons c s ih =>
    obtain ⟨⟨hcomma, hquote⟩, hs⟩ := List.forall_mem_cons.1 h
    rw [List.cons_append, slotsFrom, if_neg hcomma, hquote, List.foldr_cons, ← ih hs]
    rfl

theorem slotsFrom_quote_append {q : Char} {value : Text} (h : q ∉ value) (rest : Text) :
    slotsFrom (some q) (value ++ q :: rest) =
      (value ++ [q]).foldr onFirst (slotsFrom none rest) := by
  induction value with
  | nil => simp [slotsFrom]
  | cons c value ih =>
    have hc : c ≠ q := fun hc => h (by simp [hc])
    have hvalue : q ∉ value := fun hmem => h (List.mem_cons_of_mem _ hmem)
    rw [List.cons_append, slotsFrom, if_neg hc, ih hvalue, List.cons_append, List.foldr_cons]

theorem slotsFrom_quoted_append {value : Text} (h : '"' ∉ value) (rest : Text) :
    slotsFrom none (quoted value ++ rest) = (quoted value).foldr onFirst (slotsFrom none rest) := by
  have hopen : slotsFrom none (quoted value ++ rest) =
      onFirst '"' (slotsFrom (some '"') (value ++ '"' :: rest)) := by
    simp [quoted, slotsFrom, isQuote]
  rw [hopen, slotsFrom_quote_append h, quoted, List.foldr_cons]

theorem slotsFrom_write_append {n : Nat} {a : Attribute} (h : Writable n a) (rest : Text) :
    slotsFrom none (a.write ++ rest) = a.write.foldr onFirst (slotsFrom none rest) := by
  cases h with
  | @slot value? h =>
    cases value? with
    | none => exact slotsFrom_quoted_append List.not_mem_nil rest
    | some value => exact slotsFrom_quoted_append (h value rfl).2.quote_not_mem rest
  | @name key value hkey hvalue =>
    have hplain : ∀ c ∈ key ++ ['='], c ≠ ',' ∧ isQuote c = false := by
      intro c hc
      have hne : ∀ d, Text.isAlphanumeric d = false → d ∉ ['_', '-', '='] → c ≠ d := by
        rintro d hword hrest rfl
        exact not_mem_name_equals hkey hword hrest hc
      have hdouble : c ≠ '"' := hne '"' (by decide) (by decide)
      have hsingle : c ≠ '\'' := hne '\'' (by decide) (by decide)
      exact ⟨hne ',' (by decide) (by decide), by simp [isQuote, hdouble, hsingle]⟩
    rw [write_name, List.append_assoc, slotsFrom_append_of_forall hplain,
      slotsFrom_quoted_append hvalue.quote_not_mem]
    exact List.foldr_append.symm

/-- **The slots of a written list** are the attributes as they are written. -/
theorem slots_join {as : List Attribute} (hne : as ≠ []) (h : ∀ a ∈ as, ∃ n, Writable n a) :
    slots (Text.join [','] (as.map write)) = as.map write := by
  induction as with
  | nil => exact absurd rfl hne
  | cons a as ih =>
    obtain ⟨⟨n, ha⟩, has⟩ := List.forall_mem_cons.1 h
    cases as with
    | nil =>
      have hslots : slots (a.write ++ []) = a.write.foldr onFirst [[]] :=
        slotsFrom_write_append ha []
      rw [onFirst_foldr, List.append_nil] at hslots
      rw [List.map_singleton, Text.join_singleton, hslots]
    | cons b as =>
      -- the comma ends the slot, and after it the rest of the list is read by itself
      have hcomma : slotsFrom none ([','] ++ Text.join [','] ((b :: as).map write)) =
          [] :: slots (Text.join [','] ((b :: as).map write)) := rfl
      rw [List.map_cons, List.map_cons, Text.join_cons_cons, ← List.map_cons, slots,
        slotsFrom_write_append ha, hcomma, ih (List.cons_ne_nil _ _) has, onFirst_foldr,
        List.append_nil]

/-! ### Attributes -/

theorem unquote_quoted (value : Text) : unquote (quoted value) = value := by
  have hlast : (value ++ ['"']).getLast? = some '"' := List.getLast?_concat
  rw [unquote, quoted, between?, if_pos ⟨rfl, hlast⟩, List.dropLast_concat]
  rfl

theorem trim_quoted (value : Text) : (quoted value).trim = quoted value := by
  refine Text.trim_eq_self (fun c hc => ?_) fun c hc => ?_
  · obtain rfl : '"' = c := Option.some.inj hc
    decide
  · have hlast : (quoted value).getLast? = some '"' := by
      rw [quoted, ← List.cons_append, List.getLast?_concat]
    rw [hlast] at hc
    obtain rfl : '"' = c := Option.some.inj hc
    decide

/-- What stands before an equals sign in a value is no name: it starts with a quote. -/
theorem named?_quoted (value : Text) : named? (quoted value) = none := by
  unfold named?
  split
  · rename_i key rest hsplit
    have hquote : '"' ∈ key := by
      rw [quoted, Text.splitFirst?, if_neg (by decide)] at hsplit
      obtain ⟨⟨a, b⟩, -, heq⟩ := Option.map_eq_some_iff.1 hsplit
      obtain ⟨rfl, -⟩ := Prod.mk.inj heq
      exact List.mem_cons_self
    rw [if_neg]
    intro hname
    exact not_mem_of_isName hname (by decide) (by decide) (by decide)
      (Text.mem_trim (by decide) hquote)
  · rfl

theorem ofSlot_quoted (n : Nat) (value : Text) :
    ofSlot n (quoted value) = ⟨.slot n, if value = [] then none else some value⟩ := by
  rw [ofSlot, trim_quoted, named?_quoted, unquote_quoted]

theorem ofSlot_name {key : Text} (hkey : isName key = true) (n : Nat) (value : Text) :
    ofSlot n (key ++ '=' :: quoted value) = ⟨.name key, some value⟩ := by
  have hequals : '=' ∉ key := not_mem_of_isName hkey (by decide) (by decide) (by decide)
  have htrim : Text.trim (key ++ '=' :: quoted value) = key ++ '=' :: quoted value := by
    refine Text.trim_eq_self (fun c hc => ?_) fun c hc => ?_
    · cases key with
      | nil => cases hkey
      | cons d key =>
        obtain rfl : d = c := Option.some.inj hc
        exact isBlankChar_of_isName hkey List.mem_cons_self
    · have hlast : (key ++ '=' :: quoted value).getLast? = some '"' := by
        have hends : key ++ '=' :: quoted value = (key ++ '=' :: '"' :: value) ++ ['"'] := by
          simp [quoted]
        rw [hends, List.getLast?_concat]
      rw [hlast] at hc
      obtain rfl : '"' = c := Option.some.inj hc
      decide
  have hnamed : named? (key ++ '=' :: quoted value) = some (key, value) := by
    unfold named?
    rw [Text.splitFirst?_append hequals]
    simp only [trim_of_isName hkey, hkey, if_true, trim_quoted, unquote_quoted]
  rw [ofSlot, htrim, hnamed]

/-- **An attribute is read from its slot** as it was written. -/
theorem ofSlot_write {n : Nat} {a : Attribute} (h : Writable n a) : ofSlot n a.write = a := by
  cases h with
  | @slot value? h =>
    cases value? with
    | none => exact ofSlot_quoted n []
    | some value =>
      have hvalue : value ≠ [] := (h value rfl).1
      have hread := ofSlot_quoted n value
      rw [if_neg hvalue] at hread
      exact hread
  | name hkey _ => exact ofSlot_name hkey n _

end Attribute

namespace Attributes

/-- A list as it is written, without the brackets. -/
def write (as : Attributes) : Text := Text.join [','] (as.map Attribute.write)

/-- A list that can be written: each of its attributes in its slot. -/
def Writable (as : Attributes) : Prop :=
  ∀ (n : Nat) (a : Attribute), as[n]? = some a → a.Writable (n + 1)

theorem Writable.exists_of_mem {as : Attributes} (h : as.Writable) {a : Attribute} (ha : a ∈ as) :
    ∃ n, a.Writable n := by
  obtain ⟨n, hn⟩ := List.mem_iff_getElem?.1 ha
  exact ⟨n + 1, h n a hn⟩

theorem quote_mem_write (a : Attribute) : '"' ∈ a.write := by
  unfold Attribute.write Attribute.quoted
  cases a.key <;> simp

theorem isBlank_write {as : Attributes} (hne : as ≠ []) : Text.isBlank as.write = false := by
  have hmem : '"' ∈ as.write := by
    obtain ⟨a, as, rfl⟩ := List.exists_cons_of_ne_nil hne
    cases as with
    | nil => simpa [write] using quote_mem_write a
    | cons b as => simp [write, quote_mem_write a]
  rw [Text.isBlank, List.all_eq_false]
  exact ⟨'"', hmem, by decide⟩

/-- **A list is read as it was written.** -/
theorem read_write {as : Attributes} (h : as.Writable) : read as.write = as := by
  by_cases hne : as = []
  · rw [hne]
    rfl
  · have hread : ∀ slot ∈ as.zipIdx, Attribute.ofSlot (slot.2 + 1) slot.1.write = slot.1 := by
      intro slot hslot
      have hget := List.mem_zipIdx_iff_getElem?.1 hslot
      exact Attribute.ofSlot_write (h slot.2 slot.1 hget)
    rw [read, isBlank_write hne, write,
      Attribute.slots_join hne fun a ha => h.exists_of_mem ha, List.zipIdx_map, List.map_map]
    exact (List.map_congr_left hread).trans (List.zipIdx_map_fst 0 as)

theorem read_plain {s : Text} (hne : s ≠ []) (htrim : s.trim = s)
    (h : ∀ c ∈ s, c ≠ ',' ∧ Attribute.isQuote c = false) (hequals : '=' ∉ s) :
    read s = [⟨.slot 1, some s⟩] := by
  have hslots : Attribute.slots s = [s] := by
    have hs := Attribute.slotsFrom_append_of_forall h []
    rw [List.append_nil, Attribute.slotsFrom, Attribute.onFirst_foldr, List.append_nil] at hs
    exact hs
  have hnamed : Attribute.named? s = none := by
    rw [Attribute.named?, Text.splitFirst?_eq_none hequals]
  have hbetween : ∀ q, Attribute.isQuote q = true → Attribute.between? q s = none := by
    intro q hq
    obtain ⟨c, rest, rfl⟩ := List.exists_cons_of_ne_nil hne
    have hc := (h c List.mem_cons_self).2
    refine if_neg fun hquote => ?_
    rw [hquote.1, hq] at hc
    cases hc
  have hslot : Attribute.ofSlot 1 s = ⟨.slot 1, some s⟩ := by
    rw [Attribute.ofSlot, htrim, hnamed, Attribute.unquote, hbetween _ rfl, hbetween _ rfl]
    simp [hne]
  rw [read, Text.isBlank_eq_false hne htrim, hslots]
  exact congrArg (fun a => [a]) hslot

end Attributes

end DocSite
