import DocSite.Proofs.Macro.AttributeList

/-!
# Slots of attribute lists

A list is cut at the commas outside of quotes, and nothing else is taken from it
(`join_slotsFrom`). Which commas these are is said without the reader
(`Attribute.CommasOutside`): what a quote opens goes on to the same quote, whatever other quotes
there are in between, or to the end of the text.

Named slots count as well. So a slot without a name is known by its place in the list, and its
number is that of no other slot, whether the slots before it have names or are empty.

* `Attribute.commasOutside_iff` : there is one slot more than commas outside of quotes.
* `Attribute.IsNamed`, `Attribute.key_ofSlot` : which slots have a name.
* `Attributes.slot?_read_eq_some_iff` : a number finds the slot that it is the number of.
* `Attributes.slots_are_kept_and_numbered` : splitting loses nothing, and slots keep their numbers.
-/

namespace DocSite

namespace Attribute

variable {s : Text} {n : Nat}

/-- A text has so many commas outside of quotes. What a quote opens goes on to the same quote, or to
the end of the text. -/
inductive CommasOutside : Text → Nat → Prop
  | nil : CommasOutside [] 0
  | comma {s : Text} {n : Nat} (h : CommasOutside s n) : CommasOutside (',' :: s) (n + 1)
  | plain {c : Char} {s : Text} {n : Nat} (hcomma : c ≠ ',') (hquote : c ∉ ['"', '\''])
    (h : CommasOutside s n) : CommasOutside (c :: s) n
  | quoted {q : Char} {inner s : Text} {n : Nat} (hquote : q ∈ ['"', '\'']) (hinner : q ∉ inner)
    (h : CommasOutside s n) : CommasOutside (q :: inner ++ q :: s) n
  | unclosed {q : Char} {inner : Text} (hquote : q ∈ ['"', '\'']) (hinner : q ∉ inner) :
    CommasOutside (q :: inner) 0

theorem isQuote_iff {c : Char} : isQuote c = true ↔ c ∈ ['"', '\''] := by
  simp [isQuote]

/-! ### Nothing is lost -/

theorem onFirst_ne_nil (c : Char) (parts : List Text) : onFirst c parts ≠ [] := by
  cases parts <;> exact List.cons_ne_nil _ _

theorem slotsFrom_ne_nil (quote : Option Char) (s : Text) : slotsFrom quote s ≠ [] := by
  cases s with
  | nil => cases quote <;> exact List.cons_ne_nil _ _
  | cons c s =>
    cases quote with
    | none =>
      rw [slotsFrom]
      split_ifs
      · exact List.cons_ne_nil _ _
      · exact onFirst_ne_nil _ _
      · exact onFirst_ne_nil _ _
    | some q => exact onFirst_ne_nil _ _

theorem slots_ne_nil (s : Text) : slots s ≠ [] := slotsFrom_ne_nil none s

theorem join_onFirst (c : Char) {parts : List Text} (h : parts ≠ []) :
    Text.join [','] (onFirst c parts) = c :: Text.join [','] parts := by
  cases parts with
  | nil => exact absurd rfl h
  | cons part parts => cases parts <;> simp [onFirst]

theorem join_nil_cons {parts : List Text} (h : parts ≠ []) :
    Text.join [','] ([] :: parts) = ',' :: Text.join [','] parts := by
  cases parts with
  | nil => exact absurd rfl h
  | cons part parts => exact Text.join_cons_cons _ _ _ _

theorem join_slotsFrom (quote : Option Char) (s : Text) :
    Text.join [','] (slotsFrom quote s) = s := by
  induction s generalizing quote with
  | nil => cases quote <;> rfl
  | cons c s ih =>
    cases quote with
    | none =>
      rw [slotsFrom]
      split_ifs with hcomma
      · rw [join_nil_cons (slotsFrom_ne_nil _ _), ih, hcomma]
      · rw [join_onFirst _ (slotsFrom_ne_nil _ _), ih]
      · rw [join_onFirst _ (slotsFrom_ne_nil _ _), ih]
    | some q => rw [slotsFrom, join_onFirst _ (slotsFrom_ne_nil _ _), ih]

/-! ### One slot more than commas -/

theorem length_foldr_onFirst (s : Text) {parts : List Text} (h : parts ≠ []) :
    (s.foldr onFirst parts).length = parts.length := by
  obtain ⟨part, parts, rfl⟩ := List.exists_cons_of_ne_nil h
  rw [onFirst_foldr]
  rfl

theorem slotsFrom_unclosed {q : Char} {inner : Text} (h : q ∉ inner) :
    slotsFrom (some q) inner = inner.foldr onFirst [[]] := by
  induction inner with
  | nil => rfl
  | cons c inner ih =>
    have hc : c ≠ q := fun hc => h (by simp [hc])
    have hinner : q ∉ inner := fun hmem => h (List.mem_cons_of_mem _ hmem)
    rw [slotsFrom, if_neg hc, ih hinner, List.foldr_cons]

theorem slots_quote {q : Char} (hquote : q ∈ ['"', '\'']) (s : Text) :
    slots (q :: s) = onFirst q (slotsFrom (some q) s) := by
  have hcomma : q ≠ ',' := by
    rintro rfl
    revert hquote
    decide
  rw [slots, slotsFrom, if_neg hcomma, isQuote_iff.2 hquote, if_pos rfl]

theorem CommasOutside.length_slots (h : CommasOutside s n) : (slots s).length = n + 1 := by
  induction h with
  | nil => rfl
  | comma _ ih => exact congrArg (· + 1) ih
  | @plain c s n hcomma hquote _ ih =>
    have hplain : isQuote c = false := Bool.eq_false_iff.2 fun h => hquote (isQuote_iff.1 h)
    have hslots : slots (c :: s) = [c].foldr onFirst (slots s) := by
      rw [slots, slotsFrom, if_neg hcomma, hplain]
      rfl
    rw [hslots, length_foldr_onFirst [c] (slots_ne_nil s), ih]
  | @quoted q inner s n hquote hinner _ ih =>
    have hslots : slots (q :: inner ++ q :: s) = (q :: (inner ++ [q])).foldr onFirst (slots s) := by
      rw [List.cons_append, slots_quote hquote, slotsFrom_quote_append hinner]
      rfl
    rw [hslots, length_foldr_onFirst _ (slots_ne_nil s), ih]
  | @unclosed q inner hquote hinner =>
    have hslots : slots (q :: inner) = (q :: inner).foldr onFirst [[]] := by
      rw [slots_quote hquote, slotsFrom_unclosed hinner]
      rfl
    rw [hslots, length_foldr_onFirst _ (List.cons_ne_nil _ _)]
    rfl

theorem exists_commasOutside (s : Text) : ∃ n, CommasOutside s n := by
  -- on the length, since what a quote opens is cut off at once
  induction hs : s.length using Nat.strongRecOn generalizing s with
  | ind length ih =>
    cases s with
    | nil => exact ⟨0, .nil⟩
    | cons c s =>
      have hrest : ∀ rest : Text, rest.length ≤ s.length → ∃ n, CommasOutside rest n :=
        fun rest hle => ih rest.length (by rw [← hs, List.length_cons]; omega) rest rfl
      by_cases hcomma : c = ','
      · obtain ⟨n, hn⟩ := hrest s (Nat.le_refl _)
        exact ⟨n + 1, hcomma ▸ .comma hn⟩
      by_cases hquote : c ∈ ['"', '\'']
      · by_cases hmem : c ∈ s
        · obtain ⟨inner, rest, rfl, hinner⟩ := List.eq_append_cons_of_mem hmem
          obtain ⟨n, hn⟩ := hrest rest (by simp only [List.length_append, List.length_cons]; omega)
          exact ⟨n, .quoted hquote hinner hn⟩
        · exact ⟨0, .unclosed hquote hmem⟩
      · obtain ⟨n, hn⟩ := hrest s (Nat.le_refl _)
        exact ⟨n, .plain hcomma hquote hn⟩

/-- **There is one slot more than commas outside of quotes.** -/
theorem commasOutside_iff : CommasOutside s n ↔ (slots s).length = n + 1 := by
  refine ⟨CommasOutside.length_slots, fun h => ?_⟩
  obtain ⟨m, hm⟩ := exists_commasOutside s
  obtain rfl : m = n := Nat.succ.inj (hm.length_slots.symm.trans h)
  exact hm

/-! ### Named slots -/

/-- A slot has a name: what stands before its first equals sign is one. -/
def IsNamed (slot : Text) : Prop :=
  ∃ key value : Text, slot.trim = key ++ '=' :: value ∧ '=' ∉ key ∧ isName key.trim = true

theorem isSome_named?_iff {slot : Text} : (named? slot.trim).isSome = true ↔ IsNamed slot := by
  rw [Option.isSome_iff_exists]
  constructor
  · rintro ⟨entry, h⟩
    unfold named? at h
    split at h
    · rename_i key value hcut
      split_ifs at h with hname
      obtain ⟨hslot, hequals⟩ := Text.splitFirst?_eq_some_iff.1 hcut
      exact ⟨key, value, hslot, hequals, hname⟩
    · cases h
  · rintro ⟨key, value, hslot, hequals, hname⟩
    refine ⟨(key.trim, unquote value.trim), ?_⟩
    rw [named?, Text.splitFirst?_eq_some_iff.2 ⟨hslot, hequals⟩]
    exact if_pos hname

/-- The attribute of a slot has its name, or its number. -/
theorem key_ofSlot (n : Nat) (slot : Text) :
    (IsNamed slot → ∃ key, (ofSlot n slot).key = .name key) ∧
      (¬ IsNamed slot → (ofSlot n slot).key = .slot n) := by
  rw [← isSome_named?_iff, ofSlot]
  cases named? slot.trim with
  | none => exact ⟨fun h => absurd h Bool.false_ne_true, fun _ => rfl⟩
  | some entry => exact ⟨fun _ => ⟨entry.1, rfl⟩, fun h => absurd rfl h⟩

theorem eq_of_key_ofSlot {slot : Text} {m : Nat} (h : (ofSlot n slot).key = .slot m) : n = m := by
  obtain ⟨hnamed, hnumbered⟩ := key_ofSlot n slot
  by_cases hslot : IsNamed slot
  · obtain ⟨key, hkey⟩ := hnamed hslot
    rw [hkey] at h
    cases h
  · rw [hnumbered hslot] at h
    exact Key.slot.inj h

end Attribute

namespace Attributes

open Attribute

variable {list : Text} {i j n : Nat} {a b : Attribute}

/-! ### Lists, read -/

theorem read_of_isBlank (h : Text.isBlank list = true) : read list = [] := if_pos h

theorem getElem?_read (h : Text.isBlank list = false) (i : Nat) :
    (read list)[i]? = (slots list)[i]?.map (ofSlot (i + 1)) := by
  rw [read, if_neg (ne_true_of_eq_false h), List.getElem?_map, List.getElem?_zipIdx, Option.map_map]
  simp only [Nat.zero_add, Function.comp_def]

theorem length_read (h : Text.isBlank list = false) : (read list).length = (slots list).length := by
  rw [read, if_neg (ne_true_of_eq_false h), List.length_map, List.length_zipIdx]

theorem eq_of_key_read (ha : (read list)[i]? = some a) (hkey : a.key = .slot n) : n = i + 1 := by
  by_cases hblank : Text.isBlank list = true
  · rw [read_of_isBlank hblank] at ha
    cases ha
  · rw [getElem?_read (Bool.eq_false_iff.2 hblank)] at ha
    obtain ⟨slot, -, rfl⟩ := Option.map_eq_some_iff.1 ha
    exact (eq_of_key_ofSlot hkey).symm

theorem eq_of_key_eq (ha : (read list)[i]? = some a) (hb : (read list)[j]? = some b)
    (hkey : a.key = .slot n) (hkey' : b.key = .slot n) : i = j :=
  Nat.succ.inj ((eq_of_key_read ha hkey).symm.trans (eq_of_key_read hb hkey'))

theorem exists_getElem?_of_find? {as : Attributes} {key : Key}
    (h : List.find? (fun a => a.key = key) as = some a) :
    a.key = key ∧ ∃ i : Nat, as[i]? = some a :=
  ⟨by simpa using List.find?_some h, List.mem_iff_getElem?.1 (List.mem_of_find?_eq_some h)⟩

/-- **A number finds the slot that it is the number of**, if the slot has no name. -/
theorem slot?_read_eq_some_iff {value? : Option Text} :
    slot? (read list) n = some value? ↔ ∃ i : Nat, (read list)[i]? = some ⟨.slot n, value?⟩ := by
  rw [slot?, find?, Option.map_eq_some_iff]
  constructor
  · rintro ⟨a, ha, rfl⟩
    obtain ⟨hkey, i, hi⟩ := exists_getElem?_of_find? ha
    exact ⟨i, by rw [hi, ← hkey]⟩
  · rintro ⟨i, hi⟩
    have hfound : (List.find? (fun a => decide (a.key = .slot n)) (read list)).isSome = true :=
      List.find?_isSome.2 ⟨_, List.mem_of_getElem? hi, decide_eq_true rfl⟩
    obtain ⟨a, ha⟩ := Option.isSome_iff_exists.1 hfound
    obtain ⟨hkey, j, hj⟩ := exists_getElem?_of_find? ha
    rw [eq_of_key_eq hj hi hkey rfl, hi] at hj
    exact ⟨a, ha, by rw [← Option.some.inj hj]⟩

theorem slot?_read_of_getElem? (ha : (read list)[i]? = some a) :
    (a.key = .slot (i + 1) → slot? (read list) (i + 1) = some a.value?) ∧
      (a.key ≠ .slot (i + 1) → slot? (read list) (i + 1) = none) := by
  constructor
  · intro hkey
    exact slot?_read_eq_some_iff.2 ⟨i, by rw [ha, ← hkey]⟩
  · intro hkey
    refine Option.eq_none_iff_forall_ne_some.2 fun value? hvalue => ?_
    obtain ⟨j, hj⟩ := slot?_read_eq_some_iff.1 hvalue
    obtain rfl : i = j := Nat.succ.inj (eq_of_key_read hj rfl)
    rw [ha] at hj
    exact hkey (by rw [Option.some.inj hj])

/-- **Splitting loses nothing, and slots keep their numbers.** The slots of a list joined with
commas are the list again, and there is one more of them than commas outside of quotes. A blank list
has no attributes, any other has one for each slot in order. The attribute of a slot is known by its
name, and then the number of the slot finds nothing; or by the number of the slot, which finds it.
No two attributes share a number. -/
theorem slots_are_kept_and_numbered (list : Text) :
    Text.join [','] (slots list) = list ∧
    (∀ n, CommasOutside list n ↔ (slots list).length = n + 1) ∧
    (Text.isBlank list = true → read list = []) ∧
    (Text.isBlank list = false →
      (read list).length = (slots list).length ∧
      ∀ (i : Nat) (slot : Text), (slots list)[i]? = some slot →
        (read list)[i]? = some (ofSlot (i + 1) slot) ∧
          (IsNamed slot →
            (∃ key, (ofSlot (i + 1) slot).key = .name key) ∧
              slot? (read list) (i + 1) = none) ∧
          (¬ IsNamed slot →
            (ofSlot (i + 1) slot).key = .slot (i + 1) ∧
              slot? (read list) (i + 1) = some (ofSlot (i + 1) slot).value?)) ∧
    ∀ (i j n : Nat) (a b : Attribute), (read list)[i]? = some a → (read list)[j]? = some b →
      a.key = .slot n → b.key = .slot n → i = j := by
  refine ⟨join_slotsFrom none list, fun n => commasOutside_iff, read_of_isBlank, fun h =>
    ⟨length_read h, fun i slot hslot => ?_⟩, fun _ _ _ _ _ => eq_of_key_eq⟩
  have ha : (read list)[i]? = some (ofSlot (i + 1) slot) := by
    rw [getElem?_read h, hslot]
    rfl
  obtain ⟨hnamed, hnumbered⟩ := key_ofSlot (i + 1) slot
  obtain ⟨hfound, hmissing⟩ := slot?_read_of_getElem? ha
  refine ⟨ha, fun hslot => ?_, fun hslot => ⟨hnumbered hslot, hfound (hnumbered hslot)⟩⟩
  obtain ⟨key, hkey⟩ := hnamed hslot
  exact ⟨⟨key, hkey⟩, hmissing (by rw [hkey]; nofun)⟩

/-- A quote within another one, an empty slot, a slot with a name, and an unclosed quote. -/
theorem slots_are_kept_and_numbered_quotes :
    let list : Text := "\"a, 'b\",,k = \"c,d\", 'e, f".toList
    CommasOutside list 3 ∧ Text.isBlank list = false ∧
      (slots list)[2]? = some "k = \"c,d\"".toList ∧
      (read list)[2]? = some ⟨.name "k".toList, some "c,d".toList⟩ ∧
      slot? (read list) 3 = none ∧
      (slots list)[3]? = some " 'e, f".toList ∧
      slot? (read list) 4 = some (some "'e, f".toList) := by
  intro list
  obtain ⟨-, hcount, -, hread, -⟩ := slots_are_kept_and_numbered list
  have hblank : Text.isBlank list = false := by decide
  have hslot : (slots list)[2]? = some "k = \"c,d\"".toList := by decide
  have hslot' : (slots list)[3]? = some " 'e, f".toList := by decide
  obtain ⟨hname, hmissing, -⟩ := (hread hblank).2 2 _ hslot
  obtain ⟨-, -, hfound⟩ := (hread hblank).2 3 _ hslot'
  have hnamed : IsNamed "k = \"c,d\"".toList :=
    ⟨"k ".toList, " \"c,d\"".toList, by decide, by decide, by decide⟩
  have hnumbered : ¬ IsNamed " 'e, f".toList := by
    rw [← isSome_named?_iff]
    decide
  exact ⟨(hcount 3).2 (by decide), hblank, hslot, hname, (hmissing hnamed).2, hslot',
    (hfound hnumbered).2⟩

end Attributes

end DocSite
