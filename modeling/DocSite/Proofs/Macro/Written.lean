import DocSite.Proofs.Macro.AttributeList
import DocSite.Proofs.Macro.Escaping
import DocSite.Proofs.Macro.Scan

/-!
# Macros, written and read

A macro is written with its attributes as a list of quoted values, and with a backslash before every
closing bracket in the list (`Invocation.blockText`, `Invocation.inlineText`).

* `Attributes.Writable.writes` : brackets around a written list are read as the text of the list.
* `Invocation.ofLine?_blockText` : a line that is a written block macro.
* `Invocation.find?_of_spells`, `Invocation.find?_inlineText` : a text that starts with an inline
  macro.
* `Invocation.written_macros_are_read` : both.

The list is read in three steps, and what one step leaves is what the next needs: the brackets see
the closing brackets of values only, the commas between slots see the quotes only.
-/

namespace DocSite

/-! ### Lists in brackets -/

theorem Attribute.writes_quoted {value : Text} (h : ¬ ['\\', ']'] <:+: value) :
    Bracket.Writes (quoted value) (Bracket.escape (quoted value)) := by
  have hquote : '"' ≠ '\\' ∧ '"' ≠ ']' := by decide
  rw [quoted, Bracket.escape_cons_of_ne hquote.2]
  exact .char hquote.1 hquote.2 (Bracket.writes_escape_concat hquote.1 hquote.2 h)

theorem Attribute.writes_write {n : Nat} {a : Attribute} (h : a.Writable n) :
    Bracket.Writes a.write (Bracket.escape a.write) := by
  cases h with
  | @slot value? h =>
    cases value? with
    | none => exact writes_quoted quotable_nil.not_isInfix
    | some value => exact writes_quoted (h value rfl).2.not_isInfix
  | @name key value hkey hvalue =>
    have hplain : ∀ c ∈ key ++ ['='], c ≠ '\\' ∧ c ≠ ']' := by
      intro c hc
      constructor
      · rintro rfl
        exact not_mem_name_equals hkey (by decide) (by decide) hc
      · rintro rfl
        exact not_mem_name_equals hkey (by decide) (by decide) hc
    rw [write_name, Bracket.escape_append]
    exact (Bracket.writes_escape_of_forall hplain).append (writes_quoted hvalue.not_isInfix)

namespace Attributes

/-- A list in brackets. -/
def brackets (as : Attributes) : Text := '[' :: (Bracket.escape as.write ++ [']'])

theorem writes_join {as : Attributes} (h : ∀ a ∈ as, ∃ n, a.Writable n) :
    Bracket.Writes as.write (Bracket.escape as.write) := by
  induction as with
  | nil => exact .nil
  | cons a as ih =>
    obtain ⟨⟨n, ha⟩, has⟩ := List.forall_mem_cons.1 h
    cases as with
    | nil => simpa [write] using Attribute.writes_write ha
    | cons b as =>
      have hwrite : write (a :: b :: as) = a.write ++ ([','] ++ write (b :: as)) :=
        Text.join_cons_cons _ _ _ _
      have hcomma : Bracket.Writes [','] (Bracket.escape [',']) :=
        Bracket.writes_escape_of_forall (by simp)
      rw [hwrite, Bracket.escape_append, Bracket.escape_append]
      exact (Attribute.writes_write ha).append (hcomma.append (ih has))

/-- **Brackets around a written list** are read as the text of the list. -/
theorem Writable.writes {as : Attributes} (h : as.Writable) :
    Bracket.Writes as.write (Bracket.escape as.write) :=
  writes_join fun _ ha => h.exists_of_mem ha

end Attributes

/-! ### Macros -/

namespace Invocation

/-- A macro as it is written in a line of its own. -/
def blockText (i : Invocation) : Text := i.name ++ ':' :: ':' :: (i.target ++ i.attributes.brackets)

/-- A macro as it is written within a line. -/
def inlineText (i : Invocation) : Text := i.name ++ ':' :: (i.target ++ i.attributes.brackets)

/-- A macro that can be written. -/
structure Writable (i : Invocation) : Prop where
  isName : isName i.name = true
  isTargetChar : ∀ c ∈ i.target, isTargetChar c = true
  attributes : i.attributes.Writable

variable {names : List Text} {i : Invocation}

theorem attribute_isName {name : Text} (h : isName name = true) : Attribute.isName name = true := by
  cases name with
  | nil => cases h
  | cons c rest =>
    simp only [isName, Attribute.isName, Bool.and_eq_true, Bool.or_eq_true, decide_eq_true_eq,
      List.all_eq_true] at h ⊢
    refine ⟨.inl h.1, fun d hd => ?_⟩
    rcases h.2 d hd with (hword | hhyphen) | hunder
    · exact .inl (.inl hword)
    · exact .inr hhyphen
    · exact .inl (.inr hunder)

theorem Writable.colon_not_mem (h : i.Writable) : ':' ∉ i.name :=
  Attribute.not_mem_of_isName (attribute_isName h.isName) (by decide) (by decide) (by decide)

theorem Writable.trim_blockText (h : i.Writable) : i.blockText.trim = i.blockText := by
  have hname := h.isName
  refine Text.trim_eq_self (fun c hc => ?_) fun c hc => ?_
  · refine Attribute.isBlankChar_of_isName (attribute_isName hname) (c := c) ?_
    cases hcons : i.name with
    | nil =>
      rw [hcons] at hname
      cases hname
    | cons d name =>
      rw [blockText, hcons] at hc
      obtain rfl : d = c := Option.some.inj hc
      exact List.mem_cons_self
  · have hlast : i.blockText.getLast? = some ']' := by
      simp [blockText, Attributes.brackets, List.getLast?_append, List.getLast?_cons]
    rw [hlast] at hc
    obtain rfl : ']' = c := Option.some.inj hc
    decide

/-- **A written block macro** is read from its line. -/
theorem ofLine?_blockText (h : i.Writable) : ofLine? i.blockText = some i := by
  have hname : Text.splitFirstText? [':', ':'] i.blockText =
      some (i.name, i.target ++ i.attributes.brackets) :=
    Text.splitFirstText?_append h.colon_not_mem [':'] _
  have htarget : Text.splitFirst? '[' (i.target ++ i.attributes.brackets) =
      some (i.target, Bracket.escape i.attributes.write ++ [']']) := by
    refine Text.splitFirst?_append (fun hmem => ?_) _
    have hbracket := h.isTargetChar '[' hmem
    revert hbracket
    decide
  have hlist : Bracket.close? (Bracket.escape i.attributes.write ++ [']']) =
      some (i.attributes.write, []) := Bracket.close?_of_writes h.attributes.writes []
  have hblank : i.target.any Text.isBlankChar = false := by
    rw [List.any_eq_false]
    intro c hc
    have hchar := h.isTargetChar c hc
    simp only [Invocation.isTargetChar, Bool.and_eq_true, Bool.not_eq_true'] at hchar
    rw [hchar.2]
    exact Bool.false_ne_true
  rw [ofLine?, h.trim_blockText, hname]
  simp only [Option.bind_eq_bind, Option.bind_some, htarget, hlist, h.isName, hblank,
    Bool.not_false, and_self, if_true, Attributes.read_write h.attributes]

theorem spells_inlineText (h : i.Writable) (htarget : IsTarget i.target) :
    Spells i.name i i.inlineText := by
  have hspells : Spells i.name ⟨i.name, i.target, Attributes.read i.attributes.write⟩
      i.inlineText := .intro htarget h.attributes.writes
  rw [Attributes.read_write h.attributes] at hspells
  exact hspells

theorem eq_of_spells {name name' source source' rest rest' : Text} {i' : Invocation}
    (h : Spells name i source) (h' : Spells name' i' source') (hname : ':' ∉ name)
    (hname' : ':' ∉ name') (heq : source ++ rest = source' ++ rest') : name = name' := by
  have hsplit : ∀ {n s r : Text} {j : Invocation}, Spells n j s → ':' ∉ n →
      ∃ tail, Text.splitFirst? ':' (s ++ r) = some (n, tail) := by
    intro n s r j hspells hn
    cases hspells with
    | intro _ _ =>
      rw [List.append_assoc, List.cons_append]
      exact ⟨_, Text.splitFirst?_append hn _⟩
  obtain ⟨tail, htail⟩ := hsplit (r := rest) h hname
  obtain ⟨tail', htail'⟩ := hsplit (r := rest') h' hname'
  rw [heq, htail'] at htail
  exact (Prod.mk.inj (Option.some.inj htail)).1.symm

/-- **A macro is found at the start of a text**, and ends where it was written to, if no name that
is looked for has a colon. -/
theorem find?_of_spells {source : Text} (h : Spells i.name i source) (hname : i.name ∈ names)
    (hcolon : ∀ name ∈ names, ':' ∉ name) (rest : Text) :
    find? names (source ++ rest) = some ⟨[], ⟨i, source⟩, rest⟩ := by
  have hown := hcolon i.name hname
  obtain ⟨earlier, later, rfl, hfirst⟩ := List.eq_append_cons_of_mem hname
  have hfree : FreeAfter [] := fun _ hc => by cases hc
  have hoccurs : Occurs (earlier ++ i.name :: later) ([] ++ []) i source rest := by
    refine ⟨hfree, earlier, i.name, later, rfl, h, ?_⟩
    -- another name cannot fit: it would end at the same colon
    intro name hmem i' source' rest' heq hspells'
    have hsame : i.name = name :=
      eq_of_spells h hspells' hown (hcolon name (List.mem_append_left _ hmem)) heq
    exact hfirst (hsame ▸ hmem)
  have hfound : findAfter? (earlier ++ i.name :: later) ([] : Text).getLast? (source ++ rest) =
      some ⟨[], ⟨i, source⟩, rest⟩ :=
    findAfter?_eq_some_iff.2 ⟨rfl, noneStarts_nil, hoccurs⟩
  exact hfound

/-- **A written inline macro** is found at the start of a text. -/
theorem find?_inlineText (h : i.Writable) (htarget : IsTarget i.target) (hname : i.name ∈ names)
    (hcolon : ∀ name ∈ names, ':' ∉ name) (rest : Text) :
    find? names (i.inlineText ++ rest) = some ⟨[], ⟨i, i.inlineText⟩, rest⟩ :=
  find?_of_spells (spells_inlineText h htarget) hname hcolon rest

/-- An inline macro in a line of its own is no block macro: the colon that ends its name stands
alone. -/
theorem ofLine?_of_spells {name source : Text} (h : Spells name i source)
    (hname : isName name = true) (htrim : source.trim = source) : ofLine? source = none := by
  have hcolon : ∀ {n : Text}, isName n = true → ':' ∉ n := fun hn =>
    Attribute.not_mem_of_isName (attribute_isName hn) (by decide) (by decide) (by decide)
  rw [Option.eq_none_iff_forall_ne_some]
  intro j hj
  rw [ofLine?, htrim] at hj
  obtain ⟨⟨name', rest⟩, hsplit, hj⟩ := Option.bind_eq_some_iff.1 hj
  obtain ⟨⟨target', rest'⟩, -, hj⟩ := Option.bind_eq_some_iff.1 hj
  obtain ⟨⟨list', rest''⟩, -, hj⟩ := Option.bind_eq_some_iff.1 hj
  dsimp only at hj
  split_ifs at hj with hvalid
  have heq := Text.eq_of_splitFirstText? hsplit
  cases h with
  | @intro target list written htarget _ =>
    -- both names end at the first colon, and the target does not start with another one
    have hfirst := Text.splitFirst?_append (hcolon hname) (target ++ '[' :: (written ++ [']']))
    rw [heq, List.cons_append, Text.splitFirst?_append (hcolon hvalid.1)] at hfirst
    have hrest : ':' :: rest = target ++ '[' :: (written ++ [']']) :=
      (Prod.mk.inj (Option.some.inj hfirst)).2
    obtain ⟨c, target, rfl⟩ := List.exists_cons_of_ne_nil htarget.ne_nil
    rw [List.cons_append] at hrest
    exact htarget.head_ne (congrArg some (List.cons.inj hrest).1.symm)

/-- **Written macros are read.** A macro that can be written is read from a line that it is written
to, with its name, its target and its attributes. So it is from a text that starts with it, if it
has a target that inline macros can have and its name is among those that are looked for, none of
which has a colon: whatever follows the macro is left. -/
theorem written_macros_are_read (i : Invocation) (h : i.Writable) :
    ofLine? i.blockText = some i ∧
      ∀ names rest, IsTarget i.target → i.name ∈ names → (∀ name ∈ names, ':' ∉ name) →
        find? names (i.inlineText ++ rest) = some ⟨[], ⟨i, i.inlineText⟩, rest⟩ :=
  ⟨ofLine?_blockText h, fun _ rest htarget hname hcolon =>
    find?_inlineText h htarget hname hcolon rest⟩

/-- Values with commas, brackets, single quotes and backslashes, an empty slot, and a name that
starts with another one. -/
theorem written_macros_are_read_news :
    let i : Invocation :=
      { name := "news".toList
        target := "a:b".toList
        attributes := [⟨.slot 1, some " a]b, c=d".toList⟩,
          ⟨.name "refs".toList, some "'x\\y\\".toList⟩, ⟨.slot 3, none⟩] }
    let names := ["new".toList, "news".toList]
    i.Writable ∧ IsTarget i.target ∧
      ofLine? "news::a:b[\" a\\]b, c=d\",refs=\"'x\\y\\\",\"\"]".toList = some i ∧
      find? names "news:a:b[\" a\\]b, c=d\",refs=\"'x\\y\\\",\"\"]] news:c[]".toList =
        some ⟨[], ⟨i, i.inlineText⟩, "] news:c[]".toList⟩ := by
  intro i names
  have hattributes : i.attributes.Writable := by
    intro n a ha
    rcases n with _ | _ | _ | n
    · obtain rfl := Option.some.inj ha
      refine .slot fun value hvalue => ?_
      obtain rfl := Option.some.inj hvalue
      exact ⟨by decide, by decide, by decide⟩
    · obtain rfl := Option.some.inj ha
      exact .name (by decide) ⟨by decide, by decide⟩
    · obtain rfl := Option.some.inj ha
      exact .slot fun value hvalue => by cases hvalue
    · cases ha
  have hchars : ∀ c ∈ i.target, isTargetChar c = true := List.all_eq_true.1 (by decide)
  have hi : i.Writable := ⟨by decide, hchars, hattributes⟩
  have htarget : IsTarget i.target := ⟨by decide, hchars, by decide⟩
  obtain ⟨hblock, hinline⟩ := written_macros_are_read i hi
  refine ⟨hi, htarget, ?_, ?_⟩
  · exact hblock
  · exact hinline names "] news:c[]".toList htarget (by decide) (by decide)

end Invocation

end DocSite
