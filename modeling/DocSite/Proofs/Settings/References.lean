import DocSite.Proofs.Text.Splitting
import DocSite.Settings.File
import Mathlib.Data.List.Basic
import Mathlib.Tactic.SplitIfs

/-!
# References to variables

A value of a settings file is written from plain text and from references, `${NAME}` and
`${NAME:-default}`. It is read twice: once for the names that have to be set, and once to replace
its references. Both readings find the references that were written, wherever they stand and
whatever braces stand around them, so what a value stands for is told by its parts one by one.

* `Variables.Part` : the parts that a value is written from.
* `Variables.required_write` : the names that have to be set are those of the references without a
  default, in their order.
* `Variables.substitute_write` : each reference is replaced by what it stands for, which is not
  looked at again.
* `Variables.references_are_replaced_at_once` : the value, or the first name that is not set.
-/

namespace DocSite

namespace Variables

/-! ### What is written -/

/-- A name of a variable: a letter or an underscore, and then letters, digits and underscores. -/
def IsName : Text → Prop
  | [] => False
  | c :: rest => (c.isAlpha = true ∨ c = '_') ∧ ∀ d ∈ rest, d.isAlphanum = true ∨ d = '_'

-- the characters of the name are looked at, not all there are
instance : DecidablePred IsName
  | [] => inferInstanceAs (Decidable False)
  | c :: rest =>
    have : Decidable (∀ d ∈ rest, d.isAlphanum = true ∨ d = '_') := List.decidableBAll _ rest
    inferInstanceAs (Decidable ((c.isAlpha = true ∨ c = '_') ∧ _))

/-- A part of a value: plain text, or a reference to a variable, with what stands for the variable
where it is not set. -/
inductive Part where
  | text (s : Text)
  | reference (name : Text) (default? : Option Text)
  deriving DecidableEq, Repr

namespace Part

/-- What can be written so that it is read again: text without a dollar sign, and names and defaults
that end where they seem to. -/
def IsWritable : Part → Prop
  | text s => '$' ∉ s
  | reference name default? => IsName name ∧ ∀ d ∈ default?, '$' ∉ d ∧ '}' ∉ d

instance : DecidablePred IsWritable
  | text s => inferInstanceAs (Decidable ('$' ∉ s))
  | reference _ none => inferInstanceAs (Decidable (_ ∧ ∀ d ∈ none, _))
  | reference _ (some _) => inferInstanceAs (Decidable (_ ∧ ∀ d ∈ some _, _))

/-- What stands between the braces of a reference. -/
def body (name : Text) : Option Text → Text
  | none => name
  | some default => name ++ ':' :: '-' :: default

/-- A part as it is written. -/
def source : Part → Text
  | text s => s
  | reference name default? => '$' :: '{' :: body name default? ++ ['}']

/-- A reference to a variable that is not set, without a default. -/
def IsMissing (value? : Text → Option Text) : Part → Prop
  | text _ => False
  | reference name default? => value? name = none ∧ default? = none

instance (value? : Text → Option Text) : DecidablePred (IsMissing value?)
  | text _ => inferInstanceAs (Decidable False)
  | reference _ _ => inferInstanceAs (Decidable (_ ∧ _))

/-- What a part that is not missing stands for. -/
def value (value? : Text → Option Text) : Part → Text
  | text s => s
  | reference name default? => ((value? name).or default?).getD []

/-- The name that has to be set for a part. -/
def required : Part → List Text
  | reference name none => [name]
  | _ => []

end Part

/-- Parts as they are written, one after the other. -/
def write (parts : List Part) : Text := parts.flatMap Part.source

/-! ### Names that have to be set -/

theorem isNameChar_of_isName {name : Text} (h : IsName name) {c : Char} (hc : c ∈ name) :
    isNameChar c = true := by
  cases name with
  | nil => cases hc
  | cons d rest =>
    rcases List.mem_cons.1 hc with rfl | hc
    · rcases h.1 with halpha | rfl
      · simp [isNameChar, Char.isAlphanum, halpha]
      · rfl
    · simpa [isNameChar] using h.2 c hc

theorem not_mem_of_isName {name : Text} (h : IsName name) {c : Char} (hc : isNameChar c = false) :
    c ∉ name := fun hmem => by
  rw [isNameChar_of_isName h hmem] at hc
  cases hc

theorem isDigit_eq_false_of_isAlpha {c : Char} (h : c.isAlpha = true) : c.isDigit = false := by
  by_contra hdigit
  have hnine : c.toNat ≤ 57 := (Char.isDigit_iff_toNat.1 (eq_true_of_ne_false hdigit)).2
  have hletter : 65 ≤ c.toNat := by
    rcases (Bool.or_eq_true c.isUpper c.isLower).mp h with hupper | hlower
    · exact UInt32.le_iff_toNat_le.1 (of_decide_eq_true hupper).1
    · have ha : 97 ≤ c.toNat :=
        UInt32.le_iff_toNat_le.1 (of_decide_eq_true ((Bool.and_eq_true _ _).mp hlower).1)
      omega
  omega

theorem isDigit_head?_of_isName {name : Text} (h : IsName name) :
    ∃ first, name.head? = some first ∧ first.isDigit = false := by
  cases name with
  | nil => cases h
  | cons c rest =>
    refine ⟨c, rfl, ?_⟩
    rcases h.1 with halpha | rfl
    · exact isDigit_eq_false_of_isAlpha halpha
    · rfl

theorem requiredAt?_of_ne {c : Char} (hc : c ≠ '$') (rest : Text) :
    requiredAt? (c :: rest) = none := by
  simp [requiredAt?, List.isPrefixOf?, hc.symm]

theorem requiredAt?_name {name : Text} (hname : IsName name) {c : Char}
    (hc : isNameChar c = false) (rest : Text) :
    requiredAt? ('$' :: '{' :: (name ++ c :: rest)) = if c = '}' then some name else none := by
  have hchars : ∀ d ∈ name, isNameChar d = true := fun d => isNameChar_of_isName hname
  have htake : (name ++ c :: rest).takeWhile isNameChar = name := by
    rw [List.takeWhile_append_of_pos hchars, List.takeWhile_cons_of_neg (by simp [hc]),
      List.append_nil]
  have hdrop : (name ++ c :: rest).dropWhile isNameChar = c :: rest := by
    rw [List.dropWhile_append_of_pos hchars, List.dropWhile_cons_of_neg (by simp [hc])]
  have hstart : ['$', '{'].isPrefixOf? ('$' :: '{' :: (name ++ c :: rest)) =
      some (name ++ c :: rest) := List.isPrefixOf?_eq_some_iff_append_eq.2 rfl
  obtain ⟨first, hfirst, hdigit⟩ := isDigit_head?_of_isName hname
  rw [requiredAt?, hstart]
  simp [htake, hdrop, hfirst, hdigit]

theorem required_append {s : Text} (h : '$' ∉ s) (rest : Text) :
    required (s ++ rest) = required rest := by
  induction s with
  | nil => rfl
  | cons c s ih =>
    have hc : c ≠ '$' := fun hc => h (by simp [hc])
    have hs : '$' ∉ s := fun hs => h (List.mem_cons_of_mem _ hs)
    rw [List.cons_append, required, requiredAt?_of_ne hc, ih hs]
    rfl

/-- The names that have to be set for a part are found where it is written. -/
theorem required_source {part : Part} (h : part.IsWritable) (rest : Text) :
    required (part.source ++ rest) = part.required ++ required rest := by
  match part with
  | .text s => exact required_append h rest
  | .reference name none =>
    have hinside : '$' ∉ '{' :: name ++ ['}'] := by
      simp [not_mem_of_isName h.1 (c := '$') rfl]
    calc required ('$' :: ('{' :: name ++ ['}']) ++ rest)
        = (requiredAt? ('$' :: '{' :: (name ++ '}' :: rest))).toList ++
            required ('{' :: name ++ ['}'] ++ rest) := by
          simp [required]
      _ = [name] ++ required rest := by
          rw [requiredAt?_name h.1 rfl, if_pos rfl, required_append hinside]
          rfl
  | .reference name (some default) =>
    have hinside : '$' ∉ '{' :: (name ++ ':' :: '-' :: default) ++ ['}'] := by
      simp [not_mem_of_isName h.1 (c := '$') rfl, (h.2 default rfl).1]
    calc required ('$' :: ('{' :: (name ++ ':' :: '-' :: default) ++ ['}']) ++ rest)
        = (requiredAt? ('$' :: '{' :: (name ++ ':' :: ('-' :: default ++ '}' :: rest)))).toList ++
            required ('{' :: (name ++ ':' :: '-' :: default) ++ ['}'] ++ rest) := by
          simp [required]
      _ = [] ++ required rest := by
          rw [requiredAt?_name h.1 rfl, if_neg (by decide), required_append hinside]
          rfl

/-- **The names that have to be set are those of the references without a default.** -/
theorem required_write {parts : List Part} (h : ∀ part ∈ parts, part.IsWritable) :
    required (write parts) = parts.flatMap Part.required := by
  induction parts with
  | nil => rfl
  | cons part parts ih =>
    obtain ⟨hpart, hparts⟩ := List.forall_mem_cons.1 h
    rw [write, List.flatMap_cons, required_source hpart, List.flatMap_cons, ← ih hparts, write]

/-! ### Replacement -/

variable {value? : Text → Option Text}

theorem substitute_nil : substitute value? [] = [] := by
  rw [substitute, pieces]
  rfl

theorem substitute_cons_of_ne {c : Char} (hc : c ≠ '$') (rest : Text) :
    substitute value? (c :: rest) = c :: substitute value? rest := by
  rw [substitute, pieces, if_neg hc, List.flatMap_cons]
  rfl

theorem substitute_dollar (rest : Text) :
    substitute value? ('$' :: rest) =
      (dollar rest).1.fill value? ++ substitute value? (dollar rest).2 := by
  rw [substitute, pieces, if_pos rfl, List.flatMap_cons]
  rfl

theorem substitute_append {s : Text} (h : '$' ∉ s) (rest : Text) :
    substitute value? (s ++ rest) = s ++ substitute value? rest := by
  induction s with
  | nil => rfl
  | cons c s ih =>
    have hc : c ≠ '$' := fun hc => h (by simp [hc])
    have hs : '$' ∉ s := fun hs => h (List.mem_cons_of_mem _ hs)
    rw [List.cons_append, substitute_cons_of_ne hc, ih hs, List.cons_append]

theorem substitute_braces {body : Text} (h : '}' ∉ body) (rest : Text) :
    substitute value? ('$' :: '{' :: body ++ ['}'] ++ rest) =
      (braced body).fill value? ++ substitute value? rest := by
  have hdollar : dollar ('{' :: (body ++ '}' :: rest)) = (braced body, rest) := by
    simp [dollar, Text.splitFirst?_append h]
  have hsource : '$' :: '{' :: body ++ ['}'] ++ rest = '$' :: '{' :: (body ++ '}' :: rest) := by
    simp
  rw [hsource, substitute_dollar, hdollar]

theorem braced_body {name : Text} (h : IsName name) (default? : Option Text) :
    braced (Part.body name default?) =
      .reference (Part.reference name default?).source name default? := by
  have hcolon : ':' ∉ name := not_mem_of_isName h rfl
  cases default? with
  | none =>
    have hnone : Text.splitFirstText? [':', '-'] name = none := by
      refine Option.eq_none_iff_forall_ne_some.2 fun ⟨a, b⟩ hcut => hcolon ?_
      rw [Text.eq_of_splitFirstText? hcut]
      simp
    simp only [braced, Part.body, hnone]
    rfl
  | some default =>
    have hcut : Text.splitFirstText? [':', '-'] (name ++ ':' :: '-' :: default) =
        some (name, default) := Text.splitFirstText?_append hcolon ['-'] default
    cases name with
    | nil => cases h
    | cons c name =>
      simp only [braced, Part.body, hcut]
      rfl

theorem substitute_source {part : Part} (h : part.IsWritable) (hset : ¬ part.IsMissing value?)
    (rest : Text) :
    substitute value? (part.source ++ rest) = part.value value? ++ substitute value? rest := by
  cases part with
  | text s => exact substitute_append h rest
  | reference name default? =>
    have hbrace : '}' ∉ Part.body name default? := by
      have hname : '}' ∉ name := not_mem_of_isName h.1 rfl
      cases default? with
      | none => exact hname
      | some default => simp [Part.body, hname, (h.2 default rfl).2]
    have hfill : (Piece.reference (Part.reference name default?).source name default?).fill value? =
        (Part.reference name default?).value value? := by
      have hsome : ((value? name).or default?).isSome = true := by
        by_contra hnone
        exact hset (by simpa [Part.IsMissing, Option.or_eq_none_iff] using hnone)
      obtain ⟨s, hs⟩ := Option.isSome_iff_exists.1 hsome
      rw [Piece.fill, Part.value, hs]
      rfl
    rw [Part.source, substitute_braces hbrace, braced_body h.1, hfill]

/-- **Each reference is replaced by what it stands for**, and the text around it stays. -/
theorem substitute_write {parts : List Part} (h : ∀ part ∈ parts, part.IsWritable)
    (hset : ∀ part ∈ parts, ¬ part.IsMissing value?) :
    substitute value? (write parts) = parts.flatMap (Part.value value?) := by
  induction parts with
  | nil => exact substitute_nil
  | cons part parts ih =>
    obtain ⟨hpart, hparts⟩ := List.forall_mem_cons.1 h
    obtain ⟨hpartSet, hpartsSet⟩ := List.forall_mem_cons.1 hset
    rw [write, List.flatMap_cons, substitute_source hpart hpartSet, List.flatMap_cons,
      ← ih hparts hpartsSet, write]

/-! ### Expansion -/

theorem expand_of_no_braces {s : Text} (h : ¬ ['$', '{'] <:+: s) : expand value? s = .ok s := by
  rw [expand, if_neg (mt Text.contains_iff.1 h)]

theorem expand_of_required {s : Text} (h : ['$', '{'] <:+: s)
    (hset : ∀ name ∈ required s, (value? name).isSome = true) :
    expand value? s = .ok (substitute value? s) := by
  have hfind : (required s).find? (fun name => (value? name).isNone) = none :=
    List.find?_eq_none.2 fun name hname => by simp [Option.isSome_iff_ne_none.1 (hset name hname)]
  rw [expand, if_pos (Text.contains_iff.2 h), hfind]

/-- The first name that has to be set and is not is told. -/
theorem expand_of_missing {s name : Text} {before after : List Text} (h : ['$', '{'] <:+: s)
    (hrequired : required s = before ++ name :: after)
    (hbefore : ∀ other ∈ before, (value? other).isSome = true) (hname : value? name = none) :
    expand value? s = .error name := by
  have hfind : (required s).find? (fun name => (value? name).isNone) = some name := by
    rw [hrequired, List.find?_append, List.find?_eq_none.2, Option.none_or,
      List.find?_cons_of_pos (by simp [hname])]
    exact fun other hother => by simp [Option.isSome_iff_ne_none.1 (hbefore other hother)]
  rw [expand, if_pos (Text.contains_iff.2 h), hfind]

theorem infix_write {parts : List Part} {name : Text} {default? : Option Text}
    (h : .reference name default? ∈ parts) : ['$', '{'] <:+: write parts := by
  obtain ⟨before, after, rfl⟩ := List.append_of_mem h
  exact ⟨write before, Part.body name default? ++ '}' :: write after, by simp [write, Part.source]⟩

theorem isSome_of_mem_required {parts : List Part} (h : ∀ part ∈ parts, ¬ part.IsMissing value?)
    {name : Text} (hname : name ∈ parts.flatMap Part.required) : (value? name).isSome = true := by
  obtain ⟨part, hpart, hmem⟩ := List.mem_flatMap.1 hname
  match part with
  | .text _ => cases hmem
  | .reference _ (some _) => cases hmem
  | .reference other none =>
    obtain rfl := List.mem_singleton.1 hmem
    exact Option.isSome_iff_ne_none.2 fun hnone => h _ hpart ⟨hnone, rfl⟩

/-- **References are replaced at once, and the first that cannot be is reported.** A field that is
written from text without dollar signs and from references, in any order and number, fails with the
name of the first reference without a default whose variable is not set, if there is one. Else it
stands for its text with each reference replaced by the value of its variable, or by its default
where that is not set, whatever these values hold. -/
theorem references_are_replaced_at_once (value? : Text → Option Text) (field : Text)
    (parts : List Part) (hparts : ∀ part ∈ parts, part.IsWritable) :
    (∀ before name after, parts = before ++ .reference name none :: after →
        (∀ part ∈ before, ¬ part.IsMissing value?) → value? name = none →
        Settings.File.expand value? field (write parts) = .error (.unset field name)) ∧
      ((∀ part ∈ parts, ¬ part.IsMissing value?) →
        Settings.File.expand value? field (write parts) =
          .ok (parts.flatMap (Part.value value?))) := by
  constructor
  · intro before name after heq hbefore hname
    have hmem : .reference name none ∈ parts := by simp [heq]
    have hrequired : required (write parts) =
        before.flatMap Part.required ++ name :: after.flatMap Part.required := by
      rw [required_write hparts, heq, List.flatMap_append, List.flatMap_cons]
      rfl
    rw [Settings.File.expand, expand_of_missing (infix_write hmem) hrequired
      (fun _ => isSome_of_mem_required hbefore) hname]
    rfl
  · intro hset
    have hexpand : expand value? (write parts) = .ok (parts.flatMap (Part.value value?)) := by
      by_cases hopen : ['$', '{'] <:+: write parts
      · rw [expand_of_required hopen, substitute_write hparts hset]
        rw [required_write hparts]
        exact fun _ => isSome_of_mem_required hset
      · -- without a reference there is only text
        rw [expand_of_no_braces hopen, write]
        congr 1
        refine List.flatMap_congr fun part hpart => ?_
        cases part with
        | text s => rfl
        | reference name default? => exact absurd (infix_write hpart) hopen
    rw [Settings.File.expand, hexpand]
    rfl

/-- References next to each other, among braces, to a value that looks like a reference and to one
that is not set but has a default that looks like one. With one more that is not set and has none,
the field fails. -/
theorem references_are_replaced_at_once_lookalikes :
    let value? : Text → Option Text :=
      Environment.valueOf? ["A=$\x7bB\x7d".toList, "B=b".toList]
    let parts : List Part := [.text "\x7d\x7b".toList, .reference "A".toList none,
      .reference "C".toList (some "-:-\x7bB".toList), .text "\x7bB\x7d".toList]
    (∀ part ∈ parts ++ [.reference "_C1".toList none], part.IsWritable) ∧
      (∀ part ∈ parts, ¬ part.IsMissing value?) ∧ value? "_C1".toList = none ∧
      Settings.File.expand value? "site.title".toList (write parts) =
        .ok "\x7d\x7b$\x7bB\x7d-:-\x7bB\x7bB\x7d".toList ∧
      Settings.File.expand value? "site.title".toList
          (write (parts ++ [.reference "_C1".toList none])) =
        .error (.unset "site.title".toList "_C1".toList) := by
  intro value? parts
  have hparts : ∀ part ∈ parts ++ [.reference "_C1".toList none], part.IsWritable := by
    decide
  have hset : ∀ part ∈ parts, ¬ part.IsMissing value? := by
    decide
  have hmissing : value? "_C1".toList = none := by
    decide
  refine ⟨hparts, hset, hmissing, ?_, ?_⟩
  · exact (references_are_replaced_at_once value? "site.title".toList parts
      fun part hpart => hparts part (List.mem_append_left _ hpart)).2 hset
  · exact (references_are_replaced_at_once value? "site.title".toList _ hparts).1 parts _ [] rfl
      hset hmissing

end Variables

end DocSite
