import DocSite.Proofs.Settings.References

/-!
# Dollar signs in plain text

A text without a reference in braces stands for itself. As soon as a reference stands before or
after it, its own dollar signs are looked at: two of them stand for one, one before the name of a
variable is a reference, and one right before a reference takes away its meaning. So text is read
alike, on its own and next to references, only where its dollar signs do none of this.

* `Variables.Inert` : dollar signs that stand for themselves where a reference is near.
* `Variables.substitute_append_inert` : inert text stays as it is.
* `Variables.inert_of_readAlike` : what stays as it is in every environment is inert in every one.
* `Variables.literal_text_is_read_alike` : both together.
* `Variables.dollar_signs_are_not_literal` : dollar signs that change when a reference is added.
-/

namespace DocSite

namespace Variables

variable {value? : Text → Option Text}

/-- A reference to a variable, without a default. -/
def reference (name : Text) : Text := (Part.reference name none).source

/-- A text is read alike on its own, before a reference and after one. -/
def ReadAlike (value? : Text → Option Text) (s : Text) : Prop :=
  expand value? s = .ok s ∧
    ∀ name v, IsName name → value? name = some v → v ≠ [] →
      expand value? (s ++ reference name) = .ok (s ++ v) ∧
        expand value? (reference name ++ s) = .ok (v ++ s)

/-- A dollar sign stands for itself before a text that starts with no other dollar sign and with no
name of a variable that is set. -/
def IsLone (value? : Text → Option Text) (rest : Text) : Prop :=
  rest.head? ≠ some '$' ∧
    (rest.takeWhile isBareChar ≠ [] → value? (rest.takeWhile isBareChar) = none)

/-- Every dollar sign stands for itself. -/
def Inert (value? : Text → Option Text) : Text → Prop
  | [] => True
  | c :: rest => (c = '$' → IsLone value? rest) ∧ Inert value? rest

instance (value? : Text → Option Text) : DecidablePred (IsLone value?) :=
  fun _ => inferInstanceAs (Decidable (_ ∧ _))

/-- Dollar signs are looked at one by one. -/
@[reducible]
def decidableInert (value? : Text → Option Text) : DecidablePred (Inert value?)
  | [] => .isTrue trivial
  | c :: rest =>
    have := decidableInert value? rest
    inferInstanceAs (Decidable ((c = '$' → IsLone value? rest) ∧ Inert value? rest))

instance (value? : Text → Option Text) : DecidablePred (Inert value?) := decidableInert value?

theorem inert_iff {s : Text} :
    Inert value? s ↔ ∀ before after, s = before ++ '$' :: after → IsLone value? after := by
  induction s with
  | nil => simp [Inert]
  | cons c s ih =>
    rw [Inert, ih]
    constructor
    · rintro ⟨hc, hs⟩ before after heq
      cases before with
      | nil =>
        obtain ⟨rfl, rfl⟩ := List.cons.inj heq
        exact hc rfl
      | cons d before => exact hs before after (List.cons.inj heq).2
    · intro h
      refine ⟨?_, fun before after heq => h (c :: before) after (by rw [heq, List.cons_append])⟩
      rintro rfl
      exact h [] s rfl

theorem Inert.of_append {a b : Text} (h : Inert value? (a ++ b)) : Inert value? b := by
  induction a with
  | nil => exact h
  | cons c a ih => exact ih h.2

/-! ### Text without references in braces -/

theorem substitute_lone : substitute value? ['$'] = ['$'] := by
  rw [substitute_dollar, dollar, substitute_nil]
  rfl

theorem substitute_doubled (rest : Text) :
    substitute value? ('$' :: '$' :: rest) = '$' :: substitute value? rest := by
  rw [substitute_dollar, dollar, if_pos rfl]
  rfl

theorem substitute_sign {c : Char} (hdollar : c ≠ '$') (hbrace : c ≠ '{')
    (hbare : isBareChar c = false) (rest : Text) :
    substitute value? ('$' :: c :: rest) = '$' :: substitute value? (c :: rest) := by
  rw [substitute_dollar, dollar, if_neg hdollar, if_neg hbrace,
    List.takeWhile_cons_of_neg (by simp [hbare])]
  rfl

theorem substitute_word {rest : Text} (h : rest.takeWhile isBareChar ≠ []) :
    substitute value? ('$' :: rest) =
      (value? (rest.takeWhile isBareChar)).getD ('$' :: rest.takeWhile isBareChar) ++
        substitute value? (rest.dropWhile isBareChar) := by
  cases rest with
  | nil => exact absurd rfl h
  | cons c rest =>
    have hbare : isBareChar c = true := by
      by_contra hbare
      exact h (List.takeWhile_cons_of_neg hbare)
    have hne {d : Char} (hd : isBareChar d = false) : c ≠ d := by
      rintro rfl
      rw [hd] at hbare
      cases hbare
    obtain ⟨d, word, hword⟩ := List.exists_cons_of_ne_nil h
    rw [substitute_dollar, dollar, if_neg (hne rfl), if_neg (hne rfl), hword]
    simp [Piece.fill]

/-- **What a dollar sign can do in a text without a reference in braces.** It stands at the end,
before another one, before a name, or before something else. -/
theorem scan_induction {P : Text → Prop} (nil : P [])
    (plain : ∀ c rest, c ≠ '$' → P rest → P (c :: rest)) (lone : P ['$'])
    (doubled : ∀ rest, P rest → P ('$' :: '$' :: rest))
    (sign : ∀ c rest, c ≠ '$' → c ≠ '{' → isBareChar c = false → P (c :: rest) →
      P ('$' :: c :: rest))
    (word : ∀ rest, rest.takeWhile isBareChar ≠ [] → P (rest.dropWhile isBareChar) →
      P ('$' :: rest)) (s : Text) (hs : ¬ ['$', '{'] <:+: s) : P s := by
  induction hn : s.length using Nat.strongRecOn generalizing s with
  | ind n ih =>
    have hsuffix {t : Text} (hlen : t.length < s.length) (h : t <:+ s) : P t :=
      ih t.length (hn ▸ hlen) t (fun hopen => hs (hopen.trans h.isInfix)) rfl
    match s with
    | [] => exact nil
    | c :: rest =>
      by_cases hc : c = '$'
      · subst hc
        match rest with
        | [] => exact lone
        | c :: rest =>
          by_cases hdollar : c = '$'
          · subst hdollar
            exact doubled rest (hsuffix (Nat.lt_add_of_pos_right Nat.two_pos) ⟨['$', '$'], rfl⟩)
          · have hbrace : c ≠ '{' := by
              rintro rfl
              exact hs ⟨[], rest, rfl⟩
            cases hbare : isBareChar c with
            | false => exact sign c rest hdollar hbrace hbare (hsuffix (by simp) ⟨['$'], rfl⟩)
            | true =>
              have hword : (c :: rest).takeWhile isBareChar ≠ [] := by simp [hbare]
              refine word (c :: rest) hword (hsuffix ?_ ?_)
              · exact Nat.lt_succ_of_le (List.dropWhile_sublist _).length_le
              · exact (List.dropWhile_suffix _).trans ⟨['$'], rfl⟩
      · exact plain c rest hc (hsuffix (by simp) ⟨[c], rfl⟩)

theorem required_append_of_no_braces {s rest : Text} (hs : ¬ ['$', '{'] <:+: s)
    (hrest : rest.head? ≠ some '{') : required (s ++ rest) = required rest := by
  induction s with
  | nil => rfl
  | cons c s ih =>
    have htail : ¬ ['$', '{'] <:+: s := fun h => hs (h.trans ⟨[c], [], by simp⟩)
    have hnone : requiredAt? (c :: (s ++ rest)) = none := by
      by_cases hc : c = '$'
      · subst hc
        have hstart : ['$', '{'].isPrefixOf? ('$' :: (s ++ rest)) = none := by
          refine Option.eq_none_iff_forall_ne_some.2 fun t ht => ?_
          have htext : ['{'] ++ t = s ++ rest :=
            (List.cons.inj (List.isPrefixOf?_eq_some_iff_append_eq.1 ht)).2
          cases s with
          | nil => exact hrest (by rw [← List.nil_append rest, ← htext]; rfl)
          | cons d s =>
            obtain ⟨rfl, -⟩ := List.cons.inj htext
            exact hs ⟨[], s, rfl⟩
        rw [requiredAt?, hstart]
        rfl
      · exact requiredAt?_of_ne hc _
    rw [List.cons_append, required, hnone, ih htail]
    rfl

/-! ### Inert text -/

theorem isBareChar_dollar {c : Char} {rest : Text} (h : c ∈ ('$' :: rest).head?) :
    isBareChar c = false := by
  obtain rfl := Option.some.inj h
  rfl

theorem takeWhile_append_of_head? {p : Char → Bool} {s rest : Text}
    (h : ∀ c ∈ rest.head?, p c = false) :
    (s ++ rest).takeWhile p = s.takeWhile p ∧ (s ++ rest).dropWhile p = s.dropWhile p ++ rest := by
  have hrest : rest.takeWhile p = [] ∧ rest.dropWhile p = rest := by
    cases rest with
    | nil => exact ⟨rfl, rfl⟩
    | cons c rest => simp [h c rfl]
  induction s with
  | nil => exact hrest
  | cons c s ih =>
    cases hc : p c <;> simp [hc, ih]

/-- **Inert text stays as it is**, before anything that goes on with no name, and with no dollar
sign at its end before anything at all. -/
theorem substitute_append_inert {s : Text} (hs : ¬ ['$', '{'] <:+: s) (hinert : Inert value? s)
    {rest : Text} (hlast : rest ≠ [] → s.getLast? ≠ some '$')
    (hrest : ∀ c ∈ rest.head?, isBareChar c = false) :
    substitute value? (s ++ rest) = s ++ substitute value? rest := by
  have hsuffix {a b : Text} (h : rest ≠ [] → (a ++ b).getLast? ≠ some '$') (hne : rest ≠ []) :
      b.getLast? ≠ some '$' := fun hb => h hne (by rw [List.getLast?_append, hb, Option.some_or])
  refine scan_induction (P := fun s => Inert value? s → (rest ≠ [] → s.getLast? ≠ some '$') →
    substitute value? (s ++ rest) = s ++ substitute value? rest)
    ?nil ?plain ?lone ?doubled ?sign ?word s hs hinert hlast
  case nil => exact fun _ _ => rfl
  case plain =>
    intro c s hc ih hinert hlast
    rw [List.cons_append, substitute_cons_of_ne hc, ih hinert.2 (hsuffix (a := [c]) hlast),
      List.cons_append]
  case lone =>
    intro _ hlast
    obtain rfl : rest = [] := not_ne_iff.1 fun hne => hlast hne rfl
    rw [List.append_nil, substitute_nil, substitute_lone]
    rfl
  case doubled =>
    intro s ih hinert
    exact absurd rfl (hinert.1 rfl).1
  case sign =>
    intro c s hdollar hbrace hbare ih hinert hlast
    have hrec := ih hinert.2 (hsuffix (a := ['$']) hlast)
    rw [List.cons_append] at hrec
    rw [List.cons_append, List.cons_append, substitute_sign hdollar hbrace hbare, hrec]
    rfl
  case word =>
    intro s hword ih hinert hlast
    obtain ⟨htake, hdrop⟩ := takeWhile_append_of_head? (s := s) hrest
    have hunset := (hinert.1 rfl).2 hword
    have hparts := List.takeWhile_append_dropWhile (p := isBareChar) (l := s)
    have hafter : Inert value? (s.dropWhile isBareChar) := Inert.of_append (hparts ▸ hinert.2)
    have hafterLast : rest ≠ [] → (s.dropWhile isBareChar).getLast? ≠ some '$' := by
      rw [← hparts, ← List.cons_append] at hlast
      exact hsuffix hlast
    rw [List.cons_append, substitute_word (by rwa [htake]), htake, hdrop, hunset,
      ih hafter hafterLast, Option.getD_none, List.cons_append, ← List.append_assoc, hparts,
      List.cons_append]

/-! ### Next to a reference -/

section

variable {s name v : Text}

theorem infix_reference (name : Text) : ['$', '{'] <:+: reference name := ⟨[], name ++ ['}'], rfl⟩

theorem isWritable_reference (hname : IsName name) : (Part.reference name none).IsWritable :=
  ⟨hname, nofun⟩

theorem required_reference (hname : IsName name) (rest : Text) :
    required (reference name ++ rest) = name :: required rest :=
  required_source (isWritable_reference hname) rest

theorem substitute_reference (hname : IsName name) (hv : value? name = some v) (rest : Text) :
    substitute value? (reference name ++ rest) = v ++ substitute value? rest := by
  have hset : ¬ (Part.reference name none).IsMissing value? := by simp [Part.IsMissing, hv]
  rw [reference, substitute_source (isWritable_reference hname) hset, Part.value, hv]
  rfl

theorem expand_reference_append (hs : ¬ ['$', '{'] <:+: s) (hname : IsName name)
    (hv : value? name = some v) :
    expand value? (reference name ++ s) = .ok (v ++ substitute value? s) := by
  have hopen : ['$', '{'] <:+: reference name ++ s :=
    (infix_reference name).trans (List.prefix_append _ _).isInfix
  have hrequired : required (reference name ++ s) = [name] := by
    rw [required_reference hname, ← List.append_nil s, required_append_of_no_braces hs (by simp)]
    rfl
  rw [expand_of_required hopen (by simp [hrequired, hv]), substitute_reference hname hv]

theorem expand_append_reference (hs : ¬ ['$', '{'] <:+: s) (hname : IsName name)
    (hv : value? name = some v) :
    expand value? (s ++ reference name) = .ok (substitute value? (s ++ reference name)) := by
  have hopen : ['$', '{'] <:+: s ++ reference name :=
    (infix_reference name).trans (List.suffix_append _ _).isInfix
  have hrequired : required (s ++ reference name) = [name] := by
    rw [required_append_of_no_braces hs (by simp [reference, Part.source]),
      ← List.append_nil (reference name), required_reference hname]
    rfl
  exact expand_of_required hopen (by simp [hrequired, hv])

theorem Inert.readAlike (h : Inert value? s) (hlast : s.getLast? ≠ some '$')
    (hs : ¬ ['$', '{'] <:+: s) : ReadAlike value? s := by
  have hself : substitute value? (s ++ []) = s ++ substitute value? [] :=
    substitute_append_inert hs h (fun _ => hlast) (by simp)
  rw [List.append_nil, substitute_nil, List.append_nil] at hself
  refine ⟨expand_of_no_braces hs, fun name v hname hv _ => ⟨?_, ?_⟩⟩
  · have hhead : ∀ c ∈ (reference name).head?, isBareChar c = false := fun _ => isBareChar_dollar
    have hvalue : substitute value? (reference name) = v := by
      rw [← List.append_nil (reference name), substitute_reference hname hv, substitute_nil,
        List.append_nil]
    rw [expand_append_reference hs hname hv, substitute_append_inert hs h (fun _ => hlast) hhead,
      hvalue]
  · rw [expand_reference_append hs hname hv, hself]

end

/-! ### Nothing else is read alike -/

/-- An environment in which every variable holds one letter. What is replaced there gets shorter. -/
def oneLetter : Text → Option Text := fun _ => some ['x']

/-- Text that stays as it is where every variable holds one letter has nothing to replace. -/
theorem inert_of_substitute_eq {s : Text} (hs : ¬ ['$', '{'] <:+: s)
    (h : substitute oneLetter s = s) (value? : Text → Option Text) : Inert value? s := by
  -- what is replaced gets shorter, and nothing gets longer
  suffices hall : (substitute oneLetter s).length ≤ s.length ∧
      (substitute oneLetter s = s → Inert value? s) from hall.2 h
  refine scan_induction (P := fun s => (substitute oneLetter s).length ≤ s.length ∧
    (substitute oneLetter s = s → Inert value? s)) ?nil ?plain ?lone ?doubled ?sign ?word s hs
  case nil => exact ⟨Nat.le_of_eq (congrArg List.length substitute_nil), fun _ => trivial⟩
  case plain =>
    intro c rest hc ⟨hle, ih⟩
    rw [substitute_cons_of_ne hc]
    exact ⟨Nat.succ_le_succ hle, fun heq =>
      ⟨fun hdollar => absurd hdollar hc, ih (List.cons.inj heq).2⟩⟩
  case lone =>
    exact ⟨Nat.le_of_eq (congrArg List.length substitute_lone),
      fun _ => ⟨fun _ => ⟨by simp, by simp⟩, trivial⟩⟩
  case doubled =>
    intro rest ⟨hle, _⟩
    rw [substitute_doubled]
    refine ⟨Nat.succ_le_succ (Nat.le_succ_of_le hle), fun heq => ?_⟩
    rw [(List.cons.inj heq).2] at hle
    exact absurd hle (Nat.not_succ_le_self _)
  case sign =>
    intro c rest hdollar hbrace hbare ⟨hle, ih⟩
    rw [substitute_sign hdollar hbrace hbare]
    refine ⟨Nat.succ_le_succ hle, fun heq => ⟨fun _ => ⟨?_, ?_⟩, ih (List.cons.inj heq).2⟩⟩
    · simpa using hdollar
    · simp [hbare]
  case word =>
    intro rest hword ⟨hle, _⟩
    have hlength : (substitute oneLetter ('$' :: rest)).length < ('$' :: rest).length := by
      have hparts := congrArg List.length
        (List.takeWhile_append_dropWhile (p := isBareChar) (l := rest))
      have hpos := List.length_pos_iff.2 hword
      rw [List.length_append] at hparts
      rw [substitute_word hword, List.length_append, List.length_cons]
      simp only [oneLetter, Option.getD_some, List.length_singleton] at hle ⊢
      omega
    exact ⟨Nat.le_of_lt hlength, fun heq => absurd hlength (by rw [heq]; exact Nat.lt_irrefl _)⟩

theorem Inert.of_concat {t : Text} (h : Inert value? (t ++ ['$'])) :
    Inert value? t ∧ t.getLast? ≠ some '$' := by
  constructor
  · refine inert_iff.2 fun before after heq => ?_
    have hlone : IsLone value? (after ++ ['$']) :=
      inert_iff.1 h before (after ++ ['$']) (by rw [heq]; simp)
    have htake : (after ++ ['$']).takeWhile isBareChar = after.takeWhile isBareChar :=
      (takeWhile_append_of_head? fun _ => isBareChar_dollar).1
    rw [IsLone, htake] at hlone
    refine ⟨fun hhead => hlone.1 ?_, hlone.2⟩
    rw [List.head?_append, hhead, Option.some_or]
  · intro hlast
    obtain ⟨before, rfl⟩ := List.getLast?_eq_some_iff.1 hlast
    exact (inert_iff.1 h before ['$'] (by simp)).1 rfl

/-- What is read alike in every environment is inert, and ends with no dollar sign. -/
theorem inert_of_readAlike {s : Text} (hs : ¬ ['$', '{'] <:+: s)
    (h : ∀ value?, ReadAlike value? s) :
    (∀ value?, Inert value? s) ∧ s.getLast? ≠ some '$' := by
  have hname : IsName ['A'] := ⟨.inl rfl, nofun⟩
  have hvalue : oneLetter ['A'] = some ['x'] := rfl
  obtain ⟨hafter, hbefore⟩ := (h oneLetter).2 ['A'] ['x'] hname hvalue (List.cons_ne_nil _ _)
  have hinert : ∀ value?, Inert value? s := by
    rw [expand_reference_append hs hname hvalue] at hbefore
    exact inert_of_substitute_eq hs (List.append_cancel_left (Except.ok.inj hbefore))
  refine ⟨hinert, fun hlast => ?_⟩
  -- the dollar sign at the end takes away the meaning of the reference
  obtain ⟨t, rfl⟩ := List.getLast?_eq_some_iff.1 hlast
  obtain ⟨ht, htlast⟩ := (hinert oneLetter).of_concat
  have hrest : substitute oneLetter ['{', 'A', '}'] = ['{', 'A', '}'] := by
    rw [← List.append_nil ['{', 'A', '}'], substitute_append (by decide), substitute_nil]
  have hfree : ¬ ['$', '{'] <:+: t := fun hopen => hs (hopen.trans (List.prefix_append _ _).isInfix)
  have hkept : substitute oneLetter (t ++ ['$'] ++ reference ['A']) =
      t ++ '$' :: ['{', 'A', '}'] := by
    calc substitute oneLetter (t ++ ['$'] ++ reference ['A'])
        = substitute oneLetter (t ++ '$' :: '$' :: ['{', 'A', '}']) := by
          rw [List.append_assoc]
          rfl
      _ = t ++ '$' :: ['{', 'A', '}'] := by
          rw [substitute_append_inert hfree ht (fun _ => htlast) fun _ => isBareChar_dollar,
            substitute_doubled, hrest]
  rw [expand_append_reference hs hname hvalue, hkept] at hafter
  have hsame : '$' :: ['{', 'A', '}'] = ['$'] ++ ['x'] :=
    List.append_cancel_left ((Except.ok.inj hafter).trans (List.append_assoc _ _ _))
  cases hsame

/-- **Literal text is read alike exactly where its dollar signs are inert.** A text without a
reference in braces stands for itself. So it does before and after a reference to a variable that is
set, if it ends with no dollar sign and each dollar sign in it is followed by no other one and by no
name of a variable that is set; and only such texts do in every environment. -/
theorem literal_text_is_read_alike {s : Text} (hs : ¬ ['$', '{'] <:+: s) :
    (∀ value?, Inert value? s → s.getLast? ≠ some '$' → ReadAlike value? s) ∧
      ((∀ value?, ReadAlike value? s) → (∀ value?, Inert value? s) ∧ s.getLast? ≠ some '$') :=
  ⟨fun _ hinert hlast => hinert.readAlike hlast hs, inert_of_readAlike hs⟩

/-- A dollar sign before a blank, one before a hyphen, and one before a name that is not set. The
first two are inert in every environment. -/
theorem literal_text_is_read_alike_prices :
    let value? : Text → Option Text := Environment.valueOf? ["A=v".toList]
    let prices := "$ 5, $-5".toList
    let text := prices ++ ", $B ".toList
    (¬ ['$', '{'] <:+: text ∧ Inert value? text ∧ text.getLast? ≠ some '$') ∧
      ReadAlike value? text ∧
      ¬ ['$', '{'] <:+: prices ∧ (∀ value?, ReadAlike value? prices) ∧
        ∀ value?, Inert value? prices := by
  intro value? prices text
  have htext : ¬ ['$', '{'] <:+: text ∧ Inert value? text ∧ text.getLast? ≠ some '$' := by
    decide +kernel
  have hprices : ¬ ['$', '{'] <:+: prices := by
    decide +kernel
  have hinert : ∀ value?, Inert value? prices :=
    inert_of_substitute_eq hprices (by decide +kernel)
  have hread : ∀ value?, ReadAlike value? prices := fun value? =>
    (literal_text_is_read_alike hprices).1 value? (hinert value?) (by decide)
  exact ⟨htext, (literal_text_is_read_alike htext.1).1 value? htext.2.1 htext.2.2, hprices, hread,
    ((literal_text_is_read_alike hprices).2 hread).1⟩

/-- **Dollar signs are not literal next to a reference.** Two stand for one, one before the name of
a variable is a reference, and one before a reference leaves nothing of it but its braces. -/
theorem dollar_signs_are_not_literal :
    let value? : Text → Option Text := Environment.valueOf? ["A=v".toList]
    (expand value? "$$".toList = .ok "$$".toList ∧
        expand value? ("$$".toList ++ reference "A".toList) = .ok "$v".toList) ∧
      (expand value? "$A ".toList = .ok "$A ".toList ∧
        expand value? ("$A ".toList ++ reference "A".toList) = .ok "v v".toList) ∧
      (expand value? "$".toList = .ok "$".toList ∧
        expand value? ("$".toList ++ reference "A".toList) = .ok "$\x7bA\x7d".toList) := by
  decide +kernel

end Variables

end DocSite
