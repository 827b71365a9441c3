import DocSite.Macro.Fence
import Mathlib.Data.List.Induction
import Mathlib.Data.List.TakeWhile
import Mathlib.Tactic.SplitIfs

/-!
# Fences

Which lines open a block and which close it is said here by how they are written
(`Delimiter.Opens`, `Delimiter.Closes`), and which lines leave a block open by how they are put
together (`Fence.Outside`, `Fence.Inside`).

A tracker remembers a character and a length. Of those only some pairs are delimiters, and without a
character the length means nothing; after any lines the two are what a `Fence` says, and that is a
delimiter or nothing. So proofs about lines are about fences.

* `Delimiter.opening?_eq_some_iff`, `Delimiter.isClosedBy_iff` : the lines that open a block, and
  those that close it.
* `Fence.after_eq_none_iff`, `Fence.after_eq_some_iff` : the fence after lines is the delimiter of
  the block that they leave open.
* `FenceTracker.after_eq` : what is remembered of lines is the fence that they leave.
* `FenceTracker.state_is_open_delimiter` : what is remembered is the open delimiter, and what each
  line does.
-/

namespace DocSite

/-! ### Delimiters -/

namespace Delimiter

variable {s : Text} {c : Char} {d : Delimiter} {n : Nat}

/-- A line without blanks at its ends opens a block with a delimiter. A code fence may have a text
after it, which does not start with one more backtick. -/
inductive Opens (d : Delimiter) : Text → Prop
  | block (hchar : d.char ∈ blockChars) (hlength : 4 ≤ d.length) :
    Opens d (List.replicate d.length d.char)
  | code {info : Text} (hchar : d.char = backtick) (hlength : 3 ≤ d.length)
    (hinfo : info.head? ≠ some backtick) : Opens d (List.replicate d.length backtick ++ info)

/-- A line without blanks at its ends closes the block that a delimiter opened: it is the delimiter
again, or for a code fence that or a longer one. -/
inductive Closes (d : Delimiter) : Text → Prop
  | block (hchar : d.char ≠ backtick) : Closes d (List.replicate d.length d.char)
  | code {n : Nat} (hchar : d.char = backtick) (hlength : d.length ≤ n) :
    Closes d (List.replicate n backtick)

theorem runLength_append {rest : Text} (h : rest.head? ≠ some c) :
    runLength c (List.replicate n c ++ rest) = n := by
  have hrest : rest.takeWhile (· = c) = [] := by
    cases rest with
    | nil => rfl
    | cons d rest => exact List.takeWhile_cons_of_neg (by simpa using h)
  have hrun : ∀ d ∈ List.replicate n c, decide (d = c) = true := fun d hd =>
    decide_eq_true (List.eq_of_mem_replicate hd)
  rw [runLength, List.takeWhile_append_of_pos hrun, hrest, List.append_nil, List.length_replicate]

theorem runLength_replicate (c : Char) (n : Nat) : runLength c (List.replicate n c) = n := by
  have hrun : runLength c (List.replicate n c ++ []) = n := runLength_append nofun
  rwa [List.append_nil] at hrun

theorem exists_append_run (c : Char) (s : Text) :
    ∃ rest, s = List.replicate (runLength c s) c ++ rest ∧ rest.head? ≠ some c := by
  induction s with
  | nil => exact ⟨[], rfl, nofun⟩
  | cons d s ih =>
    by_cases hd : d = c
    · obtain ⟨rest, hs, hrest⟩ := ih
      refine ⟨rest, ?_, hrest⟩
      have hrun : runLength c (d :: s) = runLength c s + 1 := by simp [runLength, hd]
      rw [hrun, List.replicate_succ, List.cons_append, ← hs, hd]
    · have hrun : runLength c (d :: s) = 0 := by simp [runLength, hd]
      exact ⟨d :: s, by rw [hrun]; rfl, by simpa using hd⟩

theorem runLength_eq_length_iff : runLength c s = s.length ↔ s = List.replicate s.length c := by
  constructor
  · intro h
    have hall : s.takeWhile (· = c) = s := (List.takeWhile_prefix _).eq_of_length h
    refine List.eq_replicate_iff.2 ⟨rfl, fun d hd => ?_⟩
    simpa using List.takeWhile_eq_self_iff.1 hall d hd
  · intro h
    rw [h, runLength_replicate, List.length_replicate]

theorem opening?_run {rest : Text} (hn : n ≠ 0) (h : rest.head? ≠ some c) :
    opening? (List.replicate n c ++ rest) =
      if c = backtick then (if 3 ≤ n then some ⟨c, n⟩ else none)
      else if c ∈ blockChars ∧ 4 ≤ n ∧ rest = [] then some ⟨c, n⟩ else none := by
  have hrun := runLength_append (n := n) h
  have hwhole : n = (List.replicate n c ++ rest).length ↔ rest = [] := by
    rw [List.length_append, List.length_replicate, ← List.length_eq_zero_iff]
    omega
  obtain ⟨m, rfl⟩ := Nat.exists_eq_succ_of_ne_zero hn
  rw [List.replicate_succ, List.cons_append] at hrun hwhole ⊢
  simp only [opening?, hrun, hwhole, List.contains_iff_mem]

/-- **The lines that open a block.** -/
theorem opening?_eq_some_iff : opening? s = some d ↔ d.Opens s := by
  constructor
  · intro h
    cases s with
    | nil => cases h
    | cons c s =>
      obtain ⟨rest, hs, hrest⟩ := exists_append_run c (c :: s)
      have hn : runLength c (c :: s) ≠ 0 := by simp [runLength]
      generalize runLength c (c :: s) = n at hs hn
      rw [hs] at h ⊢
      rw [opening?_run hn hrest] at h
      split_ifs at h with hbacktick hthree hblock
      · obtain rfl := Option.some.inj h
        subst hbacktick
        exact Opens.code (d := ⟨backtick, n⟩) rfl hthree hrest
      · obtain rfl := Option.some.inj h
        obtain ⟨hchar, hfour, rfl⟩ := hblock
        rw [List.append_nil]
        exact Opens.block (d := ⟨c, n⟩) hchar hfour
  · intro h
    cases h with
    | block hchar hlength =>
      have hbacktick : d.char ≠ backtick := fun h => absurd (h ▸ hchar) (by decide)
      rw [← List.append_nil (List.replicate _ _), opening?_run (by omega) (by simp),
        if_neg hbacktick, if_pos ⟨hchar, hlength, rfl⟩]
    | code hchar hlength hinfo =>
      rw [opening?_run (by omega) hinfo, if_pos rfl, if_pos hlength, ← hchar]

theorem isClosedBy_run (hn : n ≠ 0) :
    d.isClosedBy (List.replicate n d.char) =
      if d.char = backtick then decide (d.length ≤ n) else decide (n = d.length) := by
  simp [isClosedBy, runLength_replicate, hn]

/-- **The lines that close a block.** -/
theorem isClosedBy_iff (hd : d.length ≠ 0) : d.isClosedBy s = true ↔ d.Closes s := by
  constructor
  · intro h
    have hwhole := (Bool.and_eq_true_iff.1 h).1
    obtain ⟨hne, hlength⟩ := Bool.and_eq_true_iff.1 hwhole
    have hs : s = List.replicate s.length d.char :=
      runLength_eq_length_iff.1 (of_decide_eq_true hlength)
    have hn : s.length ≠ 0 := fun hnil =>
      of_decide_eq_true hne (List.length_eq_zero_iff.1 hnil)
    generalize s.length = n at hs hn
    subst hs
    rw [isClosedBy_run hn] at h
    split_ifs at h with hbacktick
    · rw [hbacktick]
      exact .code hbacktick (of_decide_eq_true h)
    · rw [of_decide_eq_true h]
      exact .block hbacktick
  · intro h
    cases h with
    | block hchar => rw [isClosedBy_run hd, if_neg hchar, decide_eq_true rfl]
    | code hchar hlength =>
      rw [← hchar, isClosedBy_run (by omega), if_pos hchar, decide_eq_true hlength]

theorem Opens.length_ne_zero (h : d.Opens s) : d.length ≠ 0 := by
  cases h <;> omega

/-- A line that opens a block starts with backticks, or has one character four times or more. -/
theorem of_opening? (h : opening? s = some d) :
    (d.char = backtick ∧ s.head? = some backtick) ∨
      (d.char ∈ blockChars ∧ 4 ≤ d.length ∧ s = List.replicate d.length d.char) := by
  cases opening?_eq_some_iff.1 h with
  | block hchar hlength => exact .inr ⟨hchar, hlength, rfl⟩
  | code hchar hlength _ =>
    obtain ⟨n, hn⟩ := Nat.exists_eq_succ_of_ne_zero (Nat.ne_zero_of_lt hlength)
    exact .inl ⟨hchar, by rw [hn]; rfl⟩

theorem opening?_cons (hbacktick : c ≠ backtick) (hblock : c ∉ blockChars) (s : Text) :
    opening? (c :: s) = none := by
  simp [opening?, hbacktick, hblock]

/-- The delimiter that is four slashes. -/
def fourSlashes : Delimiter := ⟨'/', 4⟩

theorem opening?_eq_fourSlashes_iff : opening? s = some fourSlashes ↔ s = "////".toList := by
  constructor
  · intro h
    rcases of_opening? h with ⟨hchar, -⟩ | ⟨-, -, hs⟩
    · cases hchar
    · exact hs
  · rintro rfl
    rfl

theorem isClosedBy_fourSlashes_iff :
    fourSlashes.isClosedBy s = true ↔ s = "////".toList := by
  rw [isClosedBy_iff (by decide)]
  constructor
  · intro h
    cases h with
    | block => rfl
    | code hchar => cases hchar
  · rintro rfl
    exact .block (by decide)

end Delimiter

/-! ### Fences -/

/-- The delimiter of the verbatim block that is open, if one is. -/
abbrev Fence := Option Delimiter

namespace Fence

variable {d : Delimiter} {line : Text} {lines inner : List Text}

/-- The fence after a line. -/
def next (f : Fence) (line : Text) : Fence :=
  match f with
  | some d => if d.isClosedBy line.trim then none else some d
  | none => Delimiter.opening? line.trim

/-- The fence after lines. -/
def after (f : Fence) (lines : List Text) : Fence := lines.foldl next f

theorem after_append (f : Fence) (lines rest : List Text) :
    f.after (lines ++ rest) = (f.after lines).after rest :=
  List.foldl_append

/-- What is remembered of lines that leave a fence. -/
def tracker : Fence → FenceTracker
  | some d => ⟨some d.char, d.length⟩
  | none => ⟨none, 0⟩

theorem inFence_tracker (f : Fence) : f.tracker.inFence = f.isSome := by
  cases f <;> rfl

/-- The fence that a tracker remembers. -/
def ofTracker (t : FenceTracker) : Fence := t.char?.map fun c => ⟨c, t.length⟩

theorem ofTracker_tracker (f : Fence) : ofTracker f.tracker = f := by
  cases f <;> rfl

theorem tracker_injective : Function.Injective tracker :=
  Function.LeftInverse.injective ofTracker_tracker

/-- A line is said to be a delimiter exactly if a block is open either before it or after it, and
not both. -/
theorem update_tracker (f : Fence) (line : Text) :
    f.tracker.update line = ((f.next line).tracker, f.isSome != (f.next line).isSome) := by
  cases f with
  | none =>
    rw [tracker, FenceTracker.update, next]
    cases Delimiter.opening? line.trim <;> rfl
  | some d =>
    rw [tracker, FenceTracker.update, next]
    dsimp only
    cases d.isClosedBy line.trim <;> rfl

theorem next_of_isClosedBy (h : d.isClosedBy line.trim = false) : next (some d) line = some d := by
  rw [next, if_neg (ne_true_of_eq_false h)]

theorem after_inside (h : ∀ line ∈ inner, d.isClosedBy line.trim = false) :
    after (some d) inner = some d := by
  induction inner with
  | nil => rfl
  | cons line inner ih =>
    obtain ⟨hline, hinner⟩ := List.forall_mem_cons.1 h
    rw [after, List.foldl_cons, next_of_isClosedBy hline]
    exact ih hinner

/-! ### What lines leave open -/

/-- Lines outside of blocks: lines that open none, and blocks with the lines that close them. -/
inductive Outside : List Text → Prop
  | nil : Outside []
  | plain {before : List Text} {line : Text} (hbefore : Outside before)
    (hline : ∀ d : Delimiter, ¬ d.Opens line.trim) : Outside (before ++ [line])
  | block {before inner : List Text} {opening closing : Text} {d : Delimiter}
    (hbefore : Outside before) (hopening : d.Opens opening.trim)
    (hinner : ∀ line ∈ inner, ¬ d.Closes line.trim) (hclosing : d.Closes closing.trim) :
    Outside (before ++ opening :: inner ++ [closing])

/-- Lines that leave a block open: after lines outside of blocks one of them opens it, and none
after that one closes it. -/
inductive Inside (d : Delimiter) : List Text → Prop
  | intro {before inner : List Text} {opening : Text} (hbefore : Outside before)
    (hopening : d.Opens opening.trim) (hinner : ∀ line ∈ inner, ¬ d.Closes line.trim) :
    Inside d (before ++ opening :: inner)

theorem isClosedBy_eq_false (hd : d.length ≠ 0) (h : ¬ d.Closes line.trim) :
    d.isClosedBy line.trim = false :=
  Bool.eq_false_iff.2 fun hclosed => h ((Delimiter.isClosedBy_iff hd).1 hclosed)

theorem after_block {before : List Text} {opening : Text} (hbefore : after none before = none)
    (hopening : d.Opens opening.trim) (hinner : ∀ line ∈ inner, ¬ d.Closes line.trim) :
    after none (before ++ opening :: inner) = some d := by
  have hnext : next none opening = some d := Delimiter.opening?_eq_some_iff.2 hopening
  rw [after_append, hbefore, after, List.foldl_cons, hnext]
  exact after_inside fun line hline =>
    isClosedBy_eq_false hopening.length_ne_zero (hinner line hline)

theorem Outside.after_eq (h : Outside lines) : after none lines = none := by
  induction h with
  | nil => rfl
  | plain _ hline ih =>
    rw [after_append, ih]
    exact Option.eq_none_iff_forall_ne_some.2 fun d hd =>
      hline d (Delimiter.opening?_eq_some_iff.1 hd)
  | block _ hopening hinner hclosing ih =>
    have hclosed := (Delimiter.isClosedBy_iff hopening.length_ne_zero).2 hclosing
    rw [after_append, after_block ih hopening hinner]
    exact if_pos hclosed

theorem Inside.after_eq (h : Inside d lines) : after none lines = some d := by
  cases h with
  | intro hbefore hopening hinner => exact after_block hbefore.after_eq hopening hinner

theorem Inside.length_ne_zero (h : Inside d lines) : d.length ≠ 0 := by
  cases h with
  | intro _ hopening _ => exact hopening.length_ne_zero

theorem Inside.append (h : Inside d lines) (line : Text) :
    (d.Closes line.trim → Outside (lines ++ [line])) ∧
      (¬ d.Closes line.trim → Inside d (lines ++ [line])) := by
  cases h with
  | intro hbefore hopening hinner =>
    refine ⟨fun hclosing => .block hbefore hopening hinner hclosing, fun hline => ?_⟩
    rw [List.append_assoc, List.cons_append]
    refine .intro hbefore hopening fun l hl => ?_
    rcases List.mem_append.1 hl with hl | hl
    · exact hinner l hl
    · rwa [List.mem_singleton.1 hl]

theorem outside_or_inside (lines : List Text) : Outside lines ∨ ∃ d, Inside d lines := by
  induction lines using List.reverseRecOn with
  | nil => exact .inl .nil
  | append_singleton lines line ih =>
    rcases ih with houtside | ⟨d, hinside⟩
    · by_cases hopens : ∃ d : Delimiter, d.Opens line.trim
      · obtain ⟨d, hd⟩ := hopens
        exact .inr ⟨d, .intro houtside hd (List.forall_mem_nil _)⟩
      · exact .inl (.plain houtside (not_exists.1 hopens))
    · by_cases hcloses : d.Closes line.trim
      · exact .inl ((hinside.append line).1 hcloses)
      · exact .inr ⟨d, (hinside.append line).2 hcloses⟩

/-- **No block is open** exactly after lines outside of blocks. -/
theorem after_eq_none_iff : after none lines = none ↔ Outside lines := by
  refine ⟨fun h => ?_, Outside.after_eq⟩
  rcases outside_or_inside lines with houtside | ⟨d, hinside⟩
  · exact houtside
  · rw [hinside.after_eq] at h
    cases h

/-- **The fence is the delimiter of the block that is open.** -/
theorem after_eq_some_iff : after none lines = some d ↔ Inside d lines := by
  refine ⟨fun h => ?_, Inside.after_eq⟩
  rcases outside_or_inside lines with houtside | ⟨d', hinside⟩
  · rw [houtside.after_eq] at h
    cases h
  · rw [hinside.after_eq] at h
    exact Option.some.inj h ▸ hinside

theorem Inside.append_lines (h : Inside d lines) (hinner : ∀ line ∈ inner, ¬ d.Closes line.trim) :
    Inside d (lines ++ inner) := by
  induction inner generalizing lines with
  | nil =>
    rw [List.append_nil]
    exact h
  | cons line inner ih =>
    obtain ⟨hline, hinner⟩ := List.forall_mem_cons.1 hinner
    rw [List.append_cons]
    exact ih ((h.append line).2 hline) hinner

theorem Inside.next_eq (h : Inside d lines) (line : Text) :
    (d.Closes line.trim → next (some d) line = none) ∧
      (¬ d.Closes line.trim → next (some d) line = some d) :=
  ⟨fun hcloses => if_pos ((Delimiter.isClosedBy_iff h.length_ne_zero).2 hcloses),
    fun hcloses => next_of_isClosedBy (isClosedBy_eq_false h.length_ne_zero hcloses)⟩

end Fence

/-! ### Trackers -/

namespace FenceTracker

open Fence (Inside Outside)

variable {d : Delimiter} {lines : List Text}

/-- What is remembered of lines. -/
def after (lines : List Text) : FenceTracker := lines.foldl (fun t line => (t.update line).1) {}

/-- What is remembered of lines is the fence that they leave. -/
theorem after_eq (lines : List Text) : after lines = (Fence.after none lines).tracker := by
  induction lines using List.reverseRecOn with
  | nil => rfl
  | append_singleton lines line ih =>
    rw [after] at ih ⊢
    rw [List.foldl_append, ih, Fence.after_append, List.foldl_cons, Fence.update_tracker]
    rfl

theorem inFence_after_eq_false_iff : (after lines).inFence = false ↔ Outside lines := by
  rw [after_eq, Fence.inFence_tracker, Option.isSome_eq_false_iff, Option.isNone_iff_eq_none,
    Fence.after_eq_none_iff]

theorem after_eq_iff : after lines = ⟨some d.char, d.length⟩ ↔ Inside d lines := by
  rw [after_eq, ← Fence.after_eq_some_iff]
  exact Fence.tracker_injective.eq_iff (b := some d)

theorem length_after_eq_zero_iff : (after lines).length = 0 ↔ (after lines).inFence = false := by
  rcases Fence.outside_or_inside lines with houtside | ⟨d, hinside⟩
  · rw [after_eq, houtside.after_eq]
    exact iff_of_true rfl rfl
  · rw [after_eq_iff.2 hinside]
    exact iff_of_false hinside.length_ne_zero nofun

theorem update_of_inside (h : Inside d lines) (line : Text) :
    (d.Closes line.trim → (after lines).update line = (⟨none, 0⟩, true)) ∧
      (¬ d.Closes line.trim →
        (after lines).update line = (⟨some d.char, d.length⟩, false)) := by
  rw [after_eq, h.after_eq, Fence.update_tracker]
  obtain ⟨hcloses, hstays⟩ := h.next_eq line
  refine ⟨fun hline => ?_, fun hline => ?_⟩
  · rw [hcloses hline]
    rfl
  · rw [hstays hline]
    rfl

/-- **What is remembered is exactly the open delimiter.** After any lines, the next one is said to
be a delimiter exactly if it opens or closes a block. No block is open exactly after lines outside
of blocks, and only then the length is zero; else the character and the length are those of the line
that opened the block. The first later line that closes a block of this delimiter does so, and no
other line: the same line again, or for a code fence a line of as many backticks or more and nothing
else. -/
theorem state_is_open_delimiter (lines : List Text) :
    (∀ line, ((after lines).update line).2 = true ↔
      ((after lines).update line).1.inFence ≠ (after lines).inFence) ∧
    ((after lines).inFence = false ↔ Outside lines) ∧
    ((after lines).length = 0 ↔ (after lines).inFence = false) ∧
    ∀ d : Delimiter, (after lines = ⟨some d.char, d.length⟩ ↔ Inside d lines) ∧
      (Inside d lines → ∀ later, (∀ line ∈ later, ¬ d.Closes line.trim) →
        after (lines ++ later) = ⟨some d.char, d.length⟩ ∧ ∀ line,
          (d.Closes line.trim → (after (lines ++ later)).update line = (⟨none, 0⟩, true)) ∧
          (¬ d.Closes line.trim →
            (after (lines ++ later)).update line = (⟨some d.char, d.length⟩, false))) := by
  refine ⟨fun line => ?_, inFence_after_eq_false_iff, length_after_eq_zero_iff, fun d =>
    ⟨after_eq_iff, fun h later hlater => ?_⟩⟩
  · rw [after_eq, Fence.update_tracker, Fence.inFence_tracker, Fence.inFence_tracker, bne_iff_ne]
    exact ne_comm
  · have hinside := h.append_lines hlater
    exact ⟨after_eq_iff.2 hinside, update_of_inside hinside⟩

/-- A code fence of four backticks is not closed by a shorter one, by one with a text after it, or
by other delimiters. -/
theorem state_is_open_delimiter_code :
    let lines : List Text := ["----".toList, "```".toList, "----".toList, "````rust".toList]
    let later : List Text := ["```".toList, "`````text".toList, "----".toList]
    Inside ⟨Delimiter.backtick, 4⟩ lines ∧
      (after (lines ++ later)).update "  ``````  ".toList = (⟨none, 0⟩, true) := by
  intro lines later
  obtain ⟨-, -, -, hopen⟩ := state_is_open_delimiter lines
  obtain ⟨hinside, hlater⟩ := hopen ⟨Delimiter.backtick, 4⟩
  have h : Inside ⟨Delimiter.backtick, 4⟩ lines := hinside.1 (by decide)
  have hcloses (line : Text) : (⟨Delimiter.backtick, 4⟩ : Delimiter).Closes line.trim ↔
      Delimiter.isClosedBy ⟨Delimiter.backtick, 4⟩ line.trim = true :=
    (Delimiter.isClosedBy_iff (by decide)).symm
  obtain ⟨-, hline⟩ := hlater h later fun line hline => by
    rw [hcloses]
    revert line
    decide
  exact ⟨h, (hline _).1 ((hcloses _).2 (by decide))⟩

end FenceTracker

end DocSite
