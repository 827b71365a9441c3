import DocSite.Proofs.Macro.Outline
import DocSite.Proofs.Macro.Record

/-!
# Verbatim text

The lines of a verbatim block go into the output as they are, and nothing that follows them depends
on what they say: only the line that closes the block ends it.

* `outlineFrom_block` : the lines of a block that is not closed are verbatim, and it is still open
  after them.
* `Processor.process_eq_expandAround` : a pass over a document with a block is a part that knows the
  number of lines in the block alone, and then the output is put together.
* `Processor.verbatim_text_is_inert` : documents that differ only in such lines are passed over with
  the same calls, and the same failure or outputs that differ only in those lines.
-/

namespace DocSite

/-! ### Lines of a block -/

section

variable {d : Delimiter} {level number : Nat} {line opening : Text} {inner : List Text}

theorem isVerbatim_of_opening? (h : Delimiter.opening? opening.trim = some d) :
    isVerbatim none opening = true := by
  have hnext : Fence.next none opening = some d := h
  rw [isVerbatim, hnext]
  rfl

theorem levelAfter_inside (level : Nat) (h : ∀ line ∈ inner, d.isClosedBy line.trim = false) :
    levelAfter (some d) level inner = level := by
  induction inner with
  | nil => rfl
  | cons line inner ih =>
    obtain ⟨hline, hinner⟩ := List.forall_mem_cons.1 h
    have hlevel : levelAt (some d) level line = level := if_pos rfl
    rw [levelAfter, Fence.next_of_isClosedBy hline, hlevel]
    exact ih hinner

theorem verbatim_of_inside (h : ∀ line ∈ inner, d.isClosedBy line.trim = false) :
    ∀ line ∈ outlineFrom (some d) level number inner, line.verbatim = true := by
  induction inner generalizing number with
  | nil => exact List.forall_mem_nil _
  | cons line inner ih =>
    obtain ⟨hline, hinner⟩ := List.forall_mem_cons.1 h
    have hlevel : levelAt (some d) level line = level := if_pos rfl
    rw [outlineFrom_cons, Fence.next_of_isClosedBy hline, hlevel]
    exact List.forall_mem_cons.2 ⟨rfl, ih hinner⟩

/-- A block that is not closed: its lines are verbatim, and it is still open after them. -/
theorem outlineFrom_block (level number : Nat)
    (hopening : Delimiter.opening? opening.trim = some d)
    (hinner : ∀ line ∈ inner, d.isClosedBy line.trim = false) :
    (∀ line ∈ outlineFrom none level number (opening :: inner), line.verbatim = true) ∧
      ∀ rest, outlineFrom none level number (opening :: inner ++ rest) =
        outlineFrom none level number (opening :: inner) ++
          outlineFrom (some d) level (number + (inner.length + 1)) rest := by
  have hnext : Fence.next none opening = some d := hopening
  have hlevel : levelAt none level opening = level := if_pos (isVerbatim_of_opening? hopening)
  have hfence := Fence.after_inside hinner
  have hsection := levelAfter_inside level hinner
  constructor
  · rw [outlineFrom_cons, hnext, hlevel]
    exact List.forall_mem_cons.2 ⟨isVerbatim_of_opening? hopening, verbatim_of_inside hinner⟩
  · intro rest
    rw [outlineFrom_append, Fence.after, List.foldl_cons, levelAfter, hnext, hlevel, hsection]
    rw [Fence.after] at hfence
    rw [hfence, List.length_cons]

end

/-! ### Passes -/

namespace Processor

variable {σ ε : Type} (p : Processor σ ε) {before after inner : List Text} {opening : Text}
  {d : Delimiter}

/-- The pass over a line of a document. -/
def expandOuter (line : SourceLine) : Pass σ ε Text :=
  p.expandLine (p.expandText p.maxDepth 1) 0 line

theorem mapM_expandOuter_verbatim {lines : List SourceLine}
    (h : ∀ line ∈ lines, line.verbatim = true) :
    lines.mapM p.expandOuter = pure (lines.map (·.text)) := by
  induction lines with
  | nil => rfl
  | cons line lines ih =>
    obtain ⟨hline, hlines⟩ := List.forall_mem_cons.1 h
    rw [List.mapM_cons, expandOuter, expandLine, if_pos hline, ih hlines, pure_bind, pure_bind]
    rfl

/-- The pass over the lines before and after a block of `count` lines with the delimiter `d`. -/
def expandAround (before after : List Text) (d : Delimiter) (count : Nat) :
    Pass σ ε (List Text × List Text) := do
  let leading ← (outlineFrom none 0 1 before).mapM p.expandOuter
  let trailing ← (outlineFrom (some d) (levelAfter none 0 before)
    (1 + before.length + (count + 1)) after).mapM p.expandOuter
  return (leading, trailing)

theorem length_of_expandAround {count : Nat} {st st' : σ} {leading trailing : List Text}
    (h : outcome (p.expandAround before after d count) st = (.ok (leading, trailing), st')) :
    leading.length = before.length ∧ trailing.length = after.length := by
  obtain ⟨_, between, hleading, h⟩ := outcome_bind_eq_ok.1 h
  obtain ⟨_, last, htrailing, h⟩ := outcome_bind_eq_ok.1 h
  cases h
  exact ⟨(length_of_outcome_mapM hleading).trans length_outlineFrom,
    (length_of_outcome_mapM htrailing).trans length_outlineFrom⟩

/-- **A pass does not look into a block.** It is the pass over the lines around the block, and then
the output is put together. -/
theorem process_eq_expandAround {s : Text} (hlines : s.lines = before ++ opening :: inner ++ after)
    (houtside : Fence.after none before = none)
    (hopening : Delimiter.opening? opening.trim = some d)
    (hinner : ∀ line ∈ inner, d.isClosedBy line.trim = false) :
    p.process s = (fun parts : List Text × List Text =>
      Text.unlines s.endsWithNewline (parts.1 ++ opening :: inner ++ parts.2)) <$>
        p.expandAround before after d inner.length := by
  obtain ⟨hverbatim, hblock⟩ := outlineFrom_block (levelAfter none 0 before)
    (1 + before.length) hopening hinner
  have houtline : outline 0 s = outlineFrom none 0 1 before ++
      (outlineFrom none (levelAfter none 0 before) (1 + before.length) (opening :: inner) ++
        outlineFrom (some d) (levelAfter none 0 before)
          (1 + before.length + (inner.length + 1)) after) := by
    rw [outline_eq, hlines, List.append_assoc, outlineFrom_append, houtside, hblock]
  have hprocess : p.process s = (outline 0 s).mapM p.expandOuter >>= fun done =>
      pure (Text.unlines s.endsWithNewline done) := rfl
  rw [hprocess, houtline, List.mapM_append, List.mapM_append, mapM_expandOuter_verbatim p hverbatim,
    map_text_outlineFrom, expandAround]
  simp only [map_eq_pure_bind, bind_assoc, pure_bind, List.append_assoc]

/-- Two documents differ at most in the lines `inner` and `inner'` of a verbatim block, as many in
the one as in the other, which the line `opening` opens and none of them closes. -/
structure DifferWithin (before : List Text) (opening : Text) (inner inner' after : List Text)
    (s t : Text) : Prop where
  lines_left : s.lines = before ++ opening :: inner ++ after
  lines_right : t.lines = before ++ opening :: inner' ++ after
  length_eq : inner.length = inner'.length
  outside : Fence.after none before = none
  inside : ∃ d, Delimiter.opening? opening.trim = some d ∧
    (∀ line ∈ inner, d.isClosedBy line.trim = false) ∧
      ∀ line ∈ inner', d.isClosedBy line.trim = false

theorem DifferWithin.state_eq {inner' : List Text} {s t : Text}
    (h : DifferWithin before opening inner inner' after s t) (st : σ) :
    (outcome (p.process s) st).2 = (outcome (p.process t) st).2 := by
  obtain ⟨d, hopening, hinner, hinner'⟩ := h.inside
  rw [p.process_eq_expandAround h.lines_left h.outside hopening hinner,
    p.process_eq_expandAround h.lines_right h.outside hopening hinner', ← h.length_eq,
    outcome_map, outcome_map]

/-- **Verbatim text cannot influence a pass.** In documents that differ only in lines of a verbatim
block the same handlers are called in the same order with the same macros, lines and levels, and
leave the same state. Either both passes fail with the same error, or both succeed, and what they
give is the same but for these lines, which stand in it as they are. -/
theorem verbatim_text_is_inert {inner' : List Text} {s t : Text} (st : σ)
    (h : DifferWithin before opening inner inner' after s t) :
    p.calls s st = p.calls t st ∧
      (outcome (p.process s) st).2 = (outcome (p.process t) st).2 ∧
      ((∃ e, (outcome (p.process s) st).1 = .error e ∧ (outcome (p.process t) st).1 = .error e) ∨
        ∃ leading trailing : List Text,
          leading.length = before.length ∧ trailing.length = after.length ∧
          (outcome (p.process s) st).1 =
            .ok (Text.unlines s.endsWithNewline (leading ++ opening :: inner ++ trailing)) ∧
          (outcome (p.process t) st).1 =
            .ok (Text.unlines t.endsWithNewline (leading ++ opening :: inner' ++ trailing))) := by
  have hcalls : p.calls s st = p.calls t st :=
    congrArg Prod.snd (h.state_eq p.recording (st, []))
  refine ⟨hcalls, h.state_eq p st, ?_⟩
  obtain ⟨d, hopening, hinner, hinner'⟩ := h.inside
  rw [p.process_eq_expandAround h.lines_left h.outside hopening hinner,
    p.process_eq_expandAround h.lines_right h.outside hopening hinner', ← h.length_eq,
    outcome_map, outcome_map]
  cases haround : outcome (p.expandAround before after d inner.length) st with
  | mk result st' =>
    cases result with
    | error e => exact .inl ⟨e, rfl, rfl⟩
    | ok parts =>
      obtain ⟨hleading, htrailing⟩ := p.length_of_expandAround haround
      exact .inr ⟨parts.1, parts.2, hleading, htrailing, rfl, rfl⟩

/-- A macro in a listing and a heading in its place. -/
theorem verbatim_text_is_inert_listing :
    let key : InlineHandler Nat := ⟨"key".toList, fun call count =>
      (.text call.target, count + call.level + 1)⟩
    let p : Processor Nat Text := ⟨[key], [], 10⟩
    let s : Text := "key:a[]\n----\nkey:b[]\n----\nkey:c[]\n".toList
    let t : Text := "key:a[]\n----\n=== b\n----\nkey:c[]\n".toList
    DifferWithin ["key:a[]".toList] "----".toList ["key:b[]".toList] ["=== b".toList]
        ["----".toList, "key:c[]".toList] s t ∧
      p.calls s 0 = p.calls t 0 ∧ (outcome (p.process s) 0).2 = (outcome (p.process t) 0).2 := by
  intro key p s t
  have hdiffer : DifferWithin ["key:a[]".toList] "----".toList ["key:b[]".toList]
      ["=== b".toList] ["----".toList, "key:c[]".toList] s t :=
    ⟨by decide, by decide, rfl, by decide, ⟨'-', 4⟩, by decide, by decide, by decide⟩
  obtain ⟨hcalls, hstate, -⟩ := verbatim_text_is_inert p 0 hdiffer
  exact ⟨hdiffer, hcalls, hstate⟩

end Processor

end DocSite
