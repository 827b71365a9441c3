import DocSite.Macro.Outline
import DocSite.Proofs.Macro.Fence

/-!
# Outlines

What the place of a line means follows from the lines before it: the fence that they leave open, the
level of the section, and their number.

* `outlineFrom_append` : what follows lines is seen from the fence and the section that they leave
  open.
* `map_text_outlineFrom` : an outline has the lines of the source in their order.
-/

namespace DocSite

/-- The lines that follow after a fence in a section of the level `level`, from a number on. -/
def outlineFrom (fence : Fence) (level number : Nat) (lines : List Text) : List SourceLine :=
  linesFrom fence.tracker level number lines

theorem outline_eq (level : Nat) (s : Text) : outline level s = outlineFrom none level 1 s.lines :=
  rfl

/-- Whether a line after a fence is verbatim. -/
def isVerbatim (fence : Fence) (line : Text) : Bool :=
  fence.isSome || (fence.next line).isSome || isCommentLine line

/-- The level of the section that a line stands in, or opens. -/
def levelAt (fence : Fence) (level : Nat) (line : Text) : Nat :=
  if isVerbatim fence line then level else (headingLevel? line).getD level

/-- The level of the section that is open after lines. -/
def levelAfter (fence : Fence) (level : Nat) : List Text → Nat
  | [] => level
  | line :: rest => levelAfter (fence.next line) (levelAt fence level line) rest

section

variable {fence : Fence} {level number : Nat} {line : Text} {lines : List Text}

/-- A line that is a delimiter, or that leaves a block open, belongs to a block. -/
theorem isVerbatim_eq (fence : Fence) (line : Text) :
    ((fence.isSome != (fence.next line).isSome) || (fence.next line).isSome ||
      isCommentLine line) = isVerbatim fence line := by
  rw [isVerbatim]
  cases fence.isSome <;> cases (fence.next line).isSome <;> rfl

theorem outlineFrom_nil : outlineFrom fence level number [] = [] := rfl

theorem outlineFrom_cons :
    outlineFrom fence level number (line :: lines) =
      ⟨number, levelAt fence level line, isVerbatim fence line, line⟩ ::
        outlineFrom (fence.next line) (levelAt fence level line) (number + 1) lines := by
  rw [outlineFrom, linesFrom, Fence.update_tracker]
  dsimp only
  rw [Fence.inFence_tracker, isVerbatim_eq, levelAt]
  cases isVerbatim fence line <;> rfl

/-- What follows lines is seen from the fence and the section that they leave open. -/
theorem outlineFrom_append {rest : List Text} :
    outlineFrom fence level number (lines ++ rest) =
      outlineFrom fence level number lines ++
        outlineFrom (fence.after lines) (levelAfter fence level lines) (number + lines.length)
          rest := by
  induction lines generalizing fence level number with
  | nil => rfl
  | cons line lines ih =>
    have hnumber : number + (line :: lines).length = number + 1 + lines.length := by
      rw [List.length_cons]
      omega
    rw [List.cons_append, outlineFrom_cons, outlineFrom_cons, ih, hnumber]
    rfl

theorem map_text_outlineFrom : (outlineFrom fence level number lines).map (·.text) = lines := by
  induction lines generalizing fence level number with
  | nil => rfl
  | cons line lines ih => rw [outlineFrom_cons, List.map_cons, ih]

theorem length_outlineFrom : (outlineFrom fence level number lines).length = lines.length := by
  rw [← List.length_map, map_text_outlineFrom]

end

end DocSite
