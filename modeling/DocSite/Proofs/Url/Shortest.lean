import DocSite.Proofs.Url.Relative

/-!
# Links are shortest

A segment of a link is a move, into a directory or out of one, unless it is empty or a dot. Of the
links from a page to a target the one that `Url.relative` computes makes the fewest moves.

* `Url.distance_le_push` : a move changes the distance to a target by at most one.
* `Url.distance_le_moveCount` : so a link makes at least as many moves as its target is away.
* `Url.moveCount_relative` : the computed link makes exactly as many.
* `Url.relative_is_shortest` : no link to the target makes fewer.

The distance between two directories is what is left of both after their longest common beginning
(`Url.distance`). Detours need no case of their own: a link that goes down and up again, or up from
the root, where nothing happens, is one move after the other like every link.
-/

namespace DocSite

namespace Url

/-! ### Moves -/

/-- A segment that goes somewhere: up, or down to a name. -/
def IsMove (segment : Text) : Prop := segment ≠ [] ∧ segment ≠ ['.']

instance (segment : Text) : Decidable (IsMove segment) := inferInstanceAs (Decidable (_ ∧ _))

/-- How many moves a link makes. -/
def moveCount (path : Text) : Nat := (path.splitOn '/').countP (IsMove ·)

theorem push_of_not_isMove {segment : Text} (h : ¬ IsMove segment) (reached : List Text) :
    push reached segment = reached := by
  rw [IsMove, ← not_or, not_not] at h
  rw [push, if_pos h]

theorem isMove_of_mem_steps {dir target : List Text} {s : Text} (htarget : ∀ t ∈ target, IsName t)
    (h : s ∈ steps dir target) : IsMove s := by
  rcases eq_dots_or_mem_of_mem_steps h with rfl | h
  · decide
  · exact ⟨(htarget s h).ne_nil, (htarget s h).ne_dot⟩

theorem moveCount_slash (path : Text) : moveCount (path ++ ['/']) = moveCount path := by
  rw [moveCount, List.splitOn_append_cons_self, List.countP_append, ← moveCount]
  rfl

/-! ### Distances -/

/-- How far a target is from a directory: up to the last directory that both share, and down. -/
def distance (dir target : List Text) : Nat :=
  (dropCommon dir target).1.length + (dropCommon dir target).2.length

theorem length_steps (dir target : List Text) :
    (steps dir target).length = distance dir target := by
  simp [steps, distance]

@[simp] theorem distance_nil_left (target : List Text) : distance [] target = target.length := by
  simp [distance, dropCommon]

@[simp] theorem distance_nil_right (dir : List Text) : distance dir [] = dir.length := by
  simp [distance, dropCommon]

@[simp] theorem distance_cons_self (a : Text) (dir target : List Text) :
    distance (a :: dir) (a :: target) = distance dir target := by
  simp [distance, dropCommon]

theorem distance_cons_of_ne {a b : Text} (h : a ≠ b) (dir target : List Text) :
    distance (a :: dir) (b :: target) = dir.length + target.length + 2 := by
  simp only [distance, dropCommon, if_neg h, List.length_cons]
  omega

theorem distance_self (dir : List Text) : distance dir dir = 0 := by
  induction dir with
  | nil => rfl
  | cons a dir ih => rw [distance_cons_self, ih]

/-- A directory and one right below it are at most one move apart, seen from any target. -/
theorem distance_concat (dir target : List Text) (s : Text) :
    distance dir target ≤ distance (dir ++ [s]) target + 1 ∧
      distance (dir ++ [s]) target ≤ distance dir target + 1 := by
  induction dir generalizing target with
  | nil =>
    cases target with
    | nil => simp
    | cons b target =>
      by_cases hs : s = b
      · simp [hs]
        omega
      · simp [distance_cons_of_ne hs]
  | cons a dir ih =>
    cases target with
    | nil => simp
    | cons b target =>
      by_cases hab : a = b
      · simpa [hab] using ih target
      · simp [distance_cons_of_ne hab]
        omega

/-- **A move changes the distance to a target by at most one**, and what is no move leaves it. -/
theorem distance_le_push (reached target : List Text) (s : Text) :
    distance reached target ≤
      distance (push reached s) target + if IsMove s then 1 else 0 := by
  by_cases hmove : IsMove s
  · rw [if_pos hmove]
    by_cases hup : s = ['.', '.']
    · rw [hup, push_dots]
      -- up from the root leads to the root
      rcases List.eq_nil_or_concat reached with rfl | ⟨dir, last, rfl⟩
      · exact Nat.le_succ _
      · rw [List.concat_eq_append, List.dropLast_concat]
        exact (distance_concat dir target last).2
    · have hpush : push reached s = reached ++ [s] := by
        simp [push, hup, hmove.1, hmove.2]
      rw [hpush]
      exact (distance_concat reached target s).1
  · rw [push_of_not_isMove hmove]
    exact Nat.le_add_right _ _

theorem distance_le_countP (parts reached : List Text) :
    distance reached (parts.foldl push reached) ≤ parts.countP (IsMove ·) := by
  induction parts generalizing reached with
  | nil => exact Nat.le_of_eq (distance_self reached)
  | cons s parts ih =>
    simp only [List.foldl_cons, List.countP_cons, decide_eq_true_eq]
    calc distance reached (parts.foldl push (push reached s))
        ≤ distance (push reached s) (parts.foldl push (push reached s)) +
            if IsMove s then 1 else 0 := distance_le_push _ _ s
      _ ≤ parts.countP (IsMove ·) + if IsMove s then 1 else 0 :=
          Nat.add_le_add_right (ih _) _

/-- A link makes at least as many moves as the place that it leads to is away. -/
theorem distance_le_moveCount (page path : Text) :
    distance (segments (directory page)) (resolve page path) ≤ moveCount path := by
  rw [resolve_eq]
  exact distance_le_countP _ _

/-! ### The computed link -/

theorem moveCount_link {dir target : List Text} (htarget : ∀ s ∈ target, IsName s) :
    moveCount (link dir target) = distance dir target := by
  rw [moveCount, splitOn_link htarget, ← length_steps]
  split_ifs with hsteps
  · -- the dot that stands for no steps is no move
    rw [hsteps]
    rfl
  · exact List.countP_eq_length.2 fun s hs => decide_eq_true (isMove_of_mem_steps htarget hs)

/-- The computed link to another page makes as many moves as its target is away. -/
theorem moveCount_relative {page target : Text} (hne : target ≠ page)
    (hroot : target.head? = some '/') :
    moveCount (relative page target []) =
      distance (segments (directory page)) (segments target) := by
  have hlink : moveCount (link (segments (directory page)) (segments target)) =
      distance (segments (directory page)) (segments target) :=
    moveCount_link fun _ => isName_of_mem_segments
  rw [relative_eq_link hne hroot, List.append_nil]
  split_ifs
  · rw [moveCount_slash, hlink]
  · rw [List.append_nil, hlink]

/-- **A computed link is a shortest one.** For every page and every other root-relative target the
link leads to the target, and every text that leads there from the page, however it goes up and
down, makes at least as many moves. -/
theorem relative_is_shortest {page target : Text} (hne : target ≠ page)
    (hroot : target.head? = some '/') :
    LeadsTo page (relative page target []) target ∧
      ∀ path, Reaches page path target →
        moveCount (relative page target []) ≤ moveCount path := by
  constructor
  · rw [relative_eq_link hne hroot, List.append_nil]
    exact leadsTo_link
  · intro path hpath
    rw [moveCount_relative hne hroot, ← reaches_iff.1 hpath]
    exact distance_le_moveCount page path

/-- From a page below a dot to a directory above it, against a way past the root. -/
theorem relative_is_shortest_above_root :
    "/a/".toList ≠ "/a/./b/x/../c.html".toList ∧ "/a/".toList.head? = some '/' ∧
      LeadsTo "/a/./b/x/../c.html".toList
        (relative "/a/./b/x/../c.html".toList "/a/".toList []) "/a/".toList ∧
      Reaches "/a/./b/x/../c.html".toList "../../../y/../a/.".toList "/a/".toList ∧
      moveCount (relative "/a/./b/x/../c.html".toList "/a/".toList []) ≤
        moveCount "../../../y/../a/.".toList :=
  ⟨by decide, by decide, (relative_is_shortest (by decide) (by decide)).1,
    reaches_iff.2 (by decide),
    (relative_is_shortest (by decide) (by decide)).2 _ (reaches_iff.2 (by decide))⟩

-- A page that is linked from itself is named, and the name may be a detour.
example : relative "/..".toList "/..".toList [] = "..".toList ∧
    resolve "/..".toList ".".toList = segments "/..".toList ∧
    moveCount ".".toList < moveCount "..".toList := by decide

end Url

end DocSite
