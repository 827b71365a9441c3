import DocSite.Text.Basic

/-!
# Paths

A path is a text. Where it says more than it needs to (`a//b`, `a/./b`), it is kept as it is.

* `Path.join` : a path taken from another one.
* `Path.parent?`, `Path.ancestors` : the paths above a path.
-/

namespace DocSite

/-- A path in a file system. -/
abbrev Path := Text

namespace Path

/-- Whether a path starts at the root. -/
def isAbsolute (p : Path) : Bool := p.head? = some '/'

/-- The path `p` taken from the directory `base`. An absolute path stands for itself. -/
def join (base p : Path) : Path :=
  if isAbsolute p then p
  else if base = [] || base.getLast? = some '/' then base ++ p
  else base ++ '/' :: p

/-- The path `base` with each of the names below it. -/
def below (base : Path) (names : List Text) : Path := names.foldl join base

/-- The path whose characters stand in reverse order, without the slashes and the `.` after a slash
that stand first there, which say nothing. -/
def trimReversed : Text → Text
  | '/' :: c :: rest => trimReversed (c :: rest)
  | '.' :: '/' :: rest => trimReversed ('/' :: rest)
  | s => s
termination_by s => s.length

theorem length_trimReversed (s : Text) : (trimReversed s).length ≤ s.length := by
  fun_induction trimReversed s with
  | case1 c rest ih => exact Nat.le_succ_of_le ih
  | case2 rest ih => exact Nat.le_succ_of_le ih
  | case3 => exact Nat.le_refl _

/-- The path above a path. There is none above the root and above the empty path. -/
def parent? (p : Path) : Option Path :=
  match trimReversed p.reverse with
  | [] => none
  | ['/'] => none
  | _ :: rest => some (trimReversed (rest.dropWhile (· ≠ '/'))).reverse

theorem length_parent? {p q : Path} (h : parent? p = some q) : q.length < p.length := by
  have hp := length_trimReversed p.reverse
  unfold parent? at h
  split at h
  · simp at h
  · simp at h
  · rename_i c rest _ hs
    have hrest := (List.dropWhile_sublist (l := rest) (· ≠ '/')).length_le
    have hq := length_trimReversed (rest.dropWhile (· ≠ '/'))
    simp only [Option.some.injEq] at h
    simp only [hs, List.length_cons, List.length_reverse] at hp
    rw [← h, List.length_reverse]
    omega

/-- A path and the paths above it, the nearest first. -/
def ancestors (p : Path) : List Path :=
  match h : parent? p with
  | some q =>
    have := length_parent? h
    p :: ancestors q
  | none => [p]
termination_by p.length

end Path

end DocSite
