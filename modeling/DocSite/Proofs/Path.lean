import DocSite.Path
import Mathlib.Data.List.Basic
import Mathlib.Data.List.Infix
import Mathlib.Tactic.SplitIfs

/-!
# The paths above and below a path

What an absolute path says are the names between its slashes; slashes that follow each other and
dots say nothing. The path above it is cut from its end and has one name less, so the paths above a
path are as many as its names, and the root is the last. A path below it is reached name by name.

* `Path.names` : the names on an absolute path.
* `Path.names_parent?` : the path above a path lacks its last name, and the root has none above it.
* `Path.map_names_ancestors` : the names on the paths above a path are all beginnings of its names.
* `Path.names_join` : a file in a directory has one name more.
* `Path.isBelow_iff` : the path below a directory that some names lead to.
-/

namespace DocSite

namespace Path

variable {p q : Path}

/-! ### Names -/

/-- The names on an absolute path, from the root on. -/
def names (p : Path) : List Text := (p.splitOn '/').filter fun s => s ≠ [] ∧ s ≠ ['.']

theorem names_append_slash (a b : Path) : names (a ++ '/' :: b) = names a ++ names b := by
  rw [names, List.splitOn_append_cons_self, List.filter_append, ← names, ← names]

@[simp] theorem names_nil : names [] = [] := rfl

theorem names_append_singleton (p : Path) : names (p ++ ['/']) = names p := by
  rw [names_append_slash, names_nil, List.append_nil]

theorem names_of_not_mem {s : Text} (hslash : '/' ∉ s) (hnil : s ≠ []) (hdot : s ≠ ['.']) :
    names s = [s] := by
  rw [names, List.splitOn_eq_singleton hslash]
  simp [hnil, hdot]

/-! ### The end of a path -/

theorem trimReversed_isSuffix (s : Text) : trimReversed s <:+ s := by
  fun_induction trimReversed s with
  | case1 c rest ih => exact ih.trans (List.suffix_cons _ _)
  | case2 rest ih => exact ih.trans (List.suffix_cons _ _)
  | case3 => exact List.suffix_rfl

theorem trimReversed_ne_nil {s : Text} (h : s ≠ []) : trimReversed s ≠ [] := by
  fun_induction trimReversed s with
  | case1 c rest ih => exact ih (List.cons_ne_nil _ _)
  | case2 rest ih => exact ih (List.cons_ne_nil _ _)
  | case3 => exact h

/-- Slashes and dots that are taken from the end of a path say nothing. -/
theorem names_trimReversed (s : Text) : names (trimReversed s).reverse = names s.reverse := by
  fun_induction trimReversed s with
  | case1 c rest ih =>
    have hslash : ('/' :: c :: rest).reverse = (c :: rest).reverse ++ ['/'] := List.reverse_cons
    rw [ih, hslash, names_append_singleton]
  | case2 rest ih =>
    have hslash : ('/' :: rest).reverse = rest.reverse ++ ['/'] := List.reverse_cons
    have hdot : ('.' :: '/' :: rest).reverse = rest.reverse ++ '/' :: ['.'] := by simp
    rw [ih, hslash, hdot, names_append_slash, names_append_slash]
    rfl
  | case3 => rfl

theorem trimReversed_cons {s rest : Text} {c : Char} (h : trimReversed s = c :: rest)
    (hrest : rest ≠ []) : c ≠ '/' ∧ (c = '.' → rest.head? ≠ some '/') := by
  fun_induction trimReversed s with
  | case1 c rest ih => exact ih h
  | case2 rest ih => exact ih h
  | case3 s hslash hdot =>
    subst h
    obtain ⟨d, rest, rfl⟩ := List.exists_cons_of_ne_nil hrest
    constructor
    · rintro rfl
      exact hslash d rest rfl
    · rintro rfl hhead
      obtain rfl := Option.some.inj hhead
      exact hdot rest rfl

/-! ### The path above a path -/

theorem isAbsolute_iff : isAbsolute p = true ↔ p.reverse.getLast? = some '/' := by
  rw [isAbsolute, decide_eq_true_eq, List.getLast?_reverse]

theorem getLast?_of_isSuffix {s t : Text} (h : s <:+ t) (hne : s ≠ [])
    (ht : t.getLast? = some '/') : s.getLast? = some '/' := by
  obtain ⟨front, rfl⟩ := h
  rwa [List.getLast?_append_of_ne_nil _ hne] at ht

theorem parent?_root (h : trimReversed p.reverse = ['/']) : parent? p = none := by
  simp [parent?, h]

theorem parent?_below {c : Char} {word up : Text}
    (h : trimReversed p.reverse = c :: (word ++ '/' :: up)) (hword : '/' ∉ word) :
    parent? p = some (trimReversed ('/' :: up)).reverse := by
  have hdrop : (word ++ '/' :: up).dropWhile (· ≠ '/') = '/' :: up := by
    rw [List.dropWhile_append_of_pos, List.dropWhile_cons_of_neg (by simp)]
    intro d hd
    simpa using fun heq : d = '/' => hword (heq ▸ hd)
  obtain ⟨d, rest, hrest⟩ : ∃ d rest, word ++ '/' :: up = d :: rest :=
    List.exists_cons_of_ne_nil (by simp)
  rw [hrest] at h hdrop
  simp only [parent?, h, hdrop]

theorem names_below {c : Char} {word : Text} (up : Text) (hslash : c ≠ '/')
    (hdot : c = '.' → word ≠ []) (hword : '/' ∉ word) :
    names (c :: (word ++ '/' :: up)).reverse =
      names (trimReversed ('/' :: up)).reverse ++ [(c :: word).reverse] := by
  have hname : names (c :: word).reverse = [(c :: word).reverse] := by
    refine names_of_not_mem ?_ (by simp) fun hdotName => ?_
    · rw [List.mem_reverse, List.mem_cons, not_or]
      exact ⟨fun heq => hslash heq.symm, hword⟩
    · obtain ⟨rfl, rfl⟩ := List.cons.inj (List.reverse_eq_iff.1 hdotName)
      exact hdot rfl rfl
  have hup : ('/' :: up).reverse = up.reverse ++ ['/'] := List.reverse_cons
  calc names (c :: (word ++ '/' :: up)).reverse
      = names (up.reverse ++ '/' :: (c :: word).reverse) := by simp
    _ = names up.reverse ++ [(c :: word).reverse] := by rw [names_append_slash, hname]
    _ = names (trimReversed ('/' :: up)).reverse ++ [(c :: word).reverse] := by
      rw [names_trimReversed, hup, names_append_singleton]

/-- **There is no path above the root, and every other path has one name more than the path above
it**, which it starts with. -/
theorem names_parent? (h : isAbsolute p = true) :
    (parent? p = none ∧ names p = []) ∨
      ∃ q name, parent? p = some q ∧ isAbsolute q = true ∧ q <+: p ∧
        names p = names q ++ [name] := by
  have hlast := isAbsolute_iff.1 h
  have hsuffix := trimReversed_isSuffix p.reverse
  have hnames := names_trimReversed p.reverse
  rw [List.reverse_reverse] at hnames
  have hne : trimReversed p.reverse ≠ [] := by
    refine trimReversed_ne_nil fun hnil => ?_
    rw [hnil] at hlast
    cases hlast
  obtain ⟨c, rest, ht⟩ := List.exists_cons_of_ne_nil hne
  have htlast := getLast?_of_isSuffix hsuffix hne hlast
  rw [ht] at hnames hsuffix htlast
  by_cases hrest : rest = []
  · -- nothing is left but the slash that the path starts with
    subst hrest
    obtain rfl := Option.some.inj htlast
    exact .inl ⟨parent?_root ht, hnames.symm⟩
  · obtain ⟨hslash, hdot⟩ := trimReversed_cons ht hrest
    have hmem : '/' ∈ rest :=
      List.mem_of_getLast? (getLast?_of_isSuffix (List.suffix_cons c rest) hrest htlast)
    -- the last name in reverse order, the slash before it, and the path above
    obtain ⟨word, up, rfl, hword⟩ := List.eq_append_cons_of_mem hmem
    have hup : '/' :: up <:+ p.reverse :=
      ((List.suffix_append word _).trans (List.suffix_cons c _)).trans hsuffix
    have hupNe : trimReversed ('/' :: up) ≠ [] := trimReversed_ne_nil (List.cons_ne_nil _ _)
    have hq := (trimReversed_isSuffix ('/' :: up)).trans hup
    refine .inr ⟨_, (c :: word).reverse, parent?_below ht hword, ?_, ?_, ?_⟩
    · rw [isAbsolute_iff, List.reverse_reverse]
      exact getLast?_of_isSuffix hq hupNe hlast
    · rwa [← List.reverse_suffix, List.reverse_reverse]
    · rw [← hnames, names_below up hslash _ hword]
      rintro hc rfl
      exact hdot hc rfl

/-! ### All paths above a path -/

theorem ancestors_of_none (h : parent? p = none) : ancestors p = [p] := by
  rw [ancestors]
  split
  · rename_i q hq
    rw [h] at hq
    cases hq
  · rfl

theorem ancestors_of_some (h : parent? p = some q) : ancestors p = p :: ancestors q := by
  rw [ancestors]
  split
  · rename_i q' hq
    obtain rfl := Option.some.inj (h.symm.trans hq)
    rfl
  · rename_i hnone
    rw [h] at hnone
    cases hnone

theorem head?_ancestors (p : Path) : (ancestors p).head? = some p := by
  cases h : parent? p with
  | none => rw [ancestors_of_none h, List.head?_cons]
  | some q => rw [ancestors_of_some h, List.head?_cons]

/-- **The names on the paths above a path are the beginnings of its names**, from all of them to
none, which is the root. -/
theorem map_names_ancestors (h : isAbsolute p = true) :
    (ancestors p).map names = (names p).inits.reverse := by
  induction hn : p.length using Nat.strongRecOn generalizing p with
  | ind n ih =>
    rcases names_parent? h with ⟨hnone, hroot⟩ | ⟨q, name, hparent, hq, -, hnames⟩
    · rw [ancestors_of_none hnone, hroot]
      simp [hroot]
    · have hrec := ih q.length (hn ▸ length_parent? hparent) hq rfl
      rw [ancestors_of_some hparent, List.map_cons, hrec, hnames, List.inits_append]
      simp

/-- A path and those above it are where the path starts. -/
theorem isPrefix_of_mem_ancestors (h : isAbsolute p = true) (hq : q ∈ ancestors p) :
    isAbsolute q = true ∧ q <+: p := by
  induction hn : p.length using Nat.strongRecOn generalizing p with
  | ind n ih =>
    rcases names_parent? h with ⟨hnone, -⟩ | ⟨above, name, hparent, habove, hstart, -⟩
    · rw [ancestors_of_none hnone, List.mem_singleton] at hq
      subst hq
      exact ⟨h, List.prefix_rfl⟩
    · rw [ancestors_of_some hparent, List.mem_cons] at hq
      rcases hq with rfl | hq
      · exact ⟨h, List.prefix_rfl⟩
      · obtain ⟨habsolute, hmem⟩ := ih above.length (hn ▸ length_parent? hparent) habove hq rfl
        exact ⟨habsolute, hmem.trans hstart⟩

/-! ### Files in a directory -/

/-- A file in a directory has the names of the directory and its own. -/
theorem names_join {dir : Path} {name : Text} (hdir : isAbsolute dir = true)
    (hname : isAbsolute name = false) : names (dir.join name) = names dir ++ names name := by
  have hne : dir ≠ [] := by
    rintro rfl
    cases hdir
  rw [join, hname, if_neg Bool.false_ne_true]
  by_cases hslash : dir.getLast? = some '/'
  · obtain ⟨above, rfl⟩ := List.getLast?_eq_some_iff.1 hslash
    rw [if_pos (by simp), names_append_singleton, List.append_assoc]
    exact names_append_slash above name
  · rw [if_neg (by simp [hne, hslash]), names_append_slash]

/-! ### Paths below a directory -/

/-- `q` is where the path `name` leads from a directory: `name` follows the directory after one
slash, or without one if the directory is empty or ends with a slash. An absolute path leads where
it leads from the root. -/
inductive LeadsFrom (dir name : Path) : Path → Prop
  | absolute (h : name.head? = some '/') : LeadsFrom dir name name
  | append (h : name.head? ≠ some '/') (hdir : dir = [] ∨ dir.getLast? = some '/') :
      LeadsFrom dir name (dir ++ name)
  | slash (h : name.head? ≠ some '/') (hne : dir ≠ []) (hdir : dir.getLast? ≠ some '/') :
      LeadsFrom dir name (dir ++ '/' :: name)

theorem leadsFrom_iff {dir name : Path} : LeadsFrom dir name q ↔ q = dir.join name := by
  constructor
  · rintro (h | ⟨h, hdir⟩ | ⟨h, hne, hdir⟩)
    · simp [join, isAbsolute, h]
    · simp [join, isAbsolute, h, hdir]
    · simp [join, isAbsolute, h, hne, hdir]
  · rintro rfl
    unfold join isAbsolute
    split_ifs with habsolute hdir
    · exact .absolute (of_decide_eq_true habsolute)
    · exact .append (by simpa using habsolute) (by simpa using hdir)
    · obtain ⟨hne, hlast⟩ := not_or.1 (by simpa using hdir)
      exact .slash (by simpa using habsolute) hne hlast

/-- Names lead one after the other from a directory to `q`. -/
inductive IsBelow : (dir : Path) → (names : List Text) → (q : Path) → Prop
  | self (dir : Path) : IsBelow dir [] dir
  | step {dir next q : Path} {name : Text} {names : List Text} (h : LeadsFrom dir name next)
      (hrest : IsBelow next names q) : IsBelow dir (name :: names) q

theorem isBelow_iff {dir : Path} {names : List Text} :
    IsBelow dir names q ↔ q = dir.below names := by
  constructor
  · intro h
    induction h with
    | self dir => rfl
    | step h _ ih =>
      obtain rfl := leadsFrom_iff.1 h
      exact ih
  · rintro rfl
    induction names generalizing dir with
    | nil => exact .self dir
    | cons name names ih => exact .step (leadsFrom_iff.2 rfl) ih

end Path

end DocSite
