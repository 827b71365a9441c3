import DocSite.Proofs.Text.Splitting
import DocSite.Url
import Mathlib.Data.List.Basic
import Mathlib.Tactic.SplitIfs

/-!
# Links lead to their targets

`Url.relative` computes a link; a reader of the page follows it. Following a link `path` from a page
is to put it in place of what stands after the last slash of the page's URL, and to go through the
segments of the result one after the other (`Url.Follows`). A link and a target are the same place
if both end in the same directories (`Url.Reaches`).

* `Url.follows_iff`, `Url.reaches_iff` : `Url.segments` and `Url.resolve` compute where they end.
* `Url.resolve_link` : the steps from a directory to a target, joined by slashes, lead to it.
* `Url.relative_leads_to_target` : so does the link that `Url.relative` computes, which is relative,
  and ends with a slash exactly if its target does.

Normalization is a fold of `Url.push` over the segments, so that segments reached by one path can be
continued by another (`Url.segments_append`). The segments that it leaves are names
(`Url.isName_of_mem_segments`), and of names nothing is dropped; a step up undoes one of them.
-/

namespace DocSite

namespace Url

/-! ### The last segment -/

theorem directory_append_fileName {url : Text} (h : '/' ∈ url) :
    directory url ++ '/' :: fileName url = url := by
  unfold directory fileName
  cases hs : Text.splitLast? '/' url with
  | none => exact absurd h (Text.not_mem_of_splitLast? hs)
  | some cut => exact (Text.eq_of_splitLast? hs).1.symm

theorem slash_not_mem_fileName (url : Text) : '/' ∉ fileName url := by
  unfold fileName
  cases hs : Text.splitLast? '/' url with
  | none => exact Text.not_mem_of_splitLast? hs
  | some cut => exact (Text.eq_of_splitLast? hs).2

theorem isDirectory_iff {url : Text} : isDirectory url = true ↔ url.getLast? = some '/' := by
  simp [isDirectory]

/-! ### Normalization -/

/-- A segment that names a file or a directory. -/
structure IsName (s : Text) : Prop where
  ne_nil : s ≠ []
  ne_dot : s ≠ ['.']
  ne_dots : s ≠ ['.', '.']
  slash_not_mem : '/' ∉ s

@[simp] theorem push_nil (reached : List Text) : push reached [] = reached := by
  simp [push]

@[simp] theorem push_dot (reached : List Text) : push reached ['.'] = reached := by
  simp [push]

@[simp] theorem push_dots (reached : List Text) : push reached ['.', '.'] = reached.dropLast := by
  simp [push]

theorem push_name {reached : List Text} {s : Text} (h : IsName s) :
    push reached s = reached ++ [s] := by
  simp [push, h.ne_nil, h.ne_dot, h.ne_dots]

theorem foldl_push_names {names : List Text} (h : ∀ s ∈ names, IsName s) (reached : List Text) :
    names.foldl push reached = reached ++ names := by
  induction names generalizing reached with
  | nil => simp
  | cons s names ih =>
    rw [List.foldl_cons, push_name (h s List.mem_cons_self),
      ih fun t ht => h t (List.mem_cons_of_mem _ ht)]
    simp

/-- As many steps up as there are segments undo them. -/
theorem foldl_push_dots (reached up : List Text) :
    (up.map fun _ => ['.', '.']).foldl push (reached ++ up) = reached := by
  -- only the number of steps matters: the induction is on it
  rw [List.map_const']
  generalize hn : up.length = n
  induction n generalizing up with
  | zero =>
    rw [List.length_eq_zero_iff.1 hn]
    simp
  | succ n ih =>
    have hne : up ≠ [] := by
      rintro rfl
      cases hn
    rw [List.replicate_succ, List.foldl_cons, push_dots, List.dropLast_append_of_ne_nil hne]
    exact ih _ (by rw [List.length_dropLast, hn, Nat.add_sub_cancel])

theorem segments_append (a b : Text) :
    segments (a ++ '/' :: b) = (b.splitOn '/').foldl push (segments a) := by
  rw [segments, List.splitOn_append_cons_self, List.foldl_append]
  rfl

theorem isName_of_mem_foldl_push {parts reached : List Text} (hparts : ∀ s ∈ parts, '/' ∉ s)
    (hreached : ∀ s ∈ reached, IsName s) : ∀ s ∈ parts.foldl push reached, IsName s := by
  induction parts generalizing reached with
  | nil => exact hreached
  | cons t parts ih =>
    refine ih (fun s hs => hparts s (List.mem_cons_of_mem _ hs)) fun s hs => ?_
    -- `t` is skipped, or undoes a name, or is one itself
    unfold push at hs
    split_ifs at hs with hskip hup
    · exact hreached s hs
    · exact hreached s (List.dropLast_subset _ hs)
    · rcases List.mem_append.1 hs with hs | hs
      · exact hreached s hs
      · rw [List.mem_singleton.1 hs]
        exact ⟨fun h => hskip (.inl h), fun h => hskip (.inr h), hup,
          hparts t List.mem_cons_self⟩

theorem isName_of_mem_segments {path s : Text} (h : s ∈ segments path) : IsName s :=
  isName_of_mem_foldl_push (fun _ => Text.not_mem_of_mem_splitOn) (by simp) s h

/-- From the directories `reached`, segments lead to the directories `last`: an empty segment and a
dot stay, two dots go up, which at the root is to stay, and any other segment goes down. -/
inductive Follows : (reached : List Text) → (parts : List Text) → (last : List Text) → Prop
  | done (reached : List Text) : Follows reached [] reached
  | stay {reached parts last : List Text} {part : Text} (h : part = [] ∨ part = ['.'])
      (hrest : Follows reached parts last) : Follows reached (part :: parts) last
  | root {parts last : List Text} (hrest : Follows [] parts last) :
      Follows [] (['.', '.'] :: parts) last
  | up {reached parts last : List Text} {name : Text} (hrest : Follows reached parts last) :
      Follows (reached ++ [name]) (['.', '.'] :: parts) last
  | down {reached parts last : List Text} {part : Text} (hne : part ≠ []) (hdot : part ≠ ['.'])
      (hdots : part ≠ ['.', '.']) (hrest : Follows (reached ++ [part]) parts last) :
      Follows reached (part :: parts) last

theorem Follows.foldl_push_eq {reached parts last : List Text} (h : Follows reached parts last) :
    parts.foldl push reached = last := by
  induction h with
  | done => rfl
  | stay h _ ih => rwa [List.foldl_cons, push, if_pos h]
  | root _ ih => rwa [List.foldl_cons, push_dots]
  | up _ ih => rwa [List.foldl_cons, push_dots, List.dropLast_concat]
  | down hne hdot hdots _ ih =>
    rwa [List.foldl_cons, push, if_neg (not_or.2 ⟨hne, hdot⟩), if_neg hdots]

theorem follows_foldl_push (reached parts : List Text) :
    Follows reached parts (parts.foldl push reached) := by
  induction parts generalizing reached with
  | nil => exact .done reached
  | cons part parts ih =>
    rw [List.foldl_cons]
    by_cases hstay : part = [] ∨ part = ['.']
    · rw [push, if_pos hstay]
      exact .stay hstay (ih reached)
    · by_cases hup : part = ['.', '.']
      · subst hup
        rw [push_dots]
        rcases reached.eq_nil_or_concat' with rfl | ⟨above, name, rfl⟩
        · exact .root (ih [])
        · rw [List.dropLast_concat]
          exact .up (ih above)
      · rw [push, if_neg hstay, if_neg hup]
        obtain ⟨hne, hdot⟩ := not_or.1 hstay
        exact .down hne hdot hup (ih _)

/-- **The normalized segments of a path** are the directories that its segments lead to. -/
theorem follows_iff {path : Text} {last : List Text} :
    Follows [] (path.splitOn '/') last ↔ segments path = last :=
  ⟨Follows.foldl_push_eq, fun h => h ▸ follows_foldl_push [] _⟩

/-! ### Following a link -/

/-- The normalized segments that a link leads to when it is followed from a page. -/
def resolve (page path : Text) : List Text := segments (directory page ++ '/' :: path)

theorem resolve_eq (page path : Text) :
    resolve page path = (path.splitOn '/').foldl push (segments (directory page)) :=
  segments_append _ _

theorem resolve_slash (page path : Text) : resolve page (path ++ ['/']) = resolve page path := by
  rw [resolve_eq, resolve_eq, List.splitOn_append_cons_self, List.foldl_append, List.splitOn_nil,
    List.foldl_cons, List.foldl_nil, push_nil]

theorem resolve_fileName {page : Text} (h : '/' ∈ page) :
    resolve page (fileName page) = segments page := by
  rw [resolve, directory_append_fileName h]

/-- `dir` is what stands before the last slash of the URL of a page, or nothing if it has none. -/
inductive IsDirectoryOf : (dir page : Text) → Prop
  | before {dir name : Text} (h : '/' ∉ name) : IsDirectoryOf dir (dir ++ '/' :: name)
  | none {page : Text} (h : '/' ∉ page) : IsDirectoryOf [] page

theorem isDirectoryOf_iff {dir page : Text} : IsDirectoryOf dir page ↔ dir = directory page := by
  constructor
  · rintro (hname | hpage)
    · rw [directory, Text.splitLast?_append hname]
    · rw [directory, Text.splitLast?_eq_none hpage]
  · rintro rfl
    by_cases hslash : '/' ∈ page
    · have hpage : IsDirectoryOf (directory page) (directory page ++ '/' :: fileName page) :=
        .before (slash_not_mem_fileName page)
      rwa [directory_append_fileName hslash] at hpage
    · rw [directory, Text.splitLast?_eq_none hslash]
      exact .none hslash

/-- A text that is followed from a page ends in the same directories as a target. -/
def Reaches (page path target : Text) : Prop :=
  ∃ dir last, IsDirectoryOf dir page ∧ Follows [] ((dir ++ '/' :: path).splitOn '/') last ∧
    Follows [] (target.splitOn '/') last

theorem reaches_iff {page path target : Text} :
    Reaches page path target ↔ resolve page path = segments target := by
  simp only [Reaches, isDirectoryOf_iff, follows_iff, exists_and_left, exists_eq_left, resolve]
  exact ⟨fun ⟨_, hpath, htarget⟩ => hpath.trans htarget.symm, fun h => ⟨_, h, rfl⟩⟩

/-! ### The steps to a target -/

theorem dropCommon_eq {a b up down : List Text} (h : dropCommon a b = (up, down)) :
    ∃ common, a = common ++ up ∧ b = common ++ down := by
  induction a, b using dropCommon.induct generalizing up down with
  | case1 a x b ih =>
    rw [dropCommon, if_pos rfl] at h
    obtain ⟨common, rfl, rfl⟩ := ih h
    exact ⟨x :: common, rfl, rfl⟩
  | case2 x a y b hne =>
    rw [dropCommon, if_neg hne] at h
    obtain ⟨rfl, rfl⟩ := Prod.mk.inj h
    exact ⟨[], rfl, rfl⟩
  | case3 a b hnil =>
    rw [dropCommon] at h
    · obtain ⟨rfl, rfl⟩ := Prod.mk.inj h
      exact ⟨[], rfl, rfl⟩
    · exact hnil

theorem foldl_push_steps {dir target : List Text} (htarget : ∀ s ∈ target, IsName s) :
    (steps dir target).foldl push dir = target := by
  unfold steps
  rcases h : dropCommon dir target with ⟨up, down⟩
  obtain ⟨common, rfl, rfl⟩ := dropCommon_eq h
  -- the steps up end at the common directory, the names go on from there
  rw [List.foldl_append, foldl_push_dots,
    foldl_push_names fun s hs => htarget s (List.mem_append_right _ hs)]

/-- A step goes up, or down to a segment of the target. -/
theorem eq_dots_or_mem_of_mem_steps {dir target : List Text} {s : Text}
    (h : s ∈ steps dir target) : s = ['.', '.'] ∨ s ∈ target := by
  unfold steps at h
  rcases hcommon : dropCommon dir target with ⟨up, down⟩
  obtain ⟨common, -, rfl⟩ := dropCommon_eq hcommon
  rw [hcommon] at h
  rcases List.mem_append.1 h with h | h
  · obtain ⟨t, -, rfl⟩ := List.mem_map.1 h
    exact .inl rfl
  · exact .inr (List.mem_append_right _ h)

theorem mem_steps {dir target : List Text} {s : Text} (htarget : ∀ t ∈ target, IsName t)
    (h : s ∈ steps dir target) : s ≠ [] ∧ '/' ∉ s := by
  rcases eq_dots_or_mem_of_mem_steps h with rfl | h
  · decide
  · exact ⟨(htarget s h).ne_nil, (htarget s h).slash_not_mem⟩

/-- The steps from a directory to a target, joined by slashes. Where there are none, the link is to
the directory itself. -/
def link (dir target : List Text) : Text :=
  if Text.join ['/'] (steps dir target) = [] then ['.'] else Text.join ['/'] (steps dir target)

theorem relative_eq_link {page target : Text} (hne : target ≠ page)
    (hroot : target.head? = some '/') (hash : Text) :
    relative page target hash = link (segments (directory page)) (segments target) ++
      (if isDirectory target then ['/'] else []) ++ hash := by
  simp only [relative, if_neg hne, hroot, ne_eq, not_true_eq_false, if_false, link]

theorem splitOn_link {dir target : List Text} (htarget : ∀ s ∈ target, IsName s) :
    (link dir target).splitOn '/' =
      if steps dir target = [] then [['.']] else steps dir target := by
  by_cases hsteps : steps dir target = []
  · rw [link, hsteps]
    rfl
  · -- no step holds a slash, so that splitting undoes joining
    have hsplit : (Text.join ['/'] (steps dir target)).splitOn '/' = steps dir target :=
      List.splitOn_intercalate '/' (fun s hs => (mem_steps htarget hs).2) hsteps
    have hne : Text.join ['/'] (steps dir target) ≠ [] := by
      intro hnil
      rw [hnil, List.splitOn_nil] at hsplit
      exact (mem_steps htarget (hsplit ▸ List.mem_singleton_self _)).1 rfl
    rw [link, if_neg hne, if_neg hsteps, hsplit]

/-- **Following the steps leads to the target.** -/
theorem resolve_link {page : Text} {target : List Text} (htarget : ∀ s ∈ target, IsName s) :
    resolve page (link (segments (directory page)) target) = target := by
  rw [resolve_eq, splitOn_link htarget]
  split_ifs with hsteps
  · -- the target is the directory of the page
    have hreach : (steps (segments (directory page)) target).foldl push
        (segments (directory page)) = target := foldl_push_steps htarget
    rw [hsteps, List.foldl_nil] at hreach
    rw [List.foldl_cons, List.foldl_nil, push_dot, hreach]
  · exact foldl_push_steps htarget

theorem nil_not_mem_splitOn_link {dir target : List Text} (htarget : ∀ s ∈ target, IsName s) :
    [] ∉ (link dir target).splitOn '/' := by
  rw [splitOn_link htarget]
  split_ifs
  · decide
  · exact fun h => (mem_steps htarget h).1 rfl

theorem link_ne_nil {dir target : List Text} (htarget : ∀ s ∈ target, IsName s) :
    link dir target ≠ [] := by
  intro hnil
  have hsplit : [] ∉ (link dir target).splitOn '/' := nil_not_mem_splitOn_link htarget
  rw [hnil] at hsplit
  exact hsplit List.mem_cons_self

/-! ### The ends of a text without empty segments -/

theorem head?_ne_slash {path : Text} (h : [] ∉ path.splitOn '/') : path.head? ≠ some '/' := by
  intro hhead
  obtain ⟨rest, rfl⟩ := List.head?_eq_some_iff.1 hhead
  apply h
  rw [← List.nil_append ('/' :: rest), List.splitOn_append_cons_self]
  simp

theorem getLast?_ne_slash {path : Text} (h : [] ∉ path.splitOn '/') :
    path.getLast? ≠ some '/' := by
  intro hlast
  obtain ⟨front, rfl⟩ := List.getLast?_eq_some_iff.1 hlast
  apply h
  rw [List.splitOn_append_cons_self]
  simp

/-! ### The computed link -/

/-- A text that is followed from `page` leads to `target`, and its ends are those of a link there:
it is not root-relative, and it ends with a slash exactly if the target does. -/
structure LeadsTo (page path target : Text) : Prop where
  not_rooted : path.head? ≠ some '/'
  slash_iff : path.getLast? = some '/' ↔ target.getLast? = some '/'
  reaches : Reaches page path target

theorem leadsTo_link {page target : Text} :
    LeadsTo page (link (segments (directory page)) (segments target) ++
      (if isDirectory target then ['/'] else [])) target := by
  have htarget : ∀ s ∈ segments target, IsName s := fun _ => isName_of_mem_segments
  have hnil : [] ∉ (link (segments (directory page)) (segments target)).splitOn '/' :=
    nil_not_mem_splitOn_link htarget
  have hne : link (segments (directory page)) (segments target) ≠ [] := link_ne_nil htarget
  cases hdir : isDirectory target with
  | false =>
    have hlast : target.getLast? ≠ some '/' := fun h => by simp [isDirectory, h] at hdir
    simp only [Bool.false_eq_true, if_false, List.append_nil]
    exact ⟨head?_ne_slash hnil, iff_of_false (getLast?_ne_slash hnil) hlast,
      reaches_iff.2 (resolve_link htarget)⟩
  | true =>
    simp only [if_true]
    refine ⟨?_, iff_of_true List.getLast?_concat (isDirectory_iff.1 hdir), ?_⟩
    · rw [List.head?_append_of_ne_nil _ hne]
      exact head?_ne_slash hnil
    · rw [reaches_iff, resolve_slash, resolve_link htarget]

theorem fileName_eq_nil_iff {url : Text} (hslash : '/' ∈ url) :
    fileName url = [] ↔ isDirectory url = true := by
  rw [isDirectory_iff]
  constructor
  · intro hnil
    rw [← directory_append_fileName hslash, hnil, List.getLast?_concat]
  · intro hlast
    -- a name after the last slash would be the end of the URL
    by_contra hne
    rw [← directory_append_fileName hslash, List.getLast?_append_of_ne_nil _ (by simp),
      List.getLast?_cons_of_ne_nil hne] at hlast
    exact slash_not_mem_fileName url (List.mem_of_getLast? hlast)

theorem leadsTo_dot {page : Text} (hdir : isDirectory page = true) :
    LeadsTo page ['.', '/'] page := by
  have hlast := isDirectory_iff.1 hdir
  have hslash : '/' ∈ page := List.mem_of_getLast? hlast
  refine ⟨by decide, iff_of_true rfl hlast, reaches_iff.2 ?_⟩
  have hname : fileName page = [] := (fileName_eq_nil_iff hslash).2 hdir
  calc resolve page ['.', '/']
      = resolve page ['.'] := resolve_slash page ['.']
    _ = segments (directory page) := by rw [resolve_eq]; exact push_dot _
    _ = resolve page [] := by rw [resolve_eq]; exact (push_nil _).symm
    _ = segments page := by rw [← hname, resolve_fileName hslash]

theorem leadsTo_fileName {page : Text} (hslash : '/' ∈ page) (hdir : isDirectory page = false) :
    LeadsTo page (fileName page) page := by
  have hlast : page.getLast? ≠ some '/' := fun h => by simp [isDirectory, h] at hdir
  have hname := slash_not_mem_fileName page
  exact ⟨fun h => hname (List.mem_of_head? h),
    iff_of_false (fun h => hname (List.mem_of_getLast? h)) hlast,
    reaches_iff.2 (resolve_fileName hslash)⟩

/-- A link is a path with the fragment after it. The path is empty for a link within the page that
has a fragment, and otherwise leads to the target. -/
theorem exists_path_of_relative (page : Text) {target : Text} (hroot : target.head? = some '/')
    (hash : Text) : ∃ path, relative page target hash = path ++ hash ∧
      (path = [] ↔ target = page ∧ hash ≠ []) ∧ (path ≠ [] → LeadsTo page path target) := by
  by_cases hsame : target = page
  · -- a link within the page: by its name, by a dot, or by the fragment alone
    subst hsame
    have hslash : '/' ∈ target := List.mem_of_head? hroot
    by_cases hhash : hash = []
    · subst hhash
      cases hdir : isDirectory target with
      | true =>
        exact ⟨['.', '/'], by simp [relative, hdir], by simp, fun _ => leadsTo_dot hdir⟩
      | false =>
        have hname : fileName target ≠ [] := fun hnil => by
          rw [(fileName_eq_nil_iff hslash).1 hnil] at hdir
          cases hdir
        exact ⟨fileName target, by simp [relative, hdir], by simpa using hname,
          fun _ => leadsTo_fileName hslash hdir⟩
    · exact ⟨[], by simp [relative, hhash], by simp [hhash], fun hnil => absurd rfl hnil⟩
  · have hlink : link (segments (directory page)) (segments target) ≠ [] :=
      link_ne_nil fun _ => isName_of_mem_segments
    refine ⟨_, relative_eq_link hsame hroot hash, ?_, fun _ => leadsTo_link⟩
    simp [hlink, hsame]

/-- **A computed link leads to its target.** For every page and every root-relative target the link
is a text with the fragment at its end. A link within a page that has a fragment is the fragment
alone; in every other case the text before it leads to the target. -/
theorem relative_leads_to_target (page : Text) {target : Text} (hroot : target.head? = some '/')
    (hash : Text) : ∃ path, relative page target hash = path ++ hash ∧
      if target = page ∧ hash ≠ [] then path = [] else LeadsTo page path target := by
  obtain ⟨path, hpath, hnil, hleads⟩ := exists_path_of_relative page hroot hash
  refine ⟨path, hpath, ?_⟩
  split_ifs with hsame
  · exact hnil.2 hsame
  · exact hleads fun h => hsame (hnil.1 h)

/-- From below a directory with a dot to a directory with two dots and a doubled slash. -/
theorem relative_leads_to_target_above :
    "/x/../y//./z/".toList.head? = some '/' ∧
      ∃ path, relative "/a/./b/c.html".toList "/x/../y//./z/".toList "#s".toList =
          path ++ "#s".toList ∧
        if "/x/../y//./z/".toList = "/a/./b/c.html".toList ∧ "#s".toList ≠ [] then path = []
        else LeadsTo "/a/./b/c.html".toList path "/x/../y//./z/".toList :=
  ⟨by decide, relative_leads_to_target _ (by decide) _⟩

end Url

end DocSite
