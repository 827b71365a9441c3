import DocSite.Proofs.Path
import DocSite.Settings.Load

/-!
# The nearest settings file

Settings that are asked for nowhere are looked for in the working directory and then in one
directory above the other, up to the root. The directories are as many as the names on the path and
one more, so the search ends, and it ends at the first of them that has a settings file.

* `Settings.discover?_eq` : what is found is the settings file of the first directory that has one.
* `Settings.discovery_finds_nearest` : which directories these are, and when nothing is found.
-/

namespace DocSite

namespace Settings

variable (s : Surroundings Id)

/-- Whether a directory has a settings file. -/
def HasSettings (dir : Path) : Prop :=
  @Eq Bool (s.pathExists (dir.join "folio.toml".toList)) true

instance (dir : Path) : Decidable (HasSettings s dir) := inferInstanceAs (Decidable (_ = true))

theorem discover?_eq :
    discover? s = ((Path.ancestors s.workingDirectory).find? (HasSettings s ·)).map
      (Path.join · fileName) := by
  have hfind : discover? s = (candidates s.workingDirectory).find? s.pathExists :=
    List.findM?_pure (m := Id) _ _
  have htest : (fun dir => decide (HasSettings s dir)) = s.pathExists ∘ (Path.join · fileName) := by
    funext dir
    exact Bool.decide_eq_true
  rw [hfind, candidates, List.find?_map, htest]

theorem names_settings {dir : Path} (h : Path.isAbsolute dir = true) :
    Path.names (dir.join fileName) = Path.names dir ++ [fileName] :=
  Path.names_join h rfl

/-- **The nearest settings file is found.** From an absolute working directory, the directories that
are searched are those on the way from it to the root: the path starts with each of them, first with
itself, and the names on them are all beginnings of its names, the longest first. A file is found
exactly if it is the settings file of one of them and no directory before that has one, and nothing
is found exactly if no directory up to the root has one. -/
theorem discovery_finds_nearest (h : Path.isAbsolute s.workingDirectory = true) :
    (Path.ancestors s.workingDirectory).map Path.names =
        (Path.names s.workingDirectory).inits.reverse ∧
      (Path.ancestors s.workingDirectory).head? = some s.workingDirectory ∧
      (∀ dir ∈ Path.ancestors s.workingDirectory, dir <+: s.workingDirectory ∧
        Path.isAbsolute dir = true ∧
        Path.names (dir.join "folio.toml".toList) = Path.names dir ++ ["folio.toml".toList]) ∧
      (∀ file, discover? s = some file ↔
        ∃ nearer dir further, Path.ancestors s.workingDirectory = nearer ++ dir :: further ∧
          file = dir.join "folio.toml".toList ∧ HasSettings s dir ∧
            ∀ other ∈ nearer, ¬ HasSettings s other) ∧
      (discover? s = none ↔
        ∀ dir ∈ Path.ancestors s.workingDirectory, ¬ HasSettings s dir) := by
  refine ⟨Path.map_names_ancestors h, Path.head?_ancestors _, fun dir hdir => ?_,
    fun file => ?_, ?_⟩
  · obtain ⟨habsolute, hstart⟩ := Path.isPrefix_of_mem_ancestors h hdir
    exact ⟨hstart, habsolute, names_settings habsolute⟩
  · rw [discover?_eq, Option.map_eq_some_iff]
    constructor
    · rintro ⟨dir, hfind, rfl⟩
      obtain ⟨hdir, nearer, further, hsplit, hnearer⟩ := List.find?_eq_some_iff_append.1 hfind
      exact ⟨nearer, dir, further, hsplit, rfl, of_decide_eq_true hdir,
        fun other hother => by simpa using hnearer other hother⟩
    · rintro ⟨nearer, dir, further, hsplit, rfl, hdir, hnearer⟩
      refine ⟨dir, List.find?_eq_some_iff_append.2
        ⟨decide_eq_true hdir, nearer, further, hsplit, fun other hother => ?_⟩, rfl⟩
      simpa using hnearer other hother
  · rw [discover?_eq, Option.map_eq_none_iff, List.find?_eq_none]
    simp

/-- A directory further up has a settings file, and so does the root. -/
theorem discovery_finds_nearest_above :
    let surroundings : Surroundings Id :=
      { workingDirectory := "/docs//en/./guide/".toList
        valueOf? := fun _ => none
        pathExists := fun p => p = "/docs/folio.toml".toList || p = "/folio.toml".toList
        readText := fun _ => .error .missing }
    Path.isAbsolute surroundings.workingDirectory = true ∧
      Path.ancestors surroundings.workingDirectory =
        ["/docs//en/./guide/".toList, "/docs//en".toList] ++ "/docs".toList :: ["/".toList] ∧
      discover? surroundings = some "/docs/folio.toml".toList := by
  intro surroundings
  have hancestors : Path.ancestors surroundings.workingDirectory =
      ["/docs//en/./guide/".toList, "/docs//en".toList] ++ "/docs".toList :: ["/".toList] := by
    decide +kernel
  obtain ⟨-, -, -, hfound, -⟩ := discovery_finds_nearest surroundings rfl
  refine ⟨rfl, hancestors, (hfound _).2 ⟨_, _, _, hancestors, rfl, rfl, ?_⟩⟩
  decide +kernel

end Settings

end DocSite
