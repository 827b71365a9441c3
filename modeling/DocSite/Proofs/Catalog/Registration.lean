import DocSite.Proofs.Catalog.Lookup

/-!
# Registering files

A catalog is asked for files and components, and to register files. Registering adds a file at the
end, or is refused and changes nothing; nothing else changes the catalog.

* `Catalog.extend` : the catalog with more files at the end.
* `Catalog.serve`, `Catalog.run` : the answer to a request, and those to requests one after another.
* `Catalog.serve_cases` : a request either registers a file at a free location, or changes nothing.
* `Catalog.registrations_of_run` : what holds after any requests, and of the next file to register.

A look-up finds the first file at a location. A file that is added at the end stands behind all that
were found before, and before it no file was found at its own location.
-/

namespace DocSite

namespace Catalog

variable {c c' : Catalog} {e f : Entry} {l : Location}

/-! ### More files -/

/-- The catalog with more files at the end, registered in their order. -/
def extend (c : Catalog) (es : List Entry) : Catalog :=
  { c with files := c.files ++ es, added := c.added ++ es }

theorem extend_nil : c.extend [] = c := by
  rw [extend, List.append_nil, List.append_nil]

theorem extend_extend (es es' : List Entry) : (c.extend es).extend es' = c.extend (es ++ es') := by
  simp only [extend, List.append_assoc]

theorem at?_eq_none_iff : c.at? l = none ↔ ∀ f ∈ c.files, f.location ≠ l := by
  simp [at?]

theorem at?_extend_eq_none_iff {es : List Entry} :
    (c.extend es).at? l = none ↔ c.at? l = none ∧ ∀ e ∈ es, e.location ≠ l := by
  simp only [at?_eq_none_iff, extend, List.forall_mem_append]

theorem at?_extend :
    (c.extend [e]).at? l = (c.at? l).or (if e.location = l then some e else none) := by
  simp only [at?, extend, List.find?_append, List.find?_singleton, decide_eq_true_eq]

theorem at?_extend_of_some {es : List Entry} (h : c.at? l = some f) :
    (c.extend es).at? l = some f := by
  rw [at?, extend, List.find?_append]
  exact Option.or_eq_some_iff.2 (.inl h)

theorem add_eq_ok_iff :
    c.add e = .ok c' ↔ c.refusal? = none ∧ c.at? e.location = none ∧ c' = c.extend [e] := by
  unfold add
  cases hopen : c.refusal? with
  | some reason => simp
  | none =>
    cases c.at? e.location with
    | some f => simp
    | none => simp [extend, hopen, eq_comm]

theorem eq_of_add (h : c.add e = .ok c') : c' = c.extend [e] := (add_eq_ok_iff.1 h).2.2

theorem add_eq_duplicate (hopen : c.refusal? = none) (h : c.at? e.location ≠ none) :
    c.add e = .error (.duplicate e.location) := by
  obtain ⟨f, hf⟩ := Option.ne_none_iff_exists'.1 h
  unfold add
  rw [hopen, hf]

theorem resolve?_extend {reference : Text} {context : Location} {family : Family}
    (h : c.resolve? reference context family = some f) :
    (c.extend [e]).resolve? reference context family = some f := by
  obtain ⟨l, hl, hf⟩ := Option.bind_eq_some_iff.1 h
  rw [resolve?, hl, Option.bind_some, at?_extend, hf, Option.some_or]

theorem resolve?_extend_self {reference : Text} {context : Location} {family : Family}
    (hfree : c.at? e.location = none)
    (h : Location.ofReference? reference context family = some e.location) :
    (c.extend [e]).resolve? reference context family = some e := by
  rw [resolve?, h, Option.bind_some, at?_extend, hfree, Option.none_or, if_pos rfl]

theorem Distinct.extend (h : c.Distinct) (hfree : c.at? e.location = none) :
    (c.extend [e]).Distinct := by
  have hnew : e.location ∉ c.files.map Entry.location := by
    intro hmem
    obtain ⟨f, hf, hlocation⟩ := List.mem_map.1 hmem
    exact at?_eq_none_iff.1 hfree f hf hlocation
  unfold Distinct Catalog.extend
  rw [List.map_append, List.map_singleton, ← List.concat_eq_append]
  exact List.Nodup.concat hnew h

/-! ### Requests -/

/-- What a catalog is asked for. -/
inductive Request where
  | files
  | added
  | component (name : Text)
  | resolve (reference : Text) (context : Location) (family : Family)
  | select (glob : Text) (context : Location)
  | add (e : Entry)
  deriving DecidableEq, Repr

/-- What a catalog answers. -/
inductive Answer where
  | files (files : List Entry)
  | file (file? : Option Entry)
  | component (component? : Option Component)
  | registered
  | refused (cause : CatalogError)
  deriving DecidableEq, Repr

/-- The answer to a request, and the catalog after it. -/
def serve (c : Catalog) : Request → Answer × Catalog
  | .files => (.files c.files, c)
  | .added => (.files c.added, c)
  | .component name => (.component (c.component? name), c)
  | .resolve reference context family => (.file (c.resolve? reference context family), c)
  | .select glob context => (.files (c.select glob context), c)
  | .add e =>
    match c.add e with
    | .ok c' => (.registered, c')
    | .error cause => (.refused cause, c)

/-- Requests with their answers, one after another, and the catalog after them. -/
def run (c : Catalog) : List Request → List (Request × Answer) × Catalog
  | [] => ([], c)
  | request :: requests =>
    let (answer, c) := c.serve request
    let (log, c) := run c requests
    ((request, answer) :: log, c)

/-- The file that a request has registered, by its answer. -/
def registered? : Request → Answer → Option Entry
  | .add e, .registered => some e
  | _, _ => none

/-- The files that were registered, in order. -/
def registered (log : List (Request × Answer)) : List Entry :=
  log.filterMap fun (request, answer) => registered? request answer

/-- **What a request does**: it registers a file at a free location, or changes nothing. -/
theorem serve_cases (c : Catalog) (request : Request) :
    (∃ e, request = .add e ∧ c.refusal? = none ∧ c.at? e.location = none ∧
        c.serve request = (.registered, c.extend [e])) ∨
      ∃ answer, answer ≠ .registered ∧ c.serve request = (answer, c) := by
  cases request with
  | files | added | component | resolve | select =>
    refine .inr ⟨_, ?_, rfl⟩
    exact nofun
  | add e =>
    cases hadd : c.add e with
    | ok c' =>
      obtain ⟨hopen, hfree, rfl⟩ := add_eq_ok_iff.1 hadd
      exact .inl ⟨e, rfl, hopen, hfree, by rw [serve, hadd]⟩
    | error cause => exact .inr ⟨.refused cause, nofun, by rw [serve, hadd]⟩

theorem registered?_eq_none {request : Request} {answer : Answer} (h : answer ≠ .registered) :
    registered? request answer = none := by
  cases answer with
  | registered => exact absurd rfl h
  | files | file | component | refused => cases request <;> rfl

/-- **A run** adds the files that it registers, and leaves all else. -/
theorem run_eq (c : Catalog) (requests : List Request) :
    (c.run requests).2 = c.extend (registered (c.run requests).1) := by
  induction requests generalizing c with
  | nil => exact extend_nil.symm
  | cons request requests ih =>
    rcases c.serve_cases request with ⟨e, rfl, -, -, hserve⟩ | ⟨answer, hanswer, hserve⟩
    · have hrun : c.run (.add e :: requests) =
          ((.add e, .registered) :: ((c.extend [e]).run requests).1,
            ((c.extend [e]).run requests).2) := by rw [run, hserve]
      rw [hrun]
      exact (ih _).trans (extend_extend _ _)
    · have hrun : c.run (request :: requests) =
          ((request, answer) :: (c.run requests).1, (c.run requests).2) := by rw [run, hserve]
      have hnone : registered ((request, answer) :: (c.run requests).1) =
          registered (c.run requests).1 := List.filterMap_cons_none (registered?_eq_none hanswer)
      rw [hrun, hnone]
      exact ih c

theorem Distinct.run (h : c.Distinct) (requests : List Request) : (c.run requests).2.Distinct := by
  induction requests generalizing c with
  | nil => exact h
  | cons request requests ih =>
    have hlast : (c.run (request :: requests)).2 = ((c.serve request).2.run requests).2 := rfl
    rw [hlast]
    rcases c.serve_cases request with ⟨e, -, -, hfree, hserve⟩ | ⟨answer, -, hserve⟩
    · rw [hserve]
      exact ih (h.extend hfree)
    · rw [hserve]
      exact ih h

/-- **Registering files.** After any requests a catalog holds the files that it held at first and
then those that it registered, in order, and no two files share a location if none did at first. The
next file is refused if and only if there is a file at its location, and then nothing changes.
Otherwise it is added at the end: what a reference named it names still, and a reference to its
location names the file. -/
theorem registrations_of_run (components : List Component) (files : List Entry)
    (requests : List Request) :
    let start : Catalog := { components, files }
    let c := (start.run requests).2
    c.files = files ++ c.added ∧ c.added = registered (start.run requests).1 ∧
      (start.Distinct → c.Distinct) ∧
      ∀ e : Entry,
        (c.serve (.add e) = (.refused (.duplicate e.location), c) ↔
          ∃ f ∈ c.files, f.location = e.location) ∧
        (CatalogError.duplicate e.location).message =
          "Duplicate resource: ".toList ++ e.location.id ∧
        ((∀ f ∈ c.files, f.location ≠ e.location) →
          ∃ c', c.serve (.add e) = (.registered, c') ∧
            c'.files = c.files ++ [e] ∧ c'.added = c.added ++ [e] ∧
            (∀ reference context family f, c.resolve? reference context family = some f →
              c'.resolve? reference context family = some f) ∧
            ∀ reference context family,
              Location.ofReference? reference context family = some e.location →
                c'.resolve? reference context family = some e) := by
  intro start c
  have hrun : c = start.extend (registered (start.run requests).1) := run_eq start requests
  have hopen : c.refusal? = none := by rw [hrun]; rfl
  have hadded : c.added = registered (start.run requests).1 := by rw [hrun]; rfl
  have hfiles : c.files = files ++ registered (start.run requests).1 := by rw [hrun]; rfl
  refine ⟨by rw [hfiles, hadded], hadded, fun h => h.run requests,
    fun e => ⟨⟨fun h => ?_, ?_⟩, rfl, fun hfree => ?_⟩⟩
  · by_contra hnone
    have hfree : c.at? e.location = none :=
      at?_eq_none_iff.2 fun f hf hlocation => hnone ⟨f, hf, hlocation⟩
    rw [serve, add_eq_ok_iff.2 ⟨hopen, hfree, rfl⟩] at h
    cases h
  · rintro ⟨f, hf, hlocation⟩
    have htaken : c.at? e.location ≠ none := fun h => at?_eq_none_iff.1 h f hf hlocation
    rw [serve, add_eq_duplicate hopen htaken]
  · have hat := at?_eq_none_iff.2 hfree
    refine ⟨c.extend [e], ?_, rfl, rfl, fun _ _ _ _ => resolve?_extend, fun _ _ _ =>
      resolve?_extend_self hat⟩
    rw [serve, add_eq_ok_iff.2 ⟨hopen, hat, rfl⟩]

end Catalog

end DocSite
