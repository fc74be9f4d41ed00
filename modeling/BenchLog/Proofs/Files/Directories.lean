import BenchLog.Proofs.Files.Changes

/-!
# `BenchLog.Proofs.Files.Directories` — which directories can be created

A directory is created along its path, name after name, and that stops at the first thing in the way. Here
the same is said of the disk as it was before: a directory can be created if all names of its path are short
enough and there is a directory, or nothing, at every location that the path names. Where a single dot
follows the last name, that one is not created, so something has to be there.

The locations are taken from the path alone. A step up leads to the location above, whatever is there, and
a name that is stepped out of again counts as well: what it names has to be a directory, or becomes one.

## Contents
- `named` and `along`, the locations that segments, or a path, name one after the other;
- `sameBut_createFrom` and `sameBut_createDirs`, what creating directories leaves alone;
- `createFrom_reached_iff` and `node?_createFrom`: creating directories, without the loop;
- `Rooted` and `leads_iff`, what it takes for segments to lead to a directory;
- `CanCreateDirs`; `createDirs_iff` and `node?_createDirs`, its laws.
-/

namespace BenchLog

namespace Disk

variable {d : Disk} {l k : Location} {path : String} {segments more : List String}

/-! ## The names along a path -/

/-- The locations that segments name, one after the other. A single dot and an empty segment name nothing,
and neither does a step up. -/
def named (l : Location) : List String → List Location
  | [] => []
  | segment :: rest =>
    if segment = "" ∨ segment = "." then named l rest
    else if segment = ".." then named (up l) rest
    else (l ++ [segment]) :: named (l ++ [segment]) rest

theorem named_of_idle {segment : String} (h : segment = "" ∨ segment = ".") (rest : List String) :
    named l (segment :: rest) = named l rest := by
  rw [named, if_pos h]

theorem named_of_up (rest : List String) : named l (".." :: rest) = named (up l) rest := by
  rw [named, if_neg (by decide), if_pos rfl]

theorem named_of_name {segment : String} (hidle : ¬(segment = "" ∨ segment = ".")) (hup : segment ≠ "..")
    (rest : List String) :
    named l (segment :: rest) = (l ++ [segment]) :: named (l ++ [segment]) rest := by
  rw [named, if_neg hidle, if_neg hup]

/-- The beginning of a path names nothing but what the whole path names. -/
theorem named_subset_append (l : Location) (segments more : List String) :
    named l segments ⊆ named l (segments ++ more) := by
  fun_induction named l segments with
  | case1 l => exact List.nil_subset _
  | case2 l segment rest hidle ih =>
      rw [List.cons_append, named_of_idle hidle]
      exact ih
  | case3 l rest hidle ih =>
      rw [List.cons_append, named_of_up]
      exact ih
  | case4 l segment rest hidle hup ih =>
      rw [List.cons_append, named_of_name hidle hup]
      exact List.cons_subset_cons _ ih

theorem isName_of_idle {segment : String} (h : segment = "" ∨ segment = ".") : isName segment = true := by
  rcases h with rfl | rfl <;> decide

theorem isName_up : isName ".." = true := by decide

/-- The locations that a path names. -/
def along (d : Disk) (path : String) : List Location := named (d.origin path) (steps path)

theorem along_congr {d' : Disk} (h : d'.home = d.home) (path : String) : d'.along path = d.along path := by
  rw [along, along, origin_congr h]

/-! ## What creating directories leaves alone -/

theorem sameBut_createFrom (d : Disk) (l : Location) (segments : List String) :
    SameBut (named l segments) [] d (d.createFrom l segments).1 := by
  -- The disk changes in one case only, that of a name under which there is nothing yet.
  fun_induction createFrom d l segments with
  | case1 d l => exact .refl d
  | case2 d l segment rest hidle ih =>
      rw [named_of_idle hidle]
      exact ih
  | case3 d l rest hidle ih =>
      rw [named_of_up]
      exact ih
  | case4 d l segment rest hidle hup hname next hnode ih =>
      rw [named_of_name hidle hup]
      exact ih.mono (List.subset_cons_self _ _) (List.Subset.refl [])
  | case5 d l segment rest hidle hup hname next bytes hnode =>
      exact .refl d
  | case6 d l segment rest hidle hup hname next hnode ih =>
      rw [named_of_name hidle hup]
      exact (sameBut_put_directory hnode).trans ih
  | case7 d l segment rest hidle hup hname =>
      exact .refl d

/-- Creating the beginning of a path makes no directories but along the path. -/
theorem sameBut_createFrom_of_isPrefix {beginning : List String} (h : beginning <+: steps path) :
    SameBut (d.along path) [] d (d.createFrom (d.origin path) beginning).1 := by
  obtain ⟨more, hmore⟩ := h
  have hsubset := named_subset_append (d.origin path) beginning more
  rw [hmore] at hsubset
  exact (sameBut_createFrom d (d.origin path) beginning).mono hsubset (List.Subset.refl [])

/-! ## Creating directories, without the loop -/

/-- Putting a directory where nothing was leaves the files as they are. -/
theorem file_put_directory_iff (h : d.node? l = none) {bytes : List UInt8} :
    (d.put l .directory).node? k = some (.file bytes) ↔ d.node? k = some (.file bytes) := by
  rw [node?_put_directory h]
  split
  · next hk =>
      subst hk
      simp [h]
  · exact Iff.rfl

/-- No file is among these locations. -/
def Clear (d : Disk) (locations : List Location) : Prop :=
  ∀ k ∈ locations, ∀ bytes, d.node? k ≠ some (.file bytes)

/-- The directories along some segments can be created as far as the names are short enough and no file is
in the way. -/
theorem createFrom_reached_iff (d : Disk) (l : Location) (segments : List String) :
    (d.createFrom l segments).2 = true
      ↔ (∀ segment ∈ segments, isName segment) ∧ d.Clear (named l segments) := by
  unfold Clear
  fun_induction createFrom d l segments with
  | case1 d l => simp [named]
  | case2 d l segment rest hidle ih =>
      rw [ih, named_of_idle hidle, List.forall_mem_cons, isName_of_idle hidle]
      simp
  | case3 d l rest hidle ih =>
      rw [ih, named_of_up, List.forall_mem_cons, isName_up]
      simp
  | case4 d l segment rest hidle hup hname next hnode ih =>
      rw [ih, named_of_name hidle hup, List.forall_mem_cons, List.forall_mem_cons, hnode]
      simp [hname, next]
  | case5 d l segment rest hidle hup hname next bytes hnode =>
      rw [named_of_name hidle hup, List.forall_mem_cons (l := named _ _)]
      simp [hnode, next]
  | case6 d l segment rest hidle hup hname next hnode ih =>
      rw [ih, named_of_name hidle hup, List.forall_mem_cons, List.forall_mem_cons, hnode]
      simp [hname, next, file_put_directory_iff hnode]
  | case7 d l segment rest hidle hup hname => simp [hname]

/-- Where the end is reached, the locations that the segments name are directories, and nothing else has
changed. -/
theorem node?_createFrom (h : (d.createFrom l segments).2 = true) :
    (d.createFrom l segments).1.node? k
      = if k ∈ named l segments then some .directory else d.node? k := by
  fun_induction createFrom d l segments with
  | case1 d l => simp [named]
  | case2 d l segment rest hidle ih => rw [ih h, named_of_idle hidle]
  | case3 d l rest hidle ih => rw [ih h, named_of_up]
  | case4 d l segment rest hidle hup hname next hnode ih =>
      rw [ih h, named_of_name hidle hup]
      by_cases hk : k = next
      · rw [hk, hnode, ite_self, if_pos (List.mem_cons_self ..)]
      · simp [List.mem_cons, hk, next]
  | case5 d l segment rest hidle hup hname next bytes hnode => exact absurd h Bool.false_ne_true
  | case6 d l segment rest hidle hup hname next hnode ih =>
      rw [ih h, named_of_name hidle hup, node?_put_directory hnode]
      by_cases hk : k = next
      · rw [hk, if_pos rfl, ite_self, if_pos (List.mem_cons_self ..)]
      · simp [List.mem_cons, hk, next]
  | case7 d l segment rest hidle hup hname => exact absurd h Bool.false_ne_true

/-! ## Where segments lead -/

/-- A location and all those above it are directories. -/
def Rooted (d : Disk) (l : Location) : Prop := ∀ k, k <+: l → d.node? k = some .directory

theorem Rooted.self (h : d.Rooted l) : d.node? l = some .directory := h l (List.prefix_refl l)

theorem Rooted.up (h : d.Rooted l) : d.Rooted (up l) :=
  fun k hk => h k (hk.trans (List.dropLast_prefix l))

theorem Rooted.append {name : String} (h : d.Rooted l) (hname : d.node? (l ++ [name]) = some .directory) :
    d.Rooted (l ++ [name]) := by
  intro k hk
  rcases List.prefix_concat_iff.1 hk with rfl | hk
  · exact hname
  · exact h k hk

theorem rooted_origin (d : Disk) (path : String) : d.Rooted (d.origin path) := by
  intro k hk
  refine node?_of_prefix_home ?_
  unfold origin at hk
  split at hk
  · exact List.prefix_nil.1 hk ▸ List.nil_prefix
  · exact hk

/-- These segments lead from a location to a directory. -/
def Leads (d : Disk) (l : Location) (segments : List String) : Prop :=
  ∃ k, segments.foldlM d.step? l = some k ∧ d.node? k = some .directory

theorem leads_nil : d.Leads l [] ↔ d.node? l = some .directory := by
  simp [Leads]

theorem leads_cons {segment : String} :
    d.Leads l (segment :: segments) ↔ ∃ next, d.step? l segment = some next ∧ d.Leads next segments := by
  unfold Leads
  rw [List.foldlM_cons]
  cases d.step? l segment with
  | none => simp
  | some next => simp

/-- Segments lead nowhere from a place that is no directory. -/
theorem Leads.directory (h : d.Leads l segments) : d.node? l = some .directory := by
  cases segments with
  | nil => exact leads_nil.1 h
  | cons segment segments =>
      obtain ⟨next, hstep, _⟩ := leads_cons.1 h
      by_cases hl : d.node? l = some .directory
      · exact hl
      · rw [step?, if_pos hl] at hstep
        exact nomatch hstep

/-- Segments lead to a directory as far as the names are short enough and all that they name are
directories. -/
theorem leads_iff (h : d.Rooted l) :
    d.Leads l segments
      ↔ (∀ segment ∈ segments, isName segment) ∧ ∀ k ∈ named l segments, d.node? k = some .directory := by
  have hdir : ¬d.node? l ≠ some .directory := not_not_intro h.self
  fun_induction named l segments with
  | case1 l => simp [leads_nil, h.self]
  | case2 l segment rest hidle ih =>
      simp only [leads_cons, step?, if_neg hdir, if_pos hidle, Option.some.injEq, exists_eq_left',
        List.forall_mem_cons, isName_of_idle hidle, true_and]
      exact ih h hdir
  | case3 l rest hidle ih =>
      simp only [leads_cons, step?, if_neg hdir, if_neg hidle, if_true, Option.some.injEq,
        exists_eq_left', List.forall_mem_cons, isName_up, true_and]
      exact ih h.up (not_not_intro h.up.self)
  | case4 l segment rest hidle hup ih =>
      -- The name has to be a directory, or nothing leads on from it.
      have hnext : d.Leads (l ++ [segment]) rest
          ↔ d.node? (l ++ [segment]) = some .directory ∧ (∀ s ∈ rest, isName s)
            ∧ ∀ k ∈ named (l ++ [segment]) rest, d.node? k = some .directory := by
        constructor
        · intro hleads
          have hname := hleads.directory
          exact ⟨hname, (ih (h.append hname) (not_not_intro hname)).1 hleads⟩
        · rintro ⟨hname, hrest⟩
          exact (ih (h.append hname) (not_not_intro hname)).2 hrest
      rw [leads_cons, step?, if_neg hdir, if_neg hidle, if_neg hup, List.forall_mem_cons,
        List.forall_mem_cons]
      by_cases hshort : isName segment = true
      · simp [hshort, hnext, and_left_comm]
      · simp [hshort]

theorem isDirectory_iff :
    d.isDirectory path = true ↔ isPath path = true ∧ d.Leads (d.origin path) (steps path) := by
  unfold isDirectory find? resolve? Leads
  by_cases hpath : isPath path = true
  · simp [hpath, Option.bind_eq_some_iff]
  · simp [hpath]

/-! ## Which directories can be created -/

theorem withoutDotted_prefix_self (segments : List String) : withoutDotted segments <+: segments := by
  have hname : segments.reverse.dropWhile (· = "") <:+ segments.reverse := List.dropWhile_suffix _
  unfold withoutDotted
  split
  · next above heq =>
      have habove : above.dropWhile (fun segment => segment = "" ∨ segment = ".") <:+ segments.reverse :=
        (List.dropWhile_suffix _).trans ((List.suffix_cons _ above).trans (heq ▸ hname))
      split
      · exact List.prefix_refl segments
      · next name rest _ hrest =>
          have hsuffix : rest <:+ segments.reverse := (List.suffix_cons name rest).trans (hrest ▸ habove)
          simpa using List.reverse_prefix.2 hsuffix
      · exact List.nil_prefix
  · exact List.prefix_refl segments

/-- Creating directories changes no file and makes no other directory, whether or not it succeeds. -/
theorem sameBut_createDirs (d : Disk) (path : String) :
    SameBut (d.along path) [] d (d.createDirs path).1 := by
  unfold createDirs
  split
  · exact .refl d
  · split
    · exact sameBut_createFrom_of_isPrefix (withoutDotted_prefix_self _)
    · exact .refl d

/-- A directory can be created at a path. The empty path is the working directory. Along any other, what is
named has to be there as a directory, or nothing is and it is one of those that are created. -/
def CanCreateDirs (d : Disk) (path : String) : Prop :=
  path = "" ∨ isPath path ∧ (∀ segment ∈ steps path, isName segment)
    ∧ ∀ l ∈ d.along path,
        d.node? l = some .directory
          ∨ d.node? l = none ∧ l ∈ named (d.origin path) (withoutDotted (steps path))

instance : Decidable (d.CanCreateDirs path) :=
  inferInstanceAs (Decidable (path = "" ∨ _ ∧ _ ∧ _))

/-- Once directories along some segments are created, a location is one if it was one before, or if nothing
was there and the segments name it. -/
theorem directory_createFrom_iff (h : (d.createFrom l segments).2 = true) :
    (d.createFrom l segments).1.node? k = some .directory
      ↔ d.node? k = some .directory ∨ d.node? k = none ∧ k ∈ named l segments := by
  rw [node?_createFrom h]
  by_cases hk : k ∈ named l segments
  · have hfile := ((createFrom_reached_iff d l segments).1 h).2 k hk
    cases hnode : d.node? k with
    | none => simp [hk]
    | some node =>
        cases node with
        | directory => simp [hk]
        | file bytes => exact absurd hnode (hfile bytes)
  · simp [hk]

/-- Segments lead to a directory, once those along their beginning are created, if what they name was a
directory before, or nothing was there and the beginning names it. -/
theorem createFrom_leads_iff {beginning : List String} (hbegins : beginning <+: segments) (h : d.Rooted l) :
    (d.createFrom l beginning).2 = true ∧ (d.createFrom l beginning).1.Leads l segments
      ↔ (∀ segment ∈ segments, isName segment)
        ∧ ∀ k ∈ named l segments,
            d.node? k = some .directory ∨ d.node? k = none ∧ k ∈ named l beginning := by
  have hrooted : (d.createFrom l beginning).1.Rooted l :=
    fun k hk => (sameBut_createFrom d l beginning).directories k (h k hk)
  rw [leads_iff hrooted]
  constructor
  · rintro ⟨hreached, hshort, hdirectories⟩
    exact ⟨hshort, fun k hk => (directory_createFrom_iff hreached).1 (hdirectories k hk)⟩
  · rintro ⟨hshort, hnamed⟩
    have hreached : (d.createFrom l beginning).2 = true := by
      refine (createFrom_reached_iff d l beginning).2 ⟨fun s hs => hshort s (hbegins.subset hs), ?_⟩
      intro k hk bytes hfile
      obtain ⟨more, rfl⟩ := hbegins
      rcases hnamed k (named_subset_append l beginning more hk) with hdir | ⟨hnone, _⟩
      · rw [hdir] at hfile
        exact nomatch hfile
      · rw [hnone] at hfile
        exact nomatch hfile
    exact ⟨hreached, hshort, fun k hk => (directory_createFrom_iff hreached).2 (hnamed k hk)⟩

/-- **A directory is created where that is possible, and nowhere else.** -/
theorem createDirs_iff (d : Disk) (path : String) :
    (d.createDirs path).2 = true ↔ d.CanCreateDirs path := by
  unfold createDirs CanCreateDirs along
  by_cases hempty : path = ""
  · simp [hempty]
  by_cases hpath : isPath path = true
  · have hhome := (sameBut_createFrom d (d.origin path) (withoutDotted (steps path))).home_eq
    rw [if_neg hempty, if_pos hpath, or_iff_right hempty,
      ← createFrom_leads_iff (withoutDotted_prefix_self _) (rooted_origin d path)]
    dsimp only
    rw [Bool.and_eq_true, isDirectory_iff, origin_congr hhome]
    simp only [hpath, true_and]
  · simp [hempty, hpath]

/-- A name with a dot behind it is not created, one before a dot is. -/
example : (({} : Disk).createDirs "a/.").2 = false ∧ (({} : Disk).createDirs "a/./b/").2 = true := by
  decide

/-- A created directory changes what its path names, and nothing else. -/
theorem node?_createDirs (h : d.CanCreateDirs path) :
    (d.createDirs path).1.node? k
      = if k ∈ d.along path then some .directory else d.node? k := by
  have hcreated := (createDirs_iff d path).2 h
  rcases h with rfl | ⟨hpath, _, hnamed⟩
  · rfl
  · unfold createDirs at hcreated ⊢
    by_cases hempty : path = ""
    · subst hempty
      rfl
    · rw [if_neg hempty, if_pos hpath] at hcreated ⊢
      rw [node?_createFrom (Bool.and_eq_true_iff.1 hcreated).1]
      obtain ⟨more, hmore⟩ := withoutDotted_prefix_self (steps path)
      have hsubset := named_subset_append (d.origin path) (withoutDotted (steps path)) more
      rw [hmore] at hsubset
      by_cases hk : k ∈ d.along path
      · rw [if_pos hk]
        rcases hnamed k hk with hdir | ⟨_, hmem⟩
        · rw [hdir, ite_self]
        · rw [if_pos hmem]
      · rw [if_neg hk, if_neg (mt (@hsubset k) hk)]

end Disk

end BenchLog
