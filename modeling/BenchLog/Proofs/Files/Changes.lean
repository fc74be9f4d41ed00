import BenchLog.Files.Disk

/-!
# `BenchLog.Proofs.Files.Changes` — what a change to a disk leaves alone

There are two ways to change a disk: directories are created where there is nothing, and a file is put where
no directory is. Neither takes a directory away, so a path that leads somewhere goes on leading there. What
a change may have touched is therefore named by paths: `SameBut places paths d d'` says that `d'` is `d` but
for the files at `paths` and for new directories at `places`.

## Contents
- `node?_put`, what is where after something was put;
- `resolve?_mono`, paths go on leading where they led; `Apart`, paths that lead to different locations;
- `SameBut`, a frame with `refl`, `trans`, `mono`, and `read?_eq` for the files outside it;
- `node?_put_directory`, one new directory; `CanCreate` with the laws of `write?`.
-/

namespace BenchLog

namespace Disk

variable {d d' d'' : Disk} {l k : Location} {node : Node}

/-! ## What is where -/

theorem node?_of_prefix_home (h : l <+: d.home) : d.node? l = some .directory := if_pos h

theorem node?_of_not_prefix_home (h : ¬l <+: d.home) :
    d.node? l = (d.entries.find? (·.1 = l)).map Prod.snd := if_neg h

theorem home_put : (d.put l node).home = d.home := by
  unfold put
  split <;> rfl

theorem find?_entries_put :
    (d.put l node).entries.find? (·.1 = k)
      = if k = l then some (l, node) else d.entries.find? (·.1 = k) := by
  unfold put
  split
  · next hany =>
      -- Where the location is known, its entry is exchanged and every other one stays.
      obtain ⟨e, he, hel⟩ := List.any_eq_true.1 hany
      have hkey : ∀ e : Location × Node, (if e.1 = l then (l, node) else e).1 = e.1 := by
        intro e
        split
        · next h => exact h.symm
        · rfl
      rw [List.find?_map]
      simp only [Function.comp_def, hkey]
      cases hfind : d.entries.find? (·.1 = k) with
      | none =>
          rw [Option.map_none, if_neg]
          rintro rfl
          exact absurd hel (by simpa using List.find?_eq_none.1 hfind e he)
      | some e =>
          have hek : e.1 = k := by simpa using List.find?_some hfind
          rw [Option.map_some, hek]
          split
          · rfl
          · rfl
  · next hany =>
      rw [List.find?_append, List.find?_singleton]
      by_cases hk : k = l
      · subst hk
        have hnone : d.entries.find? (·.1 = k) = none :=
          List.find?_eq_none.2 fun e he h => hany (List.any_eq_true.2 ⟨e, he, h⟩)
        rw [hnone]
        simp
      · simp [hk, Ne.symm hk]

theorem node?_put (hl : d.node? l ≠ some .directory) :
    (d.put l node).node? k = if k = l then some node else d.node? k := by
  have hhome : (d.put l node).home = d.home := home_put
  by_cases hk : k <+: d.home
  · rw [node?_of_prefix_home hk, node?_of_prefix_home (hhome ▸ hk), if_neg]
    rintro rfl
    exact hl (node?_of_prefix_home hk)
  · rw [node?_of_not_prefix_home hk, node?_of_not_prefix_home (hhome ▸ hk), find?_entries_put]
    split <;> rfl

/-! ## Where paths lead -/

theorem step?_mono (h : ∀ l, d.node? l = some .directory → d'.node? l = some .directory)
    {segment : String} (hstep : d.step? l segment = some k) : d'.step? l segment = some k := by
  unfold step? at hstep ⊢
  by_cases hdir : d.node? l = some .directory
  · rw [if_neg (not_not_intro hdir)] at hstep
    rwa [if_neg (not_not_intro (h l hdir))]
  · rw [if_pos hdir] at hstep
    exact nomatch hstep

theorem foldlM_step?_mono (h : ∀ l, d.node? l = some .directory → d'.node? l = some .directory)
    {segments : List String} (hfold : segments.foldlM d.step? l = some k) :
    segments.foldlM d'.step? l = some k := by
  induction segments generalizing l with
  | nil => exact hfold
  | cons segment segments ih =>
      rw [List.foldlM_cons] at hfold ⊢
      obtain ⟨next, hnext, hrest⟩ := Option.bind_eq_some_iff.1 hfold
      exact Option.bind_eq_some_iff.2 ⟨next, step?_mono h hnext, ih hrest⟩

/-- Where a path starts hangs on the working directory only. -/
theorem origin_congr (hhome : d'.home = d.home) (path : String) : d'.origin path = d.origin path := by
  rw [origin, origin, hhome]

/-- Where no directory is lost, paths go on leading where they led. -/
theorem resolve?_mono (hhome : d'.home = d.home)
    (h : ∀ l, d.node? l = some .directory → d'.node? l = some .directory)
    {path : String} (hpath : d.resolve? path = some l) : d'.resolve? path = some l := by
  unfold resolve? at hpath ⊢
  rw [origin_congr hhome]
  split at hpath
  · next hp =>
      rw [if_pos hp]
      exact foldlM_step?_mono h hpath
  · exact nomatch hpath

/-- Two paths do not lead to one location. -/
def Apart (d : Disk) (path other : String) : Prop :=
  ∀ l, d.resolve? path = some l → d.resolve? other ≠ some l

theorem Apart.symm {path other : String} (h : d.Apart path other) : d.Apart other path :=
  fun l hother hpath => h l hpath hother

theorem read?_eq_some_iff {path : String} {bytes : List UInt8} :
    d.read? path = some bytes
      ↔ ∃ l, d.resolve? path = some l ∧ d.node? l = some (.file bytes) := by
  unfold read? find?
  cases hpath : d.resolve? path with
  | none => simp
  | some l =>
      simp only [Option.bind_some, Option.some.injEq, exists_eq_left']
      cases hnode : d.node? l with
      | none => simp
      | some node => cases node <;> simp

/-! ## The frame of a change -/

/-- The second disk is the first but for the files at these paths, and for directories at these places where
nothing was. -/
structure SameBut (places : List Location) (paths : List String) (d d' : Disk) : Prop where
  /-- The working directory is the same. -/
  home_eq : d'.home = d.home
  /-- No directory is lost. -/
  directories : ∀ l, d.node? l = some .directory → d'.node? l = some .directory
  /-- Elsewhere everything is as it was, or it is one of the new directories. -/
  elsewhere : ∀ l, (∀ path ∈ paths, d'.resolve? path ≠ some l) →
    d'.node? l = d.node? l ∨ d.node? l = none ∧ d'.node? l = some .directory ∧ l ∈ places

namespace SameBut

variable {places others : List Location} {paths more : List String}

theorem refl (d : Disk) : SameBut places paths d d := ⟨rfl, fun _ h => h, fun _ _ => Or.inl rfl⟩

theorem trans (h : SameBut places paths d d') (h' : SameBut others more d' d'') :
    SameBut (places ++ others) (paths ++ more) d d'' where
  home_eq := h'.home_eq.trans h.home_eq
  directories := fun l hl => h'.directories l (h.directories l hl)
  elsewhere := by
    intro l hl
    have hpaths : ∀ path ∈ paths, d'.resolve? path ≠ some l := fun path hpath hresolve =>
      hl path (List.mem_append_left _ hpath) (resolve?_mono h'.home_eq h'.directories hresolve)
    have hmore : ∀ path ∈ more, d''.resolve? path ≠ some l :=
      fun path hpath => hl path (List.mem_append_right _ hpath)
    rcases h.elsewhere l hpaths with hsame | ⟨hnone, hdir, hplace⟩
    · rw [← hsame]
      rcases h'.elsewhere l hmore with hsame' | ⟨hnone, hdir, hplace⟩
      · exact Or.inl hsame'
      · exact Or.inr ⟨hnone, hdir, List.mem_append_right _ hplace⟩
    · exact Or.inr ⟨hnone, h'.directories l hdir, List.mem_append_left _ hplace⟩

/-- Changes without new directories leave the places as they are. -/
theorem trans_files (h : SameBut places paths d d') (h' : SameBut [] more d' d'') :
    SameBut places (paths ++ more) d d'' := by
  have hboth := h.trans h'
  rwa [List.append_nil] at hboth

theorem mono (h : SameBut places paths d d') (hplaces : places ⊆ others) (hpaths : paths ⊆ more) :
    SameBut others more d d' where
  home_eq := h.home_eq
  directories := h.directories
  elsewhere := by
    intro l hl
    rcases h.elsewhere l fun path hpath => hl path (hpaths hpath) with hsame | ⟨hnone, hdir, hplace⟩
    · exact Or.inl hsame
    · exact Or.inr ⟨hnone, hdir, hplaces hplace⟩

theorem mono_files (h : SameBut places paths d d') (hpaths : paths ⊆ more) : SameBut places more d d' :=
  h.mono (List.Subset.refl _) hpaths

theorem resolve? (h : SameBut places paths d d') {path : String} (hpath : d.resolve? path = some l) :
    d'.resolve? path = some l :=
  resolve?_mono h.home_eq h.directories hpath

/-- A file that none of the paths leads to is read as before. -/
theorem read?_eq (h : SameBut places paths d d') {path : String} {bytes : List UInt8}
    (hread : d.read? path = some bytes)
    (hapart : ∀ other ∈ paths, d'.Apart path other) : d'.read? path = some bytes := by
  obtain ⟨l, hl, hnode⟩ := read?_eq_some_iff.1 hread
  have hl' := h.resolve? hl
  refine read?_eq_some_iff.2 ⟨l, hl', ?_⟩
  rcases h.elsewhere l fun other hother => hapart other hother l hl' with hsame | ⟨hnone, _⟩
  · rw [hsame, hnode]
  · rw [hnone] at hnode
    exact nomatch hnode

end SameBut

/-! ## Creating directories -/

theorem node?_put_directory (h : d.node? l = none) :
    (d.put l .directory).node? k = if k = l then some .directory else d.node? k := by
  have hput : d.node? l ≠ some .directory := by
    rw [h]
    exact fun he => nomatch he
  exact node?_put hput

theorem sameBut_put_directory (h : d.node? l = none) : SameBut [l] [] d (d.put l .directory) := by
  refine ⟨home_put, fun k hk => ?_, fun k _ => ?_⟩
  · rw [node?_put_directory h, hk, ite_self]
  · rw [node?_put_directory h]
    split
    · next hkl => exact Or.inr ⟨hkl ▸ h, rfl, List.mem_singleton.2 hkl⟩
    · exact Or.inl rfl

/-! ## Writing files -/

/-- A file can be created or replaced at a path: it leads somewhere, and not to a directory. -/
def CanCreate (d : Disk) (path : String) : Prop :=
  ∃ l, d.resolve? path = some l ∧ d.node? l ≠ some .directory

variable {path : String} {bytes : List UInt8}

theorem write?_eq_some_iff :
    d.write? path bytes = some d'
      ↔ ∃ l, d.resolve? path = some l ∧ d.node? l ≠ some .directory ∧ d' = d.put l (.file bytes) := by
  unfold write?
  cases hpath : d.resolve? path with
  | none => simp
  | some l =>
      simp only [Option.some.injEq, exists_eq_left']
      split
      · next hdir => simp [hdir]
      · next hdir =>
          constructor
          · intro h
            exact ⟨hdir, (Option.some.inj h).symm⟩
          · rintro ⟨_, rfl⟩
            rfl

theorem exists_write? (h : d.CanCreate path) (bytes : List UInt8) :
    ∃ d', d.write? path bytes = some d' := by
  obtain ⟨l, hl, hnode⟩ := h
  exact ⟨_, write?_eq_some_iff.2 ⟨l, hl, hnode, rfl⟩⟩

theorem write?_eq_none (h : ¬d.CanCreate path) (bytes : List UInt8) : d.write? path bytes = none := by
  cases hwrite : d.write? path bytes with
  | none => rfl
  | some d' =>
      obtain ⟨l, hl, hnode, _⟩ := write?_eq_some_iff.1 hwrite
      exact absurd ⟨l, hl, hnode⟩ h

/-- A written file changes the directories of a disk in no way. -/
theorem write?_directory_iff (h : d.write? path bytes = some d') (l : Location) :
    d'.node? l = some .directory ↔ d.node? l = some .directory := by
  obtain ⟨k, _, hnode, rfl⟩ := write?_eq_some_iff.1 h
  rw [node?_put hnode]
  split
  · next hlk =>
      subst hlk
      exact ⟨fun he => (nomatch he), fun he => absurd he hnode⟩
  · exact Iff.rfl

theorem home_write? (h : d.write? path bytes = some d') : d'.home = d.home := by
  obtain ⟨k, _, _, rfl⟩ := write?_eq_some_iff.1 h
  exact home_put

theorem resolve?_write? (h : d.write? path bytes = some d') (p : String) :
    d'.resolve? p = d.resolve? p := by
  have hiff : ∀ l, d'.resolve? p = some l ↔ d.resolve? p = some l := fun l =>
    ⟨resolve?_mono (home_write? h).symm fun k => (write?_directory_iff h k).1,
      resolve?_mono (home_write? h) fun k => (write?_directory_iff h k).2⟩
  cases hp : d.resolve? p with
  | none => exact Option.eq_none_iff_forall_ne_some.2 fun l hl => by simp [(hiff l).1 hl] at hp
  | some l => exact (hiff l).2 hp

theorem sameBut_write? (h : d.write? path bytes = some d') : SameBut [] [path] d d' := by
  refine ⟨home_write? h, fun l => (write?_directory_iff h l).2, fun l hl => Or.inl ?_⟩
  -- `SameBut` asks where the path leads afterwards, and that is where it led before.
  have hresolve := hl path (List.mem_singleton_self path)
  rw [resolve?_write? h] at hresolve
  obtain ⟨k, hk, hnode, rfl⟩ := write?_eq_some_iff.1 h
  rw [node?_put hnode, if_neg]
  rintro rfl
  exact hresolve hk

/-- A written file is read back. -/
theorem read?_write? (h : d.write? path bytes = some d') : d'.read? path = some bytes := by
  have hpath := resolve?_write? h path
  obtain ⟨l, hl, hnode, rfl⟩ := write?_eq_some_iff.1 h
  exact read?_eq_some_iff.2
    ⟨l, hpath.trans hl, by rw [node?_put hnode, if_pos rfl]⟩

/-- Whether a file can be created does not hang on files that were written before. -/
theorem canCreate_write? (h : d.write? path bytes = some d') (p : String) :
    d'.CanCreate p ↔ d.CanCreate p := by
  unfold CanCreate
  simp only [resolve?_write? h, ne_eq, write?_directory_iff h]

end Disk

end BenchLog
