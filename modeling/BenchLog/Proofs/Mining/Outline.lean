import BenchLog.Proofs.Mining.InStep
import BenchLog.Proofs.Mining.Merge
import BenchLog.Proofs.Mining.Cells
import Mathlib.Data.List.Induction

/-!
# `BenchLog.Proofs.Mining.Outline` — the shape of the tables of syscall logs

The tables of the counter log have the rows that its records name. Those of the syscall log have the same
shape whatever the logs hold: six rows for every set, five for the listed numbers of instances and a hidden
one for all others. A set declares its rows once, in a block at the end; declaring it again finds them all
in place; and whatever number a section brings, its row is one of the six. So the rows depend on the names
of the sets alone, and on the order in which they are first seen.

## Contents
- `Syscall.setOutline`, the rows of a set, and `Syscall.keys_setOutline`, whose they are;
- `Matrix.outline_declare_of_new`, a new set puts its rows last;
- `Matrix.Lists`, a matrix has the rows of some sets and no others: kept by declaring and by entering;
- `Variant.lists_replay`, and `Variant.syscall_tables_have_full_shape`.
-/

namespace BenchLog

/-! ## The rows of a set -/

/-- The rows of a set in order, each with its visibility. -/
def Syscall.setOutline (set : String) : List (RowKey × Bool) :=
  ["96", "128", "192", "256", "384"].map (fun label => (RowKey.labelled set label, true))
    ++ [(RowKey.labelled set "other", false)]

namespace Syscall

theorem labels_eq : Axis.syscallInstances.labels = ["96", "128", "192", "256", "384"] := by decide

/-- The labels of a set: those of the listed numbers, and the one for all others. -/
def setLabels : List String := Axis.syscallInstances.labels ++ [Axis.otherLabel]

theorem keys_setOutline (set : String) :
    (setOutline set).map Prod.fst = setLabels.map (RowKey.labelled set) := by
  rw [setLabels, labels_eq]
  rfl

theorem colon_not_mem_of_mem_setLabels {label : String} (h : label ∈ setLabels) :
    ':' ∉ label.toList := by
  rcases List.mem_append.1 h with hlisted | hother
  · obtain ⟨n, _, rfl⟩ := List.mem_map.1 hlisted
    exact Decimal.colon_not_mem_text n
  · rw [List.mem_singleton.1 hother]
    exact Axis.colon_not_mem_otherLabel

/-- The row of any number of instances is one of the six rows of its set. -/
theorem exists_label_rowOf (set : String) (instances : UInt64) :
    ∃ label ∈ setLabels, rowOf set instances = .labelled set label := by
  unfold rowOf Axis.label?
  dsimp only
  cases h : Axis.syscallInstances.values[Axis.syscallInstances.bucketOf instances]? with
  | none => exact ⟨Axis.otherLabel, List.mem_append_right _ (List.mem_singleton_self _), rfl⟩
  | some n =>
      exact ⟨Decimal.text n,
        List.mem_append_left _ (List.mem_map_of_mem (List.mem_of_getElem? h)), rfl⟩

end Syscall

/-! ## Declaring -/

namespace Matrix

variable {axis : Axis} {m : Matrix} {set : String} {sets : List String}

theorem keys_eq_map_outline (m : Matrix) : m.keys = m.outline.map Prod.fst := by
  rw [keys, outline, List.map_map]
  rfl

theorem outline_ensure_of_not_mem {key : RowKey} (h : key ∉ m.keys) :
    (m.ensure key).outline = m.outline ++ [(key, true)] := by
  rw [outline, ensure, alter, upsert_of_not_mem h, List.map_append]
  rfl

theorem outline_hide_of_not_mem {key : RowKey} (h : key ∉ m.keys) :
    (m.hide key).outline = m.outline ++ [(key, false)] := by
  rw [outline, hide, alter, upsert_of_not_mem h, List.map_append]
  rfl

/-- New rows come last and are visible. -/
theorem outline_foldl_ensure {keys : List RowKey} (hnodup : keys.Nodup)
    (hnew : ∀ key ∈ keys, key ∉ m.keys) :
    (keys.foldl ensure m).outline = m.outline ++ keys.map (·, true) := by
  induction keys generalizing m with
  | nil => rw [List.foldl_nil, List.map_nil, List.append_nil]
  | cons key keys ih =>
      rw [List.nodup_cons] at hnodup
      obtain ⟨hkey, hkeys⟩ := List.forall_mem_cons.1 hnew
      have hrest : ∀ k ∈ keys, k ∉ (m.ensure key).keys := by
        intro k hk hmem
        rw [keys_ensure, mem_addKey] at hmem
        rcases hmem with hold | rfl
        · exact hkeys k hk hold
        · exact hnodup.1 hk
      rw [List.foldl_cons, ih hnodup.2 hrest, outline_ensure_of_not_mem hkey, List.append_assoc,
        List.map_cons, List.singleton_append]

theorem nodup_setKeys (set : String) :
    (Axis.syscallInstances.labels.map (RowKey.labelled set)).Nodup := by
  have hcolon : ∀ label ∈ Axis.syscallInstances.labels, ':' ∉ label.toList :=
    fun label h => Syscall.colon_not_mem_of_mem_setLabels (List.mem_append_left _ h)
  refine List.Nodup.map_on ?_ (by decide)
  intro label hlabel label' hlabel' h
  exact ((RowKey.labelled_inj (hcolon label hlabel) (hcolon label' hlabel')).1 h).2

/-- A set of which there is no row puts its rows last. -/
theorem outline_declare_of_new
    (hnew : ∀ label ∈ Syscall.setLabels, RowKey.labelled set label ∉ m.keys) :
    (m.declare set).outline = m.outline ++ Syscall.setOutline set := by
  have hlisted : ∀ key ∈ Axis.syscallInstances.labels.map (RowKey.labelled set), key ∉ m.keys :=
    List.forall_mem_map.2 fun label h => hnew label (List.mem_append_left _ h)
  have hother : RowKey.labelled set Axis.otherLabel
      ∉ ((Axis.syscallInstances.labels.map (RowKey.labelled set)).foldl ensure m).keys := by
    rw [mem_keys_foldl_ensure, not_or]
    refine ⟨hnew _ (List.mem_append_right _ (List.mem_singleton_self _)), fun h => ?_⟩
    obtain ⟨label, hlabel, hkey⟩ := List.mem_map.1 h
    obtain ⟨n, _, rfl⟩ := List.mem_map.1 hlabel
    exact RowKey.labelled_text_ne_other set set n hkey
  rw [declare, outline_hide_of_not_mem hother, outline_foldl_ensure (nodup_setKeys set) hlisted,
    List.append_assoc, List.map_map, Syscall.setOutline, Syscall.labels_eq]
  rfl

/-! ## The rows of some sets and no others -/

/-- The rows are those of some sets, a block for each in order. -/
def Lists (sets : List String) (m : Matrix) : Prop := m.outline = sets.flatMap Syscall.setOutline

theorem Lists.mem_keys_iff (h : m.Lists sets) {label : String} (hlabel : label ∈ Syscall.setLabels) :
    RowKey.labelled set label ∈ m.keys ↔ set ∈ sets := by
  rw [keys_eq_map_outline, h, List.map_flatMap]
  simp only [Syscall.keys_setOutline, List.mem_flatMap, List.mem_map]
  constructor
  · -- A set may hold colons, a label holds none: the last colon of a key tells where its set ends.
    rintro ⟨set', hset', label', hlabel', hkey⟩
    obtain ⟨rfl, rfl⟩ := (RowKey.labelled_inj (Syscall.colon_not_mem_of_mem_setLabels hlabel')
      (Syscall.colon_not_mem_of_mem_setLabels hlabel)).1 hkey
    exact hset'
  · exact fun hset => ⟨set, hset, label, hlabel, rfl⟩

/-- A row stands in the outline as a look-up finds it. -/
theorem WellFormed.visible?_of_mem_outline (h : WellFormed axis m) {key : RowKey} {visible : Bool}
    (hmem : (key, visible) ∈ m.outline) : m.visible? key = some visible := by
  obtain ⟨r, hr, hpair⟩ := List.mem_map.1 hmem
  obtain ⟨rfl, rfl⟩ := Prod.mk.inj hpair
  rw [visible?, h.row?_key hr, Option.map_some]

theorem Lists.declares (h : m.Lists sets) (hm : WellFormed axis m) (hset : set ∈ sets) :
    m.Declares set where
  listed := fun _ hlabel => (h.mem_keys_iff (List.mem_append_left _ hlabel)).2 hset
  other := by
    refine hm.visible?_of_mem_outline ?_
    rw [h, List.mem_flatMap]
    exact ⟨set, hset, List.mem_append_right _ (List.mem_singleton_self _)⟩

/-- Declaring a known set does nothing, declaring a new one adds its block. -/
theorem Lists.declare (h : m.Lists sets) (hm : WellFormed axis m) (set : String) :
    (m.declare set).Lists (if set ∈ sets then sets else sets ++ [set]) := by
  by_cases hset : set ∈ sets
  · rw [if_pos hset, (h.declares hm hset).declare_eq hm]
    exact h
  · have hnew : ∀ label ∈ Syscall.setLabels, RowKey.labelled set label ∉ m.keys :=
      fun label hlabel => mt (h.mem_keys_iff hlabel).1 hset
    rw [if_neg hset, Lists, outline_declare_of_new hnew, h, List.flatMap_append,
      List.flatMap_singleton]

/-- Entries for the rows of a listed set add no row and change no visibility. -/
theorem Lists.foldl_write (h : m.Lists sets) (hset : set ∈ sets) {es : List Entry}
    {value : Entry → UInt64} (hrow : ∀ e ∈ es, ∃ instances, e.row = Syscall.rowOf set instances) :
    (es.foldl (fun m e => m.write e.row e.bucket (value e)) m).Lists sets := by
  have hknown : ∀ key ∈ es.map Entry.row, key ∈ m.keys := by
    intro key hkey
    obtain ⟨e, he, rfl⟩ := List.mem_map.1 hkey
    obtain ⟨instances, hinstances⟩ := hrow e he
    obtain ⟨label, hlabel, hlabelled⟩ := Syscall.exists_label_rowOf set instances
    rw [hinstances, hlabelled]
    exact (h.mem_keys_iff hlabel).2 hset
  have hnone : newKeys m.keys (es.map Entry.row) = [] := by
    have hfilter : (es.map Entry.row).filter (· ∉ m.keys) = [] :=
      List.filter_eq_nil_iff.2 fun key hkey => by simpa using hknown key hkey
    rw [newKeys, hfilter]
    rfl
  rw [Lists, outline_foldl_write, hnone, List.map_nil, List.append_nil]
  exact h

end Matrix

/-! ## Whole logs -/

namespace Variant

variable {t : Tables} {sets : List String}

/-- Outcomes of sections that were mined for a listed set add no row and change no visibility. -/
theorem lists_foldl_enter (h : t.values.Lists sets) {set : String} (hset : set ∈ sets)
    (log : List String) {os : List Outcome} (hos : ∀ o ∈ os, o ∈ syscall.results set log) :
    (os.foldl Tables.enter t).values.Lists sets := by
  rw [Tables.foldl_enter, Tables.values_foldl_put]
  refine h.foldl_write hset fun e he => ?_
  obtain ⟨o, ho, hentered⟩ := List.mem_filterMap.1 he
  exact row_of_mem_entries_syscall (List.mem_filterMap.2 ⟨o, hos o ho, hentered⟩)

/-- Entering a log leaves the rows of all sets in place, and adds those of its own set if it is new. -/
theorem lists_mineOver (h : t.values.Lists sets) (ht : t.WellFormed syscall.columns)
    (log : String × List String) :
    (syscall.mineOver t log).values.Lists (if log.1 ∈ sets then sets else sets ++ [log.1]) := by
  refine lists_foldl_enter (t := syscall.declare log.1 t) (h.declare ht.values log.1) ?_ log.2
    fun _ ho => ho
  split
  · next hset => exact hset
  · exact List.mem_append_right _ (List.mem_singleton_self _)

theorem Tidy.foldl_mineOver {v : Variant} (h : v.Tidy t) (logs : List (String × List String)) :
    v.Tidy (logs.foldl v.mineOver t) := by
  induction logs generalizing t with
  | nil => exact h
  | cons log logs ih => exact ih (h.mineOver log)

/-- One more set comes last among the distinct ones, unless it was there before. -/
theorem eraseDups_concat (sets : List String) (set : String) :
    (sets ++ [set]).eraseDups
      = if set ∈ sets.eraseDups then sets.eraseDups else sets.eraseDups ++ [set] := by
  rw [List.eraseDups_append, List.removeAll]
  by_cases h : set ∈ sets
  · rw [if_pos (List.mem_eraseDups.2 h)]
    simp [h]
  · rw [if_neg (mt List.mem_eraseDups.1 h)]
    simp [h, List.eraseDups_cons]

theorem lists_replay (logs : List (String × List String)) :
    (syscall.replay logs).values.Lists (logs.map Prod.fst).eraseDups := by
  -- Blocks are added at the end, so the logs are taken off from there.
  induction logs using List.reverseRecOn with
  | nil => rfl
  | append_singleton logs log ih =>
      have htidy : syscall.Tidy (syscall.replay logs) := (Tidy.empty syscall).foldl_mineOver logs
      rw [replay, List.foldl_concat, List.map_append, List.map_singleton, eraseDups_concat]
      exact lists_mineOver ih htidy.wellFormed log

theorem reachable_merge (v : Variant) (logs : List (String × List String)) :
    Tables.Reachable v.columns (v.merge logs) := by
  induction logs using List.reverseRecOn with
  | nil => exact .empty
  | append_singleton logs log ih =>
      rw [merge, List.foldl_concat]
      exact ih.absorb (reachable_mineLog v log.1 log.2)

theorem lists_freshTables (set : String) : (syscall.freshTables set).values.Lists [set] := by
  have hempty : (Tables.empty syscall.columns).values.Lists [] := rfl
  rw [freshTables_eq_declare]
  exact hempty.declare (.empty _) set

/-- A miner never has other rows than those of its set. -/
theorem lists_runAll {set : String} (h : t.values.Lists [set]) (logs : List (List String)) :
    ((⟨syscall, set, t⟩ : Miner).runAll logs).tables.values.Lists [set] := by
  induction logs generalizing t with
  | nil => exact h
  | cons log logs ih =>
      exact ih (lists_foldl_enter h (List.mem_singleton_self set) log fun _ ho => ho)

/-- **The tables of syscall logs always have the full shape.** Whatever the logs hold, both merged matrices
    have exactly six rows for every distinct set, one block for each in the order in which the sets are
    first seen: the five listed numbers of instances, visible, and behind them the hidden row for all
    others. No key stands twice. The tables of a miner have the six rows of its set before, between and
    after the outcomes of its sections. -/
theorem syscall_tables_have_full_shape :
    (∀ logs : List (String × List String),
        let merged := syscall.merge logs
        let outline := (logs.map Prod.fst).eraseDups.flatMap Syscall.setOutline
        merged.values.outline = outline ∧ merged.missed.outline = outline
          ∧ merged.values.keys.Nodup ∧ merged.missed.keys.Nodup)
      ∧ ∀ (set : String) (logs : List (List String)) (log : List String) (n : Nat),
          let before := ((Miner.new syscall set).runAll logs).tables
          let t := ((syscall.results set log).take n).foldl Tables.enter before
          t.values.outline = Syscall.setOutline set ∧ t.missed.outline = Syscall.setOutline set := by
  constructor
  · intro logs merged outline
    have hreplay : merged = syscall.replay logs := foldl_absorb_eq_foldl_mineOver (.empty _) logs
    have hvalues : merged.values.outline = outline := by
      rw [hreplay]
      exact lists_replay logs
    have htidy : syscall.Tidy merged := by
      rw [hreplay]
      exact (Tidy.empty syscall).foldl_mineOver logs
    have hstep := (reachable_merge syscall logs).inStep.outline_eq
    exact ⟨hvalues, hstep ▸ hvalues, htidy.wellFormed.values.keys_nodup,
      htidy.wellFormed.missed.keys_nodup⟩
  · intro set logs log n before t
    have hbefore : before.values.Lists [set] := lists_runAll (lists_freshTables set) logs
    have hlists : t.values.Lists [set] := lists_foldl_enter hbefore (List.mem_singleton_self set)
      log fun _ ho => List.mem_of_mem_take ho
    have hvalues : t.values.outline = Syscall.setOutline set := by
      rw [hlists, List.flatMap_singleton]
    have hreachable : Tables.Reachable syscall.columns before :=
      Miner.reachable_runAll (m := Miner.new syscall set) (reachable_freshTables syscall set) logs
    have hstep := (hreachable.foldl_enter ((syscall.results set log).take n)).inStep.outline_eq
    exact ⟨hvalues, hstep ▸ hvalues⟩

end Variant

end BenchLog
