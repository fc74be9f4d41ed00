import BenchLog.Proofs.Table.Absorb
import BenchLog.Table.Csv

/-!
# `BenchLog.Proofs.Table.Csv` — reading exported tables back

The exported text of a matrix is taken apart again by a reader that knows nothing of tables: it goes through
the characters once, and all it remembers is where it stands in a field. Records and fields may hold any text
at all, quotes, commas and line breaks included, and come back as they were. So the text shows the visible
rows and their labelled cells, and two matrices with the same text show the same.

## Contents
- `Csv.Reader` with `push`, `read`: comma-separated values as a machine over characters;
- `Csv.run_encodeField`, `Csv.run_encodeRecord`, `Csv.read_flatMap_encodeRecord`: what is written is read;
- `Matrix.visibleKeys`, `Matrix.shown`, and `Matrix.records_eq`: the exported records of a matrix;
- `Matrix.toCsv_faithful`.
-/

namespace BenchLog

namespace Csv

/-! ## Reading -/

/-- Where a reader stands. -/
inductive Place where
  /-- At the beginning of a field. -/
  | start
  /-- Inside a field without quotes. -/
  | bare
  /-- Between the quotes of a field. -/
  | quoted
  /-- Behind a quote that closes a field, or is the first of two. -/
  | closing
deriving DecidableEq

/-- What has been read: records, the fields of the record that is being read, and the characters of its
    last field, all last first. -/
structure Reader where
  records : List (List (List Char)) := []
  fields : List (List Char) := []
  field : List Char := []
  place : Place := .start
deriving DecidableEq

namespace Reader

/-- The next field begins. -/
def endField (r : Reader) : Reader := ⟨r.records, r.field.reverse :: r.fields, [], .start⟩

/-- The next record begins. -/
def endRecord (r : Reader) : Reader := ⟨(r.field.reverse :: r.fields).reverse :: r.records, [], [], .start⟩

/-- One more character of the field that is being read. -/
def keep (r : Reader) (c : Char) (place : Place) : Reader := ⟨r.records, r.fields, c :: r.field, place⟩

/-- Reads one character. A quote is written twice between quotes and cannot stand without them; nothing
    but the end of the field follows the quote that closes it; an empty line is no record. -/
def push (r : Reader) (c : Char) : Option Reader :=
  match r.place with
  | .start =>
    if c = '\x22' then some { r with place := .quoted }
    else if c = ',' then some r.endField
    else if c = '\n' then some (if r.fields = [] then r else r.endRecord)
    else some (r.keep c .bare)
  | .bare =>
    if c = '\x22' then none
    else if c = ',' then some r.endField
    else if c = '\n' then some r.endRecord
    else some (r.keep c .bare)
  | .quoted => some (if c = '\x22' then { r with place := .closing } else r.keep c .quoted)
  | .closing =>
    if c = '\x22' then some (r.keep c .quoted)
    else if c = ',' then some r.endField
    else if c = '\n' then some r.endRecord
    else none

/-- The records of a text, which ends with the end of a record. -/
def finish (r : Reader) : Option (List (List (List Char))) :=
  if r.place = .start ∧ r.fields = [] then some r.records.reverse else none

end Reader

/-- Reads characters. -/
def run (r : Reader) (cs : List Char) : Option Reader := cs.foldlM Reader.push r

/-- The records of a text. -/
def read (text : String) : Option (List (List String)) := do
  let r ← run {} text.toList
  let records ← r.finish
  return records.map (·.map String.ofList)

variable {records : List (List (List Char))} {fields : List (List Char)} {field cs ds : List Char}
  {r : Reader}

theorem run_nil (r : Reader) : run r [] = some r := rfl

theorem run_cons (r : Reader) (c : Char) (cs : List Char) :
    run r (c :: cs) = (r.push c).bind (run · cs) := rfl

theorem run_append (r : Reader) (cs ds : List Char) :
    run r (cs ++ ds) = (run r cs).bind (run · ds) := List.foldlM_append

/-! ## Fields -/

/-- Characters that need no quotes are kept as they are. -/
theorem run_bare (h : cs.any isSpecial = false) :
    run ⟨records, fields, field, .bare⟩ cs = some ⟨records, fields, cs.reverse ++ field, .bare⟩ := by
  induction cs generalizing field with
  | nil => rfl
  | cons c cs ih =>
      rw [List.any_cons, Bool.or_eq_false_iff] at h
      obtain ⟨hc, hcs⟩ := h
      have hpush : Reader.push ⟨records, fields, field, .bare⟩ c
          = some ⟨records, fields, c :: field, .bare⟩ := by
        simp only [isSpecial, Bool.or_eq_false_iff, beq_eq_false_iff_ne] at hc
        simp [Reader.push, Reader.keep, hc]
      rw [run_cons, hpush, Option.bind_some, ih hcs, List.reverse_cons, List.append_assoc]
      rfl

/-- Between quotes everything is kept, a quote that is written twice being one. -/
theorem run_doubleQuotes :
    run ⟨records, fields, field, .quoted⟩ (doubleQuotes cs)
      = some ⟨records, fields, cs.reverse ++ field, .quoted⟩ := by
  induction cs generalizing field with
  | nil => rfl
  | cons c cs ih =>
      have hc : run ⟨records, fields, field, .quoted⟩ (if c = '\x22' then ['\x22', '\x22'] else [c])
          = some ⟨records, fields, c :: field, .quoted⟩ := by
        split
        · next h => subst h; rfl
        · next h => simp [run_cons, run_nil, Reader.push, Reader.keep, h]
      rw [doubleQuotes, List.flatMap_cons, run_append, hc, Option.bind_some]
      rw [List.reverse_cons, List.append_assoc]
      exact ih

/-- Where a reader stands behind a field: an empty field without quotes is over before it begins. -/
def placeAfter (cs : List Char) : Place :=
  if cs.any isSpecial then .closing else if cs = [] then .start else .bare

/-- The written form of a field gives back the field. -/
theorem run_encodeField (records : List (List (List Char))) (fields : List (List Char))
    (cs : List Char) :
    run ⟨records, fields, [], .start⟩ (encodeField cs)
      = some ⟨records, fields, cs.reverse, placeAfter cs⟩ := by
  unfold encodeField placeAfter
  by_cases hspecial : cs.any isSpecial = true
  · -- The opening quote, what stands between the quotes, the closing quote.
    rw [if_pos hspecial, if_pos hspecial, enclose, run_cons, Reader.push, if_pos rfl, Option.bind_some,
      run_append, run_doubleQuotes, List.append_nil]
    rfl
  · rw [if_neg hspecial, if_neg hspecial]
    have hplain : cs.any isSpecial = false := by simpa using hspecial
    cases cs with
    | nil => rfl
    | cons c cs =>
        rw [List.any_cons, Bool.or_eq_false_iff] at hplain
        obtain ⟨hc, hcs⟩ := hplain
        have hpush : Reader.push ⟨records, fields, [], .start⟩ c = some ⟨records, fields, [c], .bare⟩ := by
          simp only [isSpecial, Bool.or_eq_false_iff, beq_eq_false_iff_ne] at hc
          simp [Reader.push, Reader.keep, hc]
        rw [run_cons, hpush, Option.bind_some, run_bare hcs, if_neg (List.cons_ne_nil c cs),
          List.reverse_cons]

theorem placeAfter_ne_quoted (cs : List Char) : placeAfter cs ≠ .quoted := by
  unfold placeAfter
  split
  · exact Place.noConfusion
  · split <;> exact Place.noConfusion

theorem eq_nil_of_placeAfter (h : placeAfter cs = .start) : cs = [] := by
  unfold placeAfter at h
  split at h
  · exact nomatch h
  · split at h
    · next hnil => exact hnil
    · exact nomatch h

/-- A comma behind a field ends it. -/
theorem push_comma (records : List (List (List Char))) (fields : List (List Char)) (cs : List Char) :
    Reader.push ⟨records, fields, cs.reverse, placeAfter cs⟩ ','
      = some ⟨records, cs :: fields, [], .start⟩ := by
  have hend : Reader.endField ⟨records, fields, cs.reverse, placeAfter cs⟩
      = ⟨records, cs :: fields, [], .start⟩ := by
    rw [Reader.endField, List.reverse_reverse]
  rw [← hend, Reader.push]
  cases hplace : placeAfter cs with
  | quoted => exact absurd hplace (placeAfter_ne_quoted cs)
  | start => rfl
  | bare => rfl
  | closing => rfl

/-- A line break behind a field ends the record, unless it is an empty line. -/
theorem push_newline (records : List (List (List Char))) (h : cs ≠ [] ∨ fields ≠ []) :
    Reader.push ⟨records, fields, cs.reverse, placeAfter cs⟩ '\n'
      = some ⟨(cs :: fields).reverse :: records, [], [], .start⟩ := by
  have hend : Reader.endRecord ⟨records, fields, cs.reverse, placeAfter cs⟩
      = ⟨(cs :: fields).reverse :: records, [], [], .start⟩ := by
    rw [Reader.endRecord, List.reverse_reverse]
  rw [← hend, Reader.push]
  cases hplace : placeAfter cs with
  | quoted => exact absurd hplace (placeAfter_ne_quoted cs)
  | bare => rfl
  | closing => rfl
  | start =>
      have hfields : fields ≠ [] := h.resolve_left fun hcs => hcs (eq_nil_of_placeAfter hplace)
      rw [if_neg (by decide), if_neg (by decide), if_pos rfl, if_neg hfields]

/-! ## Records -/

/-- The fields of a record, a line break behind them, are read as one record. A lone empty field would be
    an empty line and is written in another way. -/
theorem run_joinFields (records : List (List (List Char))) (fields : List (List Char))
    (cs : List Char) (rest : List (List Char)) (h : cs ≠ [] ∨ rest ≠ [] ∨ fields ≠ []) :
    run ⟨records, fields, [], .start⟩ (joinFields (cs :: rest) ++ ['\n'])
      = some ⟨(fields.reverse ++ cs :: rest) :: records, [], [], .start⟩ := by
  induction rest generalizing fields cs with
  | nil =>
      have hline : cs ≠ [] ∨ fields ≠ [] := h.imp_right fun h => h.resolve_left fun hnil => hnil rfl
      rw [joinFields, run_append, run_encodeField, Option.bind_some, run_cons, push_newline records hline,
        Option.bind_some, run_nil, List.reverse_cons]
  | cons ds rest ih =>
      have hnext := ih (cs :: fields) ds (Or.inr (Or.inr (List.cons_ne_nil cs fields)))
      rw [joinFields, List.append_assoc, run_append, run_encodeField, Option.bind_some, List.cons_append,
        run_cons, push_comma, Option.bind_some, hnext, List.reverse_cons, List.append_assoc]
      · rfl
      · exact fun hnil => nomatch hnil

/-- The line of a record is read as that record. -/
theorem run_encodeRecord (records : List (List (List Char))) (h : fields ≠ []) :
    run ⟨records, [], [], .start⟩ (encodeRecord fields)
      = some ⟨fields :: records, [], [], .start⟩ := by
  unfold encodeRecord
  by_cases hempty : fields = [[]]
  · rw [if_pos hempty, hempty]
    rfl
  · rw [if_neg hempty]
    cases fields with
    | nil => exact absurd rfl h
    | cons cs rest =>
        refine run_joinFields records [] cs rest ?_
        by_cases hcs : cs = []
        · refine Or.inr (Or.inl fun hrest => hempty ?_)
          rw [hcs, hrest]
        · exact Or.inl hcs

theorem run_flatMap_encodeRecord (h : ∀ fields ∈ records, fields ≠ [])
    (before : List (List (List Char))) :
    run ⟨before, [], [], .start⟩ (records.flatMap encodeRecord)
      = some ⟨records.reverse ++ before, [], [], .start⟩ := by
  induction records generalizing before with
  | nil => rfl
  | cons fields records ih =>
      obtain ⟨hfields, hrecords⟩ := List.forall_mem_cons.1 h
      rw [List.flatMap_cons, run_append, run_encodeRecord before hfields, Option.bind_some,
        ih hrecords, List.reverse_cons, List.append_assoc]
      rfl

/-- Records that are written one after the other are read back. -/
theorem read_flatMap_encodeRecord {records : List (List String)} (h : ∀ fields ∈ records, fields ≠ []) :
    read (String.ofList (records.flatMap fun fields => encodeRecord (fields.map String.toList)))
      = some records := by
  have hne : ∀ fields ∈ records.map (·.map String.toList), fields ≠ [] := by simpa using h
  have hrun := run_flatMap_encodeRecord hne []
  rw [List.flatMap_map, List.append_nil] at hrun
  have hback : (records.map (·.map String.toList)).map (·.map String.ofList) = records := by
    simp [Function.comp_def]
  rw [read, String.toList_ofList, hrun]
  show some (((records.map (·.map String.toList)).reverse.reverse).map (·.map String.ofList)) = some records
  rw [List.reverse_reverse, hback]

end Csv

/-! ## What the exported text of a matrix shows -/

namespace Matrix

variable {axis : Axis} {m n : Matrix} {key : RowKey}

/-- The keys of the visible rows, in order. -/
def visibleKeys (m : Matrix) : List RowKey := (m.outline.filter (·.2)).map (·.1)

/-- What a cell counts as: an unwritten one as zero. -/
def shown (m : Matrix) (key : RowKey) (bucket : Nat) : UInt64 := (m.get? key bucket).getD 0

/-- The record of a key over the labelled buckets of an axis. -/
def keyRecord (m : Matrix) (axis : Axis) (key : RowKey) : List String :=
  key.text :: (List.range axis.size).map fun bucket => Decimal.text (m.shown key bucket)

/-- The exported records are the header and one record per visible key. -/
theorem WellFormed.records_eq (h : WellFormed axis m) (corner : String) :
    m.records corner = (corner :: axis.labels) :: m.visibleKeys.map (m.keyRecord axis) := by
  have hrecord : ∀ r ∈ m.rows, m.rowRecord r = m.keyRecord axis r.key := by
    intro r hr
    have hcell : ∀ bucket, r.value bucket = m.shown r.key bucket := by
      intro bucket
      rw [Row.value, shown, get?, h.row?_key hr, Option.bind_some]
    rw [rowRecord, keyRecord, h.columns_eq]
    simp only [hcell]
  have hvisible : (m.rows.filter (·.visible)).map m.rowRecord = m.visibleKeys.map (m.keyRecord axis) := by
    rw [visibleKeys, outline, List.filter_map, List.map_map, List.map_map]
    exact List.map_congr_left fun r hr => hrecord r (List.mem_of_mem_filter hr)
  rw [records, h.columns_eq, hvisible]

theorem ne_nil_of_mem_records {corner : String} {fields : List String} (h : fields ∈ m.records corner) :
    fields ≠ [] := by
  rcases List.mem_cons.1 h with rfl | hrow
  · exact List.cons_ne_nil _ _
  · obtain ⟨r, _, rfl⟩ := List.mem_map.1 hrow
    exact List.cons_ne_nil _ _

/-- The exported text is read as the exported records. -/
theorem read_toCsv (m : Matrix) (corner : String) : Csv.read (m.toCsv corner) = some (m.records corner) :=
  Csv.read_flatMap_encodeRecord fun _ hfields => ne_nil_of_mem_records hfields

/-- Two matrices have one text if and only if they have the same records. -/
theorem toCsv_eq_iff {corner : String} :
    m.toCsv corner = n.toCsv corner ↔ m.records corner = n.records corner := by
  constructor
  · intro h
    -- What is read from a text is determined by it.
    have hread := congrArg Csv.read h
    rw [read_toCsv, read_toCsv] at hread
    exact Option.some.inj hread
  · intro h
    rw [toCsv, toCsv, h]

/-- A record gives back its key and every labelled cell. -/
theorem keyRecord_eq_iff {key' : RowKey} :
    m.keyRecord axis key = n.keyRecord axis key'
      ↔ key = key' ∧ ∀ bucket < axis.size, m.shown key bucket = n.shown key' bucket := by
  rw [keyRecord, keyRecord, List.cons.injEq]
  refine and_congr ?_ ?_
  · rw [RowKey.mk.injEq]
  · rw [List.map_inj_left]
    simp only [List.mem_range, Decimal.text_inj]

theorem map_keyRecord_eq_iff {keys keys' : List RowKey} :
    keys.map (m.keyRecord axis) = keys'.map (n.keyRecord axis)
      ↔ keys = keys' ∧ ∀ key ∈ keys, ∀ bucket < axis.size, m.shown key bucket = n.shown key bucket := by
  induction keys generalizing keys' with
  | nil => cases keys' <;> simp
  | cons key keys ih =>
      cases keys' with
      | nil => simp
      | cons key' keys' =>
          rw [List.map_cons, List.map_cons, List.cons.injEq, List.cons.injEq, keyRecord_eq_iff, ih,
            List.forall_mem_cons]
          constructor
          · rintro ⟨⟨rfl, hcells⟩, rfl, hrest⟩
            exact ⟨⟨rfl, rfl⟩, hcells, hrest⟩
          · rintro ⟨⟨rfl, rfl⟩, hcells, hrest⟩
            exact ⟨⟨rfl, hcells⟩, rfl, hrest⟩

/-- The text shows the visible keys in order and their labelled cells, and nothing else. -/
theorem WellFormed.toCsv_eq_iff_shown (hm : WellFormed axis m) (hn : WellFormed axis n) (corner : String) :
    m.toCsv corner = n.toCsv corner
      ↔ m.visibleKeys = n.visibleKeys
        ∧ ∀ key ∈ m.visibleKeys, ∀ bucket < axis.size, m.shown key bucket = n.shown key bucket := by
  rw [toCsv_eq_iff, hm.records_eq, hn.records_eq, List.cons.injEq, map_keyRecord_eq_iff]
  exact and_iff_right rfl

theorem WellFormed.visible?_of_mem_visibleKeys (h : WellFormed axis m) (hkey : key ∈ m.visibleKeys) :
    m.visible? key = some true := by
  obtain ⟨⟨k, visible⟩, hmem, rfl⟩ := List.mem_map.1 hkey
  obtain ⟨hrow, hvisible⟩ := List.mem_filter.1 hmem
  obtain ⟨r, hr, heq⟩ := List.mem_map.1 hrow
  obtain ⟨rfl, rfl⟩ := Prod.mk.inj heq
  rw [visible?, h.row?_key hr, Option.map_some]
  exact congrArg some hvisible

/-- A write to a row that is hidden, or to the unmapped column of a row that is there, shows nowhere. -/
theorem WellFormed.toCsv_write_of_unshown (h : WellFormed axis m) (hkey : key ∈ m.keys) {bucket : Nat}
    (hunshown : m.visible? key = some false ∨ axis.size ≤ bucket) (value : UInt64) (corner : String) :
    (m.write key bucket value).toCsv corner = m.toCsv corner := by
  have hkeys : (m.write key bucket value).visibleKeys = m.visibleKeys := by
    rw [visibleKeys, outline_write, if_pos hkey, visibleKeys]
  refine ((h.write key bucket value).toCsv_eq_iff_shown h corner).2 ⟨hkeys, fun k hk b hb => ?_⟩
  rw [hkeys] at hk
  have hother : ¬ (k = key ∧ b = min bucket axis.unmapped) := by
    rintro ⟨rfl, hbucket⟩
    rcases hunshown with hhidden | hunmapped
    · rw [h.visible?_of_mem_visibleKeys hk] at hhidden
      exact absurd hhidden (by decide)
    · rw [Axis.unmapped, Nat.min_eq_right hunmapped] at hbucket
      omega
  rw [shown, h.get?_write, if_neg hother, shown]

/-- **The exported text is a faithful image of the visible part of a matrix.** Read back as comma-separated
    values, it is the header and then one record for each visible row, in order: the key and every labelled
    cell, an unwritten one as zero. Two matrices over one axis with the same corner therefore have the same
    text if and only if their visible rows have the same keys in the same order and the same labelled cells.
    What is written to a hidden row or to the unmapped column does not change the text. -/
theorem toCsv_faithful (hm : m.Reachable axis) (corner : String) :
    Csv.read (m.toCsv corner)
        = some ((corner :: axis.values.map Decimal.text)
            :: m.visibleKeys.map fun key =>
              key.text :: (List.range axis.size).map fun bucket =>
                Decimal.text ((m.get? key bucket).getD 0))
      ∧ (∀ n : Matrix, n.Reachable axis →
          (m.toCsv corner = n.toCsv corner
            ↔ m.visibleKeys = n.visibleKeys
              ∧ ∀ key ∈ m.visibleKeys, ∀ bucket < axis.size,
                  (m.get? key bucket).getD 0 = (n.get? key bucket).getD 0))
      ∧ ∀ key bucket value, key ∈ m.keys → (m.visible? key = some false ∨ axis.size ≤ bucket) →
          (m.write key bucket value).toCsv corner = m.toCsv corner := by
  have hwell := hm.wellFormed
  refine ⟨?_, fun n hn => ?_, fun key bucket value hkey hunshown => ?_⟩
  · rw [read_toCsv, hwell.records_eq]
    rfl
  · exact hwell.toCsv_eq_iff_shown hn.wellFormed corner
  · exact hwell.toCsv_write_of_unshown hkey hunshown value corner

/-- A key that holds every character with a meaning of its own, and a hidden row. -/
theorem toCsv_faithful_awkward_key :
    let axis : Axis := ⟨"threads", [8, 16]⟩
    let m := (((empty axis).write ⟨"a,\x22b\x22\r\n:96"⟩ 1 7).write ⟨"a:other"⟩ 0 5).hide ⟨"a:other"⟩
    m.Reachable axis
      ∧ Csv.read (m.toCsv "data")
        = some [["data", "8", "16"], ["a,\x22b\x22\r\n:96", "0", "7"]]
      ∧ (m.write ⟨"a:other"⟩ 1 9).toCsv "data" = m.toCsv "data" := by
  intro axis m
  have hm : m.Reachable axis := .hide (.write (.write .empty _ _ _) _ _ _) _
  obtain ⟨hread, _, hwrite⟩ := toCsv_faithful hm "data"
  exact ⟨hm, hread.trans (by decide), hwrite _ _ _ (by decide) (Or.inl (by decide))⟩

end Matrix

end BenchLog
