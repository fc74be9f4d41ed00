import BenchLog.Files.Fault
import BenchLog.Proofs.Files.Directories

/-!
# `BenchLog.Proofs.Files.Fault` — operations that can fail, and what they leave

An operation succeeds if the disk allows it and no fault stops it. One that fails leaves little: directories
that are new, and, where the writing of a file stops, that file with a beginning of what it should hold.
Everything else is within the frame of `BenchLog.Proofs.Files.Changes`.

## Contents
- `Faults.CanCreateDirs`, `createDirs_iff` and `sameBut_createDirs`: directories;
- `Faults.CanCreate`, `writing_of_none` and its like, `write_of_not_canCreate`, `write_of_canCreate`: files.
-/

namespace BenchLog

namespace Faults

variable {f : Faults} {d : Disk} {path : String} {bytes : List UInt8}

/-! ## Directories -/

/-- A directory can be created on a disk, and no fault is in the way. -/
def CanCreateDirs (f : Faults) (d : Disk) (path : String) : Prop :=
  f.noDirectory path = none ∧ d.CanCreateDirs path

instance : Decidable (f.CanCreateDirs d path) := inferInstanceAs (Decidable (_ ∧ _))

theorem createDirs_iff (f : Faults) (d : Disk) (path : String) :
    (f.createDirs d path).2 = true ↔ f.CanCreateDirs d path := by
  unfold createDirs CanCreateDirs
  cases f.noDirectory path with
  | none => simp [Disk.createDirs_iff]
  | some n => simp

theorem createDirs_of_canCreateDirs (h : f.CanCreateDirs d path) :
    f.createDirs d path = ((d.createDirs path).1, true) := by
  refine Prod.ext ?_ ((createDirs_iff f d path).2 h)
  rw [createDirs, h.1]

/-- Creating directories changes no file and makes no other directory, wherever it stops. -/
theorem sameBut_createDirs (f : Faults) (d : Disk) (path : String) :
    d.SameBut (d.along path) [] (f.createDirs d path).1 := by
  unfold createDirs
  cases f.noDirectory path with
  | none => exact Disk.sameBut_createDirs d path
  | some n => exact Disk.sameBut_createFrom_of_isPrefix (List.take_prefix n _)

/-! ## Files -/

/-- A file can be created or replaced on a disk, and no fault is in the way. -/
def CanCreate (f : Faults) (d : Disk) (path : String) : Prop :=
  f.uncreatable path = false ∧ d.CanCreate path

theorem writing_of_none (h : f.stop path = none) : f.writing path = .ok () := by
  rw [writing, h]

theorem writing_of_some {n : Nat} (h : f.stop path = some n) : f.writing path = .error .writing := by
  rw [writing, h]

theorem written_of_none (h : f.stop path = none) (bytes : List UInt8) : f.written path bytes = bytes := by
  rw [written, h]

theorem written_of_some {n : Nat} (h : f.stop path = some n) (bytes : List UInt8) :
    f.written path bytes = bytes.take n := by
  rw [written, h]

theorem write_of_not_canCreate (h : ¬f.CanCreate d path) (bytes : List UInt8) :
    f.write d path bytes = (d, .error .creation) := by
  unfold write
  split
  · rfl
  · next hfault =>
      have hdisk : ¬d.CanCreate path := fun hcreate => h ⟨Bool.eq_false_iff.2 hfault, hcreate⟩
      rw [Disk.write?_eq_none hdisk]

/-- A file that can be created holds what was written, all of it unless its writing stops. No other file
changes, and the files that can be created stay the same. -/
theorem write_of_canCreate (h : f.CanCreate d path) (bytes : List UInt8) :
    ∃ d', f.write d path bytes = (d', f.writing path)
      ∧ d.SameBut [] [path] d'
      ∧ d'.read? path = some (f.written path bytes)
      ∧ ∀ other, f.CanCreate d' other ↔ f.CanCreate d other := by
  obtain ⟨d', hd'⟩ := Disk.exists_write? h.2 (f.written path bytes)
  refine ⟨d', ?_, Disk.sameBut_write? hd', Disk.read?_write? hd', fun other => ?_⟩
  · rw [write, if_neg (Bool.eq_false_iff.1 h.1), hd']
  · exact and_congr_right fun _ => Disk.canCreate_write? hd' other

end Faults

end BenchLog
