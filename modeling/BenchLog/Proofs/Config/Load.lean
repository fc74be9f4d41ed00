import BenchLog.Config.Load
import BenchLog.Proofs.Config.Override

/-!
# `BenchLog.Proofs.Config.Load` — the output directory of the environment

The variable of the environment takes the place of one setting. So loading with it is told by loading without
it: where that gives a configuration, the same jobs come back with the directory that the variable stands for,
or the configuration is unreadable because the variable stands for no text. Whether a configuration is
accepted does not depend on its directory.

## Contents
- `Config.overridden`, the configuration with what the variable stands for;
- `check_override`, `ofEntries?_override`, the check and the members of a file;
- `settings?_toUTF8`, `load_of_settings`, `exists_settings_of_load`, from a file to a configuration and back;
- `load_of_ofVariable`, a load with the variable;
- `load_override`, and `load_override_number` for a directory that is called by a number.
-/

namespace BenchLog

open BenchLog.Config BenchLog.Text

/-- What becomes of a configuration if `value` takes the place of its output directory. -/
def Config.overridden (c : Config) (value : Value) : Except ConfigError Config :=
  match text? value with
  | some s => .ok { c with outputDirectory := s }
  | none => .error .unreadable

namespace Config

theorem overridden_of_no_text {c : Config} {x : Value} (h : ∀ s, x ≠ .text s) :
    c.overridden x = .error .unreadable := by
  cases x with
  | text s => exact absurd rfl (h s)
  | _ => rfl

variable {c c' : Config} {d : Disk} {path v s : String} {x : Value} {entries : List (String × Value)}

/-- A configuration is accepted as it is, and for its jobs alone. -/
theorem check_override (h : c.check = .ok c') (directory : String) :
    c = c' ∧ ({ c with outputDirectory := directory } : Config).check
      = .ok { c with outputDirectory := directory } := by
  unfold check at h ⊢
  split at h
  · exact nomatch h
  · next hjobs =>
      rw [if_neg hjobs]
      split at h
      · exact nomatch h
      · next hlogs =>
          rw [hlogs]
          exact ⟨Except.ok.inj h, rfl⟩

/-- The directory and the jobs are read on their own. -/
theorem ofEntries?_override (h : ofEntries? entries none = some c) (x : Value) :
    ofEntries? entries (some x) = (text? x).map fun s => { c with outputDirectory := s } := by
  obtain ⟨directory, -, h⟩ := Option.bind_eq_some_iff.1 h
  obtain ⟨jobs, hjobs, h⟩ := Option.bind_eq_some_iff.1 h
  obtain rfl := Option.some.inj h
  rw [ofEntries?, hjobs]
  show (text? x).bind _ = _
  cases text? x <;> rfl

/-- Where a file has members, loading is making a configuration of them and checking it. -/
theorem load_of_settings {node : Node} {environment? : Option String} {override? : Option Value}
    (hvalue : environmentValue environment? = .ok override?) (hfound : d.find? path = some node)
    (hentries : settings? path node = some entries) :
    load d path environment? = (ofEntries? entries override?).elim (.error .unreadable) Config.check := by
  rw [load, hfound, ofNode, hvalue, hentries]
  simp only [bind, Except.bind, Option.bind_some]
  cases ofEntries? entries override? with
  | none => rfl
  | some made => rfl

/-- The bytes of a text are read as that text. -/
theorem settings?_toUTF8 (path content : String) :
    settings? path (.file content.toUTF8.data.toList) = members? path content.toList := by
  have hbytes : ByteArray.mk content.toUTF8.data.toList.toArray = content.toByteArray := by
    rw [Array.toArray_toList]
    rfl
  have hread : String.fromUTF8? content.toByteArray = some content := by
    rw [String.fromUTF8?, dif_pos content.isValidUTF8]
    rfl
  rw [settings?, hbytes, hread]
  rfl

/-- A configuration is loaded from the members of a file. -/
theorem exists_settings_of_load (h : load d path none = .ok c) :
    ∃ node entries, d.find? path = some node ∧ settings? path node = some entries
      ∧ ofEntries? entries none = some c ∧ c.check = .ok c := by
  cases hfound : d.find? path with
  | none =>
      rw [load, hfound] at h
      exact nomatch h
  | some node =>
      cases hentries : settings? path node with
      | none =>
          rw [load, hfound, ofNode, hentries] at h
          exact nomatch h
      | some entries =>
          rw [load_of_settings rfl hfound hentries] at h
          cases hmade : ofEntries? entries none with
          | none =>
              rw [hmade] at h
              exact nomatch h
          | some made =>
              rw [hmade] at h
              obtain ⟨rfl, -⟩ := check_override h defaultDirectory
              exact ⟨node, entries, rfl, hentries, hmade, h⟩

/-- Whatever the variable stands for takes the place of the directory. -/
theorem load_of_ofVariable (h : load d path none = .ok c) (hv : Override.ofVariable v = some x) :
    load d path (some v) = c.overridden x := by
  have hvalue : environmentValue (some v) = .ok (some x) := by rw [environmentValue, hv]
  obtain ⟨node, entries, hfound, hentries, hmade, hcheck⟩ := exists_settings_of_load h
  rw [load_of_settings hvalue hfound hentries, ofEntries?_override hmade, overridden]
  cases text? x with
  | none => rfl
  | some s => exact (check_override hcheck s).2

/-- **The environment replaces the output directory and nothing else, unless it stands for no text.** For every
    file that is loaded to a configuration without the variable, and every text of the variable: if the text
    stands for a text, this takes the place of the directory and the jobs stay as they are. If it stands for a
    truth value, a number, a list or a table, there is no configuration. A text without a backslash always
    stands for something.

    What a text stands for is told by its form, if it opens with no bracket, and with a double quote only if it
    holds no backslash. Without a form it is the directory as it is. A text that opens with a bracket is the
    directory as it is or makes the configuration unreadable, and a plain one is the directory. -/
theorem load_override (h : load d path none = .ok c) (v : String) :
    (∀ x, Override.ofVariable v = some x → load d path (some v) = c.overridden x)
      ∧ ('\x5c' ∉ v.toList → ∃ x, Override.ofVariable v = some x)
      ∧ (Override.Flat v.toList →
          (∀ x, Override.Form (Override.skip v.toList) x → load d path (some v) = c.overridden x)
          ∧ ((∀ x, ¬ Override.Form (Override.skip v.toList) x) →
              load d path (some v) = .ok { c with outputDirectory := v }))
      ∧ (Override.Bracketed v.toList → '\x5c' ∉ v.toList →
          load d path (some v) = .ok { c with outputDirectory := v }
            ∨ load d path (some v) = .error .unreadable)
      ∧ (Override.Plain v.toList → load d path (some v) = .ok { c with outputDirectory := v }) := by
  have hread : ∀ {x}, Override.ofVariable v = some x → load d path (some v) = c.overridden x :=
    fun hv => load_of_ofVariable h hv
  refine ⟨fun x => hread, Override.exists_ofVariable_of_not_mem,
    fun hflat => ⟨fun x hform => ?_, fun hnone => ?_⟩, fun hbracket hescape => ?_, fun hplain => ?_⟩
  · exact hread (Override.ofVariable_of_form hform)
  · exact hread (Override.ofVariable_of_no_form hflat hnone)
  · obtain ⟨x, hx⟩ := Override.exists_ofVariable_of_not_mem hescape
    rw [hread hx]
    rcases Override.ofVariable_of_bracketed hbracket hx with rfl | hno
    · exact Or.inl rfl
    · exact Or.inr (overridden_of_no_text hno)
  · exact hread (Override.ofVariable_of_plain hplain)

/-- A settings file that says nothing of the output directory. Its job is written as the list of its members. -/
def sampleChars : List Char :=
  ['\x7b', '\x22', 'j', 'o', 'b', 's', '\x22', ':', '[', '[', '\x22', 't', '\x22', ',', '\x22',
   's', 'y', 's', 'c', 'a', 'l', 'l', '\x22', ',', '[', '[', '\x22', 'f', 'l', '\x22', ',', '\x22',
   'a', '.', 'l', 'o', 'g', '\x22', ']', ']', ']', ']', '\x7d']

/-- A disk with that file. -/
def sampleDisk : Disk :=
  { entries := [(["s.json"], .file (String.ofList sampleChars).toUTF8.data.toList)], home := [] }

/-- What the file holds. -/
def sample : Config := ⟨defaultDirectory, [⟨"t", .syscall, [⟨"fl", "a.log"⟩]⟩]⟩

theorem load_sample : load sampleDisk "s.json" none = .ok sample := by
  have hfound : sampleDisk.find? "s.json" = some (.file (String.ofList sampleChars).toUTF8.data.toList) := rfl
  have hentries : settings? "s.json" (.file (String.ofList sampleChars).toUTF8.data.toList)
      = some [("jobs", .list false [.list false
          [.text "t", .text "syscall", .list false [.list false [.text "fl", .text "a.log"]]]])] := by
    rw [settings?_toUTF8, String.toList_ofList]
    rfl
  rw [load_of_settings rfl hfound hentries]
  rfl

/-- A directory, a truth value and a text that follows no form. -/
theorem load_override_sample :
    load sampleDisk "s.json" none = .ok sample
      ∧ load sampleDisk "s.json" (some (String.ofList ['o', 'u', 't']))
        = .ok { sample with outputDirectory := String.ofList ['o', 'u', 't'] }
      ∧ load sampleDisk "s.json" (some (String.ofList [' ', 't', 'r', 'u', 'e', ' '])) = .error .unreadable
      ∧ load sampleDisk "s.json" (some (String.ofList [' ', 'a', ',', 'b']))
        = .ok { sample with outputDirectory := String.ofList [' ', 'a', ',', 'b'] } := by
  have hplain : Override.Plain ['o', 'u', 't'] := by
    refine ⟨⟨Override.unmarked_cons (by decide) (by decide) (by decide), ?_⟩,
      ⟨ends_cons (by decide), ends_cons (by decide)⟩, ?_⟩
    · simp [Override.isSeparator]
    · rw [Override.Numeral, ← Override.isReal_iff, ← Override.isWhole_iff]
      decide
  have htruth : Override.Flat [' ', 't', 'r', 'u', 'e', ' '] := by
    refine ⟨?_, ?_⟩
    · rintro c ⟨⟩
      decide
    · decide
  have htruthForm : Override.Form ['t', 'r', 'u', 'e', ' '] .scalar := by
    have hafter : Override.Spaces [' '] := List.all_eq_true.1 (by decide)
    exact .truth (List.mem_cons_self : ['t', 'r', 'u', 'e'] ∈ Override.truths) hafter
  have hunmarked : Override.Unmarked ['a', ',', 'b'] :=
    Override.unmarked_cons (by decide) (by decide) (by decide)
  have hlist : Override.Flat [' ', 'a', ',', 'b'] := Override.Unmarked.flat hunmarked
  refine ⟨load_sample, ?_, ?_, ?_⟩
  · apply (load_override load_sample _).2.2.2.2
    rw [String.toList_ofList]
    exact hplain
  · apply ((load_override load_sample _).2.2.1 _).1 .scalar
    · rw [String.toList_ofList]
      exact htruthForm
    · rw [String.toList_ofList]
      exact htruth
  · apply ((load_override load_sample _).2.2.1 _).2
    · rw [String.toList_ofList]
      exact hunmarked.no_form ⟨',', by decide, by decide⟩
    · rw [String.toList_ofList]
      exact hlist

/-- **A number is no output directory.** The variable is given a value of its own before it becomes a path, and
    a directory that is called by a number is none any more. -/
theorem load_override_number :
    ¬ ∀ (d : Disk) (path : String) (c : Config) (v : String),
        load d path none = .ok c → load d path (some v) = .ok { c with outputDirectory := v } := by
  intro hall
  have hbare : Override.Bare ['2', '0', '2', '4'] := by
    refine ⟨Override.unmarked_cons (by decide) (by decide) (by decide), ?_⟩
    simp [Override.isSeparator]
  have hform : Override.Form ['2', '0', '2', '4'] .scalar :=
    .number hbare (Or.inr (Override.isWhole_iff.1 (by decide)))
  have hread : Override.ofVariable (String.ofList ['2', '0', '2', '4']) = some .scalar := by
    apply Override.ofVariable_of_form
    rw [String.toList_ofList]
    exact hform
  have hunreadable : load sampleDisk "s.json" (some (String.ofList ['2', '0', '2', '4']))
      = .error .unreadable :=
    load_of_ofVariable load_sample hread
  rw [hall sampleDisk "s.json" sample _ load_sample] at hunreadable
  cases hunreadable

end Config

end BenchLog
