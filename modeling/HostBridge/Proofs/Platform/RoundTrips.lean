import HostBridge.Proofs.Platform.StyleMaps
import HostBridge.Proofs.Platform.Variants

/-!
# What is written is read again

Styles, texts and answers about texts are written as maps, and rows of variants as lists of
their names.

* `BarsStyle.write_eq`: a style is written as its seven settings, null for one that is open.
* `BarsStyle.as_entries`: each setting is read again from its argument, a color as well,
  though it is written as a number without a sign and read as one with a sign.
* `Choice.Distinct.writesRows`: rows of variants are written and read one by one.
* `messages_survive`: all of this, and what was read may be written and read again.
-/

namespace HostBridge

variable {α : Type}

/-- What is written is read again. -/
def Reader.Undoes (read : Reader α) (write : α → Except ValueError Value) : Prop :=
  ∀ a, ∃ v, write a = .ok v ∧ v.as read = .ok a

/-- What was read from anything is the same once it has been written and read again. -/
theorem Reader.Undoes.reread {read : Reader α} {write : α → Except ValueError Value}
    (h : read.Undoes write) (v : Value) :
    (do let a ← v.as read; let w ← write a; w.as read) = v.as read := by
  cases hread : v.as read with
  | error e => rfl
  | ok a =>
    obtain ⟨w, hw, hagain⟩ := h a
    show (write a >>= fun w => w.as read) = .ok a
    rw [hw]
    exact hagain

/-! ## Rows of variants -/

namespace Choice

/-- A row of variants is written as the list of their names and read again from it. -/
def WritesRows [DecidableEq α] (c : Choice α) : Prop :=
  ∀ as, ∃ vs, c.writeList as = .ok (.list vs) ∧
    List.Forall₂ (fun a v => ∃ name, (name, a) ∈ c.named ∧ v = .string name) as vs ∧
    (Value.list vs).as (Reader.list c.read) = .ok as

/-- Rows are written one by one if every variant has a name. -/
theorem Distinct.writesRows [DecidableEq α] {c : Choice α} (h : c.Distinct)
    (hnamed : ∀ a, a ∈ c.named.map (·.2)) : c.WritesRows := by
  intro as
  have hwrite : ∀ a ∈ as, ∃ v, c.write a = .ok v := by
    intro a _
    obtain ⟨⟨name, b⟩, hname, rfl⟩ := List.mem_map.1 (hnamed a)
    exact ⟨_, h.write_eq_ok_iff.2 ⟨name, hname, rfl⟩⟩
  obtain ⟨vs, hvs, heach⟩ := exists_writeElements hwrite
  have hnames : List.Forall₂ (fun a v => ∃ name, (name, a) ∈ c.named ∧ v = .string name) as vs :=
    heach.imp fun a v => h.write_eq_ok_iff.1
  refine ⟨vs, by rw [writeList, hvs]; rfl, hnames, Reader.as_list_eq_ok_iff.2 ?_⟩
  refine List.Forall₂.flip (hnames.imp fun a v hv => ?_)
  obtain ⟨name, hname, rfl⟩ := hv
  exact h.read_string hname

end Choice

/-! ## Styles -/

namespace SettingKind

variable {k : SettingKind}

/-- What a setting is to be, as a value. -/
def written : (k : SettingKind) → k.Content → Value
  | .icons, b => .string (Brightness.word b)
  | .color, c => .int (Int64.ofNat (UInt32.toNat c))
  | .flag, b => .bool b

/-- A setting as an argument: null if it is open. -/
def argument (k : SettingKind) (o : Option k.Content) : Value := (o.map k.written).getD .null

theorem says_written (c : k.Content) : k.Says (k.written c) c := by
  cases k with
  | icons => exact .string _
  | color =>
    have hlt : UInt32.toNat c < 0x100000000 := UInt32.toNat_lt c
    refine ⟨_, rfl, ?_⟩
    -- the number is small enough to stand as one with a sign
    rw [Int64.toInt_ofNat_of_lt (by omega), Int.emod_eq_of_lt (by omega) (by omega)]
  | flag => rfl

example : SettingKind.color.written (0xFFFFFFFF : UInt32) = .int 4294967295 := rfl

/-- The argument of a setting gives the setting. -/
theorem gives_argument (o : Option k.Content) : k.Gives (some (k.argument o)) o := by
  cases o with
  | none => exact .null rfl
  | some c => exact .said (says_written c)

end SettingKind

namespace BarsStyle

/-- The settings of a style, each under its key. -/
def entries (s : BarsStyle) : List (String × Value) :=
  BarSetting.all.map fun t => (t.key, t.kind.argument (t.ofStyle s))

theorem iconsValue_eq (o : Option Brightness) :
    iconsValue o = .ok (SettingKind.argument .icons o) := by
  cases o with
  | none => rfl
  | some b => cases b <;> rfl

/-- A style is written as its settings. -/
theorem write_eq (s : BarsStyle) : s.write = .ok (.map s.entries) := by
  rw [write, iconsValue_eq, iconsValue_eq]
  rfl

theorem keys_entries (s : BarsStyle) : s.entries.map (·.1) = BarSetting.all.map BarSetting.key :=
  List.map_map

theorem last?_entries (s : BarsStyle) (t : BarSetting) :
    Entries.last? t.key s.entries = some (t.kind.argument (t.ofStyle s)) := by
  have hnodup : (s.entries.map (·.1)).Nodup := by
    rw [keys_entries]
    decide
  exact Entries.last?_of_mem hnodup (List.mem_map_of_mem t.mem_all)

/-- A style is read again from its settings. -/
theorem as_entries (s : BarsStyle) : (Value.map s.entries).as record.read = .ok s := by
  refine as_map_eq_ok_iff.2 fun t => ?_
  rw [last?_entries]
  exact SettingKind.gives_argument _

theorem undoes : record.read.Undoes write := fun s => ⟨_, s.write_eq, s.as_entries⟩

end BarsStyle

/-- What is written is read again:

    * a style is written as a map of its seven settings, null for one that is open, and read
      again from the map;
    * so are a text and the answer whether there is text;
    * rows of orientations and of bars are written as the lists of their names, one by one,
      and read again;
    * and a style that was read from anything is the same once it has been written and read
      again. -/
theorem messages_survive :
    (∀ s : BarsStyle, ∃ writes, s.write = .ok (.map writes) ∧
      writes.map (·.1) =
        ["statusBarIconBrightness", "statusBarColor", "systemStatusBarContrastEnforced",
          "systemNavigationBarIconBrightness", "systemNavigationBarColor",
          "systemNavigationBarDividerColor", "systemNavigationBarContrastEnforced"] ∧
      (∀ t : BarSetting,
        (Value.map writes).get? t.key = some (t.kind.argument (t.ofStyle s))) ∧
      (Value.map writes).as BarsStyle.record.read = .ok s) ∧
    (∀ t : ClipText, t.write.as ClipText.record.read = .ok t) ∧
    (∀ p : ClipPresence, p.write.as ClipPresence.record.read = .ok p) ∧
    Orientation.choice.WritesRows ∧ Overlay.choice.WritesRows ∧
    ∀ v : Value,
      (do let s ← v.as BarsStyle.record.read; let w ← s.write; w.as BarsStyle.record.read) =
        v.as BarsStyle.record.read := by
  refine ⟨fun s => ?_, fun t => rfl, fun p => rfl, ?_, ?_, BarsStyle.undoes.reread⟩
  · exact ⟨s.entries, s.write_eq, s.keys_entries, s.last?_entries, s.as_entries⟩
  · exact Orientation.distinct_choice.writesRows fun a => by cases a <;> decide
  · exact Overlay.distinct_choice.writesRows fun a => by cases a <;> decide

end HostBridge
