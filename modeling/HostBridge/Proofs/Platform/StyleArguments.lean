import HostBridge.Platform.StyleArguments
import HostBridge.Proofs.Codec.Canonical
import HostBridge.Proofs.Typed.Readers

/-!
# What is read from the argument of a setting

An argument is null, says something for its setting, or has a fault, and only one of the
three (`SettingKind.exists_faults_iff`). What is read from it is what it gives, if it gives
anything (`SettingKind.optional_eq_ok_iff`), and otherwise it is refused for its fault
(`SettingKind.optional_eq_error_iff`). Arguments with the same contents give the same
(`SettingKind.Gives.of_canonical`).
-/

namespace HostBridge

namespace Value

variable {v payload : Value} {name : String} {writes : List (String × Value)}

theorem toJson_eq_null_of_finite (h : v.finite = .null) : v.toJson = .null := by
  rw [← toJson_finite_canonical, h]
  rfl

/-- A finite number stands in the tree. -/
theorem toJson_float_of_finite {x : Binary64} (h : (float x).finite ≠ .null) :
    (float x).toJson = .float x := by
  rw [finite] at h
  rw [toJson]
  split
  · rfl
  · next hx => exact absurd (if_neg hx) h

theorem toJson_ne_null_of_finite (h : v.finite ≠ .null) : v.toJson ≠ .null := by
  cases v with
  | null => exact absurd rfl h
  | float x => simp [toJson_float_of_finite h]
  | _ => simp [toJson]

/-- A tree is found to be what its value is, unless the value becomes null in it. -/
theorem found_toJson (h : v.finite ≠ .null) : Reader.found v.toJson = v.found := by
  cases v with
  | null => rfl
  | float x =>
    rw [toJson_float_of_finite h]
    rfl
  | _ => rfl

theorem holdsOnly_map_iff :
    (map writes).HoldsOnly name payload ↔ Entries.settle writes = [(name, payload)] := by
  have hone : ∀ key, Entries.last? key [(name, payload)] =
      if key = name then some payload else none := by
    intro key
    rw [Entries.last?_cons]
    exact Option.none_or
  have hsettle : Entries.settle [(name, payload)] = [(name, payload)] := rfl
  rw [← hsettle, Entries.settle_eq_iff]
  simp only [hone]
  constructor
  · rintro ⟨others, heq, h⟩
    exact map.inj heq ▸ h
  · intro h
    exact ⟨writes, rfl, h⟩

theorem HoldsOnly.finite_ne_null (h : v.HoldsOnly name payload) : v.finite ≠ .null := by
  obtain ⟨writes, rfl, -⟩ := h
  simp [finite]

/-- The tree of a map with one key. -/
theorem HoldsOnly.toJson (h : v.HoldsOnly name payload) :
    v.toJson = .object [(name, payload.toJson)] := by
  obtain ⟨writes, rfl, -⟩ := id h
  rw [toJson_map, Entries.settle_mapValues, holdsOnly_map_iff.1 h]
  rfl

theorem toJson_eq_null_iff : v.toJson = .null ↔ v.finite = .null :=
  ⟨fun h => by_contra fun hne => toJson_ne_null_of_finite hne h, toJson_eq_null_of_finite⟩

/-- Only a string has the tree of a string. -/
theorem toJson_eq_string_iff {text : String} : v.toJson = .string text ↔ v = .string text := by
  cases v with
  | float x =>
    rw [toJson]
    split <;> simp
  | _ => simp [toJson]

/-- Only an integer has the tree of an integer. -/
theorem toJson_eq_integer_iff {n : Int64} : v.toJson = .integer n.toInt ↔ v = .int n := by
  cases v with
  | float x =>
    rw [toJson]
    split <;> simp
  | _ => simp [toJson, Int64.toInt_inj]

/-- Only a map with one key has the tree of one. -/
theorem toJson_eq_singleton_iff {x : Json} :
    v.toJson = .object [(name, x)] ↔ ∃ payload, v.HoldsOnly name payload ∧ payload.toJson = x := by
  constructor
  · intro h
    cases v with
    | map writes =>
      rw [toJson_map, Entries.settle_mapValues] at h
      rcases hsettle : Entries.settle writes with _ | ⟨⟨key, payload⟩, _ | _⟩
      · exact absurd h (by simp [hsettle])
      · obtain ⟨rfl, rfl⟩ : key = name ∧ payload.toJson = x := by simpa [hsettle] using h
        exact ⟨payload, holdsOnly_map_iff.2 hsettle, rfl⟩
      · exact absurd h (by simp [hsettle])
    | float y =>
      rw [toJson] at h
      split at h <;> exact absurd h (by simp)
    | _ => exact absurd h (by simp [toJson])
  · rintro ⟨payload, honly, rfl⟩
    exact honly.toJson

/-- A name is known from its tree. -/
theorem names_iff : v.Names name ↔ v.toJson = .string name ∨ v.toJson = .object [(name, .null)] := by
  rw [toJson_eq_string_iff, toJson_eq_singleton_iff]
  constructor
  · rintro (_ | ⟨honly, hnull⟩)
    · exact .inl rfl
    · exact .inr ⟨_, honly, toJson_eq_null_iff.2 hnull⟩
  · rintro (rfl | ⟨payload, honly, hnull⟩)
    · exact .string name
    · exact .key honly (toJson_eq_null_iff.1 hnull)

/-- What is the same as something is something. -/
theorem exists_same_of_canonical {o o' : Option Value} {v : Value}
    (h : o.map canonical = o'.map canonical) (hv : o = some v) : ∃ w, o' = some w ∧ v.Same w := by
  rw [hv, Option.map_some, eq_comm, Option.map_eq_some_iff] at h
  obtain ⟨w, hw, heq⟩ := h
  exact ⟨w, hw, same_iff.2 heq.symm⟩

end Value

namespace Reader

theorem unit_of_ne_null {x : Json} (h : x ≠ .null) : unit x = mismatch x .unit := by
  cases x with
  | null => exact absurd rfl h
  | _ => rfl

end Reader

/-- A variant is read from its name. -/
theorem Choice.read_toJson_eq_ok_iff {α : Type} {c : Choice α} {v : Value} {a : α} :
    c.read v.toJson = .ok a ↔ ∃ name, c.named.lookup name = some a ∧ v.Names name := by
  rw [read_eq_ok_iff]
  exact exists_congr fun name => and_congr_right fun _ => Value.names_iff.symm

namespace Brightness

theorem find_word (b : Brightness) : choice.find b.word = .ok b := by cases b <;> rfl

theorem find_of_ne {name : String} (h : ∀ b : Brightness, name ≠ b.word) :
    choice.find name = .error (.unknownVariant name ["Brightness.dark", "Brightness.light"]) := by
  have hdark : name ≠ "Brightness.dark" := h .dark
  have hlight : name ≠ "Brightness.light" := h .light
  have hnone : choice.named.lookup name = none := by
    simp only [choice, Entries.lookup_cons_eq, List.lookup_nil]
    rw [if_neg hdark, if_neg hlight]
  rw [Choice.find, hnone]
  rfl

/-- A brightness is read from its name. -/
theorem read_of_names {v : Value} {b : Brightness} (h : v.Names b.word) :
    choice.read v.toJson = .ok b :=
  Choice.read_toJson_eq_ok_iff.2 ⟨b.word, Choice.find_eq_ok_iff.1 (find_word b), h⟩

/-- Something that comes with the name is refused. -/
theorem read_of_payload {v payload : Value} {b : Brightness} (only : v.HoldsOnly b.word payload)
    (null : payload.finite ≠ .null) :
    choice.read v.toJson = .error (.invalidType payload.found .unit) := by
  have hunit : Reader.unit payload.toJson = .error (.invalidType payload.found .unit) := by
    rw [← Value.found_toJson null]
    exact Reader.unit_of_ne_null (Value.toJson_ne_null_of_finite null)
  rw [only.toJson, Choice.read, find_word]
  exact congrArg (· >>= fun _ => .ok b) hunit

end Brightness

namespace SettingKind

variable {k : SettingKind} {v : Value} {e : ValueError}

/-- How a setting of a kind is read, where its argument is not null. -/
def reader : (k : SettingKind) → Reader k.Content
  | .icons => Brightness.choice.read
  | .color => Reader.color
  | .flag => Reader.bool

/-- What says something is not null. -/
theorem Says.finite_ne_null {c : k.Content} (h : k.Says v c) : v.finite ≠ .null := by
  cases k with
  | icons =>
    cases h with
    | string => simp [Value.finite]
    | key only => exact only.finite_ne_null
  | color =>
    obtain ⟨n, rfl, -⟩ := h
    simp [Value.finite]
  | flag =>
    obtain rfl := h
    simp [Value.finite]

/-- What has a fault is not null. -/
theorem Faults.finite_ne_null (h : k.Faults v e) : v.finite ≠ .null := by
  cases h with
  | color null => exact null
  | flag null => exact null
  | noChoice null => exact null
  | word => simp [Value.finite]
  | key only => exact only.finite_ne_null
  | payload only => exact only.finite_ne_null
  | keys => simp [Value.finite]

theorem toNat_ofInt (n : Int) : ((UInt32.ofInt n).toNat : Int) = n % 0x100000000 := by
  rw [UInt32.ofInt]
  simp
  omega

/-- A color is the low 32 bits of an integer. -/
theorem color_toJson_int {n : Int64} {c : Color} (h : (c.toNat : Int) = n.toInt % 0x100000000) :
    Reader.color (Value.int n).toJson = .ok c := by
  have hrange : Value.leastInt ≤ n.toInt ∧ n.toInt ≤ Value.greatestInt :=
    ⟨Value.leastInt_le_toInt n, Value.toInt_le_greatestInt n⟩
  have hcolor : UInt32.ofInt n.toInt = c := by
    rw [← UInt32.toNat_inj, ← Int.ofNat_inj, toNat_ofInt, h]
  rw [Value.toJson, Reader.color, Reader.int, if_pos hrange, Int64.ofInt_toInt, ← hcolor]
  rfl

theorem reader_of_says {c : k.Content} (h : k.Says v c) : k.reader v.toJson = .ok c := by
  cases k with
  | icons => exact Brightness.read_of_names h
  | color =>
    obtain ⟨n, rfl, hc⟩ := h
    exact color_toJson_int hc
  | flag =>
    obtain rfl := h
    rfl

theorem reader_of_faults (h : k.Faults v e) : k.reader v.toJson = .error e := by
  cases h with
  | color null other =>
    rw [← Value.found_toJson null]
    cases v with
    | int n => exact absurd rfl (other n)
    | float x =>
      rw [Value.toJson_float_of_finite null]
      rfl
    | _ => rfl
  | flag null other =>
    rw [← Value.found_toJson null]
    cases v with
    | bool b => exact absurd rfl (other b)
    | float x =>
      rw [Value.toJson_float_of_finite null]
      rfl
    | _ => rfl
  | noChoice null string map =>
    rw [← Value.found_toJson null]
    cases v with
    | string text => exact absurd rfl (string text)
    | map writes => exact absurd rfl (map writes)
    | float x =>
      rw [Value.toJson_float_of_finite null]
      rfl
    | _ => rfl
  | word other => exact Brightness.find_of_ne other
  | key only other =>
    rw [only.toJson]
    exact congrArg (· >>= _) (Brightness.find_of_ne other)
  | payload only null => exact Brightness.read_of_payload only null
  | @keys writes h =>
    rw [Value.toJson_map, Entries.settle_mapValues]
    rcases hsettle : Entries.settle writes with _ | ⟨⟨name, payload⟩, _ | _⟩
    · rfl
    · exact absurd (Value.holdsOnly_map_iff.2 hsettle) (h name payload)
    · rfl

/-- A value is null, says something or has a fault. -/
theorem null_or_says_or_faults (k : SettingKind) (v : Value) :
    v.finite = .null ∨ (∃ c, k.Says v c) ∨ ∃ e, k.Faults v e := by
  by_cases null : v.finite = .null
  · exact .inl null
  refine .inr ?_
  cases k with
  | icons =>
    cases v with
    | string text =>
      by_cases h : ∃ b : Brightness, text = b.word
      · obtain ⟨b, rfl⟩ := h
        exact .inl ⟨b, .string b.word⟩
      · exact .inr ⟨_, .word fun b hb => h ⟨b, hb⟩⟩
    | map writes =>
      by_cases h : ∃ name payload, (Value.map writes).HoldsOnly name payload
      · obtain ⟨name, payload, only⟩ := h
        by_cases hname : ∃ b : Brightness, name = b.word
        · obtain ⟨b, rfl⟩ := hname
          by_cases hpayload : payload.finite = .null
          · exact .inl ⟨b, .key only hpayload⟩
          · exact .inr ⟨_, .payload only hpayload⟩
        · exact .inr ⟨_, .key only fun b hb => hname ⟨b, hb⟩⟩
      · exact .inr ⟨_, .keys fun name payload only => h ⟨name, payload, only⟩⟩
    | _ => exact .inr ⟨_, .noChoice null (by simp) (by simp)⟩
  | color =>
    by_cases h : ∃ n, v = .int n
    · obtain ⟨n, rfl⟩ := h
      exact .inl ⟨UInt32.ofInt n.toInt, n, rfl, toNat_ofInt _⟩
    · exact .inr ⟨_, .color null fun n hn => h ⟨n, hn⟩⟩
  | flag =>
    by_cases h : ∃ b, v = .bool b
    · obtain ⟨b, rfl⟩ := h
      exact .inl ⟨b, rfl⟩
    · exact .inr ⟨_, .flag null fun b hb => h ⟨b, hb⟩⟩

/-! ## Arguments that may be null -/

theorem optional_of_gives {o : Option k.Content} (h : k.Gives (some v) o) :
    Reader.optional k.reader v.toJson = .ok o := by
  cases h with
  | null h =>
    rw [Value.toJson_eq_null_of_finite h]
    rfl
  | said h =>
    rw [Reader.optional_of_ne_null (Value.toJson_ne_null_of_finite h.finite_ne_null),
      reader_of_says h]
    rfl

theorem optional_of_faults (h : k.Faults v e) : Reader.optional k.reader v.toJson = .error e := by
  rw [Reader.optional_of_ne_null (Value.toJson_ne_null_of_finite h.finite_ne_null),
    reader_of_faults h]
  rfl

/-- An argument gives something or has a fault. -/
theorem gives_or_faults (k : SettingKind) (v : Value) :
    (∃ o, k.Gives (some v) o) ∨ ∃ e, k.Faults v e := by
  obtain null | ⟨c, hc⟩ | hfault := k.null_or_says_or_faults v
  · exact .inl ⟨none, .null null⟩
  · exact .inl ⟨some c, .said hc⟩
  · exact .inr hfault

/-- What is read from an argument is what it gives. -/
theorem optional_eq_ok_iff {o : Option k.Content} :
    Reader.optional k.reader v.toJson = .ok o ↔ k.Gives (some v) o := by
  refine ⟨fun h => ?_, optional_of_gives⟩
  rcases k.gives_or_faults v with ⟨o', hgives⟩ | ⟨e, hfault⟩
  · rwa [← Except.ok.inj ((optional_of_gives hgives).symm.trans h)]
  · exact absurd ((optional_of_faults hfault).symm.trans h) (by simp)

theorem exists_gives_iff :
    (∃ o, k.Gives (some v) o) ↔ v.finite = .null ∨ ∃ c, k.Says v c := by
  constructor
  · rintro ⟨o, h⟩
    cases h with
    | null h => exact .inl h
    | said h => exact .inr ⟨_, h⟩
  · rintro (h | ⟨c, h⟩)
    · exact ⟨none, .null h⟩
    · exact ⟨some c, .said h⟩

/-- An argument gives one thing only. -/
theorem Gives.unique {arg : Option Value} {o o' : Option k.Content} (h : k.Gives arg o)
    (h' : k.Gives arg o') : o = o' := by
  cases arg with
  | none =>
    cases h
    cases h'
    rfl
  | some v => exact Except.ok.inj ((optional_of_gives h).symm.trans (optional_of_gives h'))

/-- An argument is refused for its fault. -/
theorem optional_eq_error_iff :
    Reader.optional k.reader v.toJson = .error e ↔ k.Faults v e := by
  refine ⟨fun h => ?_, optional_of_faults⟩
  rcases k.gives_or_faults v with ⟨o, hgives⟩ | ⟨e', hfault⟩
  · exact absurd ((optional_of_gives hgives).symm.trans h) (by simp)
  · rwa [← Except.error.inj ((optional_of_faults hfault).symm.trans h)]

/-- What has a fault gives nothing, and nothing else has one. -/
theorem exists_faults_iff :
    (∃ e, k.Faults v e) ↔ ¬(v.finite = .null ∨ ∃ c, k.Says v c) := by
  rw [← exists_gives_iff]
  constructor
  · rintro ⟨e, hfault⟩ ⟨o, hgives⟩
    exact absurd ((optional_of_gives hgives).symm.trans (optional_of_faults hfault)) (by simp)
  · exact (k.gives_or_faults v).resolve_left

/-! ## Arguments with the same contents -/

theorem Gives.of_canonical {arg arg' : Option Value} {o : Option k.Content}
    (hargs : arg.map Value.canonical = arg'.map Value.canonical) (h : k.Gives arg o) :
    k.Gives arg' o := by
  cases arg with
  | none => rwa [Option.map_eq_none_iff.1 hargs.symm]
  | some v =>
    obtain ⟨w, rfl, hsame⟩ := Value.exists_same_of_canonical hargs rfl
    rw [← optional_eq_ok_iff, ← Value.toJson_eq_of_same hsame]
    exact optional_of_gives h

theorem Faults.of_same {w : Value} (hsame : v.Same w) (h : k.Faults v e) : k.Faults w e := by
  rw [← optional_eq_error_iff, ← Value.toJson_eq_of_same hsame]
  exact optional_of_faults h

end SettingKind

end HostBridge
