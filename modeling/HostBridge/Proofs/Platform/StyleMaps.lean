import HostBridge.Proofs.Platform.StyleArguments
import HostBridge.Proofs.Typed.Members

/-!
# Styles that are read from maps

A style is read from a map setting by setting.

* `BarsStyle.as_map_eq_ok_iff`: each setting is what its argument gives.
* `BarsStyle.as_map_eq_error_iff`: of the arguments with a fault the one with the least
  key is reported.
* `BarsStyle.as_map_eq_of_same`: only the arguments count.
* `BarsStyle.map_read_by_arguments`: all of this, for whatever is written into the map.
-/

namespace HostBridge

namespace BarSetting

/-- The settings in the order of the fields of a style. -/
def all : List BarSetting :=
  [.statusIcons, .statusColor, .statusContrast, .navigationIcons, .navigationColor, .dividerColor,
    .navigationContrast]

theorem mem_all (s : BarSetting) : s ∈ all := by cases s <;> simp [all]

theorem key_injective {s t : BarSetting} (h : s.key = t.key) : s = t := by
  cases s <;> cases t <;> first
    | rfl
    | exact absurd h (by decide)

/-- A style with another setting. -/
def set : (s : BarSetting) → Option s.kind.Content → BarsStyle → BarsStyle
  | .statusIcons, v, style => { style with statusIcons := v }
  | .statusColor, v, style => { style with statusColor := v }
  | .statusContrast, v, style => { style with statusContrast := v }
  | .navigationIcons, v, style => { style with navigationIcons := v }
  | .navigationColor, v, style => { style with navigationColor := v }
  | .dividerColor, v, style => { style with dividerColor := v }
  | .navigationContrast, v, style => { style with navigationContrast := v }

theorem ofStyle_set (s : BarSetting) (v : Option s.kind.Content) (style : BarsStyle) :
    s.ofStyle (s.set v style) = v := by
  cases s <;> rfl

theorem ofStyle_set_of_ne {s t : BarSetting} (h : s ≠ t) (v : Option t.kind.Content)
    (style : BarsStyle) : s.ofStyle (t.set v style) = s.ofStyle style := by
  cases s <;> cases t <;> first
    | rfl
    | exact absurd rfl h

/-- A style is known from its settings. -/
theorem ext_ofStyle {style other : BarsStyle}
    (h : ∀ s : BarSetting, s.ofStyle style = s.ofStyle other) : style = other := by
  obtain ⟨_, _, _, _, _, _, _⟩ := style
  obtain ⟨_, _, _, _, _, _, _⟩ := other
  rw [BarsStyle.mk.injEq]
  exact ⟨h .statusIcons, h .statusColor, h .statusContrast, h .navigationIcons, h .navigationColor,
    h .dividerColor, h .navigationContrast⟩

/-- The field of a setting. -/
def field (s : BarSetting) : Field BarsStyle :=
  .optional s.key (.optional s.kind.reader) s.set

end BarSetting

namespace BarsStyle

variable {m : String × Json} {e : ValueError}

theorem fields_eq : record.fields = BarSetting.all.map BarSetting.field := rfl

theorem mem_fields_iff {field : Field BarsStyle} :
    field ∈ record.fields ↔ ∃ s : BarSetting, s.field = field := by
  rw [fields_eq, List.mem_map]
  exact exists_congr fun s => and_iff_right s.mem_all

theorem required_eq_false {field : Field BarsStyle} (h : field ∈ record.fields) :
    field.required = false := by
  obtain ⟨s, rfl⟩ := mem_fields_iff.1 h
  rfl

theorem nodup_names : (record.fields.map (·.name)).Nodup := by decide

/-- The member of a setting is read by the field of the setting. -/
theorem change_of_key {s : BarSetting} (h : m.1 = s.key) :
    record.change m = (Reader.optional s.kind.reader m.2).map s.set := by
  have hfind : record.fields.find? (·.name == s.key) = some s.field :=
    Record.find?_name nodup_names (mem_fields_iff.2 ⟨s, rfl⟩)
  rw [← h] at hfind
  exact Record.change_of_find? hfind

/-- A member is refused if it is the one of a setting and refused for this setting. -/
theorem change_eq_error_iff : record.change m = .error e ↔
    ∃ s : BarSetting, m.1 = s.key ∧ Reader.optional s.kind.reader m.2 = .error e := by
  constructor
  · intro h
    cases hfind : record.fields.find? (·.name == m.1) with
    | none =>
      rw [Record.change, hfind] at h
      exact absurd h (by simp)
    | some field =>
      obtain ⟨s, rfl⟩ := mem_fields_iff.1 (List.mem_of_find?_eq_some hfind)
      have hkey : s.key = m.1 := by
        simpa [BarSetting.field, Field.optional] using List.find?_some hfind
      rw [change_of_key hkey.symm] at h
      refine ⟨s, hkey.symm, ?_⟩
      cases hread : Reader.optional s.kind.reader m.2 with
      | error e' =>
        rw [hread] at h
        exact congrArg _ (Except.error.inj h)
      | ok o => exact absurd h (by simp [hread, Except.map])
  · rintro ⟨s, hkey, hread⟩
    rw [change_of_key hkey, hread]
    rfl

/-- What becomes of a setting in a style is what is read from its argument. -/
theorem seenBy_ofStyle (s : BarSetting) : record.SeenBy (fun style => some (s.ofStyle style))
    (fun x => (Reader.optional s.kind.reader x).toOption) s.key where
  exists_field := ⟨s.field, mem_fields_iff.2 ⟨s, rfl⟩, rfl⟩
  shows field hfield hname := by
    obtain ⟨t, rfl⟩ := mem_fields_iff.1 hfield
    obtain rfl := BarSetting.key_injective hname
    refine Field.shows_optional fun x v hread style => ?_
    rw [t.ofStyle_set, hread]
    rfl
  hides field hfield hname := by
    obtain ⟨t, rfl⟩ := mem_fields_iff.1 hfield
    have hne : s ≠ t := fun h => hname (h ▸ rfl)
    exact Field.hides_optional fun v style =>
      congrArg some (BarSetting.ofStyle_set_of_ne hne v style)

/-! ## Whole maps -/

variable {writes others : List (String × Value)} {style : BarsStyle}

/-- The members of the tree of a map. -/
theorem mem_members_iff : m ∈ Entries.settle (Entries.mapValues Value.toJson writes) ↔
    ∃ v, Entries.last? m.1 writes = some v ∧ v.toJson = m.2 := by
  rw [Entries.mem_settle_iff, Entries.last?_mapValues, Option.map_eq_some_iff]

theorem as_map_eq : (Value.map writes).as record.read =
    record.readMembers record.blank (Entries.settle (Entries.mapValues Value.toJson writes)) := by
  rw [Value.as, Value.toJson_map, Record.read]
  exact Record.ofMembers_of_optional fun _ => required_eq_false

/-- Of the arguments with a fault the one with the least key is reported. -/
theorem as_map_eq_error_iff : (Value.map writes).as record.read = .error e ↔
    ∃ (s : BarSetting) (v : Value), Entries.last? s.key writes = some v ∧ s.kind.Faults v e ∧
      ∀ (t : BarSetting) (w : Value) (e' : ValueError), Entries.last? t.key writes = some w →
        t.kind.Faults w e' → t ≠ s → Utf8.encode s.key < Utf8.encode t.key := by
  rw [as_map_eq, Record.readMembers_eq_error_iff (Entries.ascending_settle _)]
  constructor
  · rintro ⟨⟨key, x⟩, hmem, hchange, hleast⟩
    obtain ⟨s, rfl, hread⟩ := change_eq_error_iff.1 hchange
    obtain ⟨v, hv, rfl⟩ := mem_members_iff.1 hmem
    refine ⟨s, v, hv, SettingKind.optional_eq_error_iff.1 hread, fun t w e' hw hfault hne => ?_⟩
    have hrefused : record.change (t.key, w.toJson) = .error e' :=
      change_eq_error_iff.2 ⟨t, rfl, SettingKind.optional_of_faults hfault⟩
    have hkeys : t.key ≠ s.key := fun h => hne (BarSetting.key_injective h)
    exact Utf8.compare_eq_lt_iff.1 (hleast _ (mem_members_iff.2 ⟨w, hw, rfl⟩) ⟨e', hrefused⟩
      fun h => hkeys (congrArg Prod.fst h))
  · rintro ⟨s, v, hv, hfault, hleast⟩
    refine ⟨(s.key, v.toJson), mem_members_iff.2 ⟨v, hv, rfl⟩,
      change_eq_error_iff.2 ⟨s, rfl, SettingKind.optional_of_faults hfault⟩, ?_⟩
    rintro ⟨key, x⟩ hmem ⟨e', hchange⟩ hne
    obtain ⟨t, rfl, hread⟩ := change_eq_error_iff.1 hchange
    obtain ⟨w, hw, rfl⟩ := mem_members_iff.1 hmem
    refine Utf8.compare_eq_lt_iff.2
      (hleast t w e' hw (SettingKind.optional_eq_error_iff.1 hread) ?_)
    -- one key has one argument
    rintro rfl
    obtain rfl : w = v := Option.some.inj (hw.symm.trans hv)
    exact hne rfl

/-- A map is read if no argument has a fault. -/
theorem exists_as_map_iff : (∃ style, (Value.map writes).as record.read = .ok style) ↔
    ∀ (s : BarSetting) (v : Value), Entries.last? s.key writes = some v →
      ∃ o, s.kind.Gives (some v) o := by
  rw [as_map_eq, Record.exists_readMembers_iff]
  constructor
  · intro h s v hv
    obtain ⟨set, hset⟩ := h (s.key, v.toJson) (mem_members_iff.2 ⟨v, hv, rfl⟩)
    rw [change_of_key rfl] at hset
    obtain ⟨o, ho, -⟩ := exists_of_map_eq_ok hset
    exact ⟨o, SettingKind.optional_eq_ok_iff.1 ho⟩
  · intro h m hm
    cases hchange : record.change m with
    | ok set => exact ⟨set, rfl⟩
    | error e =>
      obtain ⟨s, hkey, hread⟩ := change_eq_error_iff.1 hchange
      obtain ⟨v, hv, hx⟩ := mem_members_iff.1 hm
      obtain ⟨o, ho⟩ := h s v (hkey ▸ hv)
      rw [← hx, SettingKind.optional_of_gives ho] at hread
      exact absurd hread (by simp)

theorem gives_of_as_map (h : (Value.map writes).as record.read = .ok style) (s : BarSetting) :
    s.kind.Gives (Entries.last? s.key writes) (s.ofStyle style) := by
  have hexists := exists_as_map_iff.1 ⟨style, h⟩ s
  rw [as_map_eq] at h
  have hview := Record.view_readMembers (seenBy_ofStyle s) h
  rw [Entries.last?_settle, Entries.last?_mapValues] at hview
  cases hlast : Entries.last? s.key writes with
  | none =>
    rw [hlast] at hview
    have hblank : s.ofStyle record.blank = none := by cases s <;> rfl
    rw [Option.some.inj hview, hblank]
    exact .absent
  | some v =>
    obtain ⟨o, ho⟩ := hexists v hlast
    rw [hlast, Option.map_some, Option.map_some, Option.getD_some,
      SettingKind.optional_of_gives ho] at hview
    rwa [Option.some.inj hview]

/-- What is read from a map is what its arguments give. -/
theorem as_map_eq_ok_iff : (Value.map writes).as record.read = .ok style ↔
    ∀ s : BarSetting, s.kind.Gives (Entries.last? s.key writes) (s.ofStyle style) := by
  refine ⟨gives_of_as_map, fun h => ?_⟩
  obtain ⟨style', hread⟩ : ∃ style', (Value.map writes).as record.read = .ok style' :=
    exists_as_map_iff.2 fun s v hv => ⟨_, hv ▸ h s⟩
  have hstyle : style' = style := BarSetting.ext_ofStyle fun s =>
    (gives_of_as_map hread s).unique (h s)
  exact hstyle ▸ hread

/-- Maps whose arguments have the same contents are read the same. -/
theorem as_map_eq_of_same (h : ∀ s : BarSetting, (Entries.last? s.key writes).map Value.canonical =
      (Entries.last? s.key others).map Value.canonical) :
    (Value.map writes).as record.read = (Value.map others).as record.read := by
  cases hread : (Value.map writes).as record.read with
  | ok style =>
    exact (as_map_eq_ok_iff.2 fun s => (as_map_eq_ok_iff.1 hread s).of_canonical (h s)).symm
  | error e =>
    obtain ⟨s, v, hv, hfault, hleast⟩ := as_map_eq_error_iff.1 hread
    obtain ⟨w, hw, hsame⟩ := Value.exists_same_of_canonical (h s) hv
    refine (as_map_eq_error_iff.2 ⟨s, w, hw, hfault.of_same hsame, ?_⟩).symm
    intro t w' e' hw' hfault'
    obtain ⟨v', hv', hsame'⟩ := Value.exists_same_of_canonical (h t).symm hw'
    exact hleast t v' e' hv' (hfault'.of_same hsame')

/-- The fields may be declared in any order. -/
theorem read_map_of_perm_fields {fields : List (Field BarsStyle)} (h : fields.Perm record.fields) :
    (Value.map writes).as ({ record with fields }).read = (Value.map writes).as record.read := by
  have hoptional : ∀ field ∈ fields, field.required = false :=
    fun field hfield => required_eq_false (h.mem_iff.1 hfield)
  rw [as_map_eq, ← Record.readMembers_of_perm_fields nodup_names h, Value.as, Value.toJson_map,
    Record.read]
  exact Record.ofMembers_of_optional hoptional

/-- A style is read from a map by the arguments of its settings, whatever is written into
    the map:

    * it is read if and only if each argument is null or says something;
    * each setting then is what its argument gives, and open without one;
    * otherwise, of the arguments with a fault, the one with the least key is reported, by
      the UTF-8 bytes of the keys;
    * faults are what neither is null nor says something;
    * maps whose arguments have the same contents are read the same, whatever else is in
      them, and so they would be with the fields declared in any order. -/
theorem map_read_by_arguments (writes : List (String × Value)) :
    ((∃ style, (Value.map writes).as record.read = .ok style) ↔
      ∀ (s : BarSetting) (v : Value), (Value.map writes).get? s.key = some v →
        v.finite = .null ∨ ∃ c, s.kind.Says v c) ∧
    (∀ style, (Value.map writes).as record.read = .ok style ↔
      ∀ s : BarSetting, s.kind.Gives ((Value.map writes).get? s.key) (s.ofStyle style)) ∧
    (∀ e, (Value.map writes).as record.read = .error e ↔
      ∃ (s : BarSetting) (v : Value), (Value.map writes).get? s.key = some v ∧ s.kind.Faults v e ∧
        ∀ (t : BarSetting) (w : Value) (e' : ValueError),
          (Value.map writes).get? t.key = some w → t.kind.Faults w e' → t ≠ s →
            Utf8.encode s.key < Utf8.encode t.key) ∧
    (∀ (k : SettingKind) (v : Value),
      (∃ e, k.Faults v e) ↔ ¬(v.finite = .null ∨ ∃ c, k.Says v c)) ∧
    (∀ others : List (String × Value),
      (∀ s : BarSetting, ((Value.map writes).get? s.key).map Value.canonical =
        ((Value.map others).get? s.key).map Value.canonical) →
      (Value.map writes).as record.read = (Value.map others).as record.read) ∧
    ∀ fields : List (Field BarsStyle), fields.Perm record.fields →
      (Value.map writes).as ({ record with fields }).read =
        (Value.map writes).as record.read := by
  refine ⟨exists_as_map_iff.trans ?_, fun style => as_map_eq_ok_iff, fun e => as_map_eq_error_iff,
    fun k v => SettingKind.exists_faults_iff, fun others => as_map_eq_of_same,
    fun fields => read_map_of_perm_fields⟩
  exact forall_congr' fun s => forall₂_congr fun v _ => SettingKind.exists_gives_iff

/-- A color of minus one is written over a wrong one, beside a map that names a
    brightness, an infinite number and a key that is not known. Two arguments have faults:
    the one that is reported is declared after the other. -/
theorem map_read_by_arguments_written_over :
    let writes : List (String × Value) :=
      [("statusBarColor", .string "red"), ("statusBarColor", .int (-1)), ("alpha", .list []),
        ("statusBarIconBrightness", .map [("Brightness.dark", .null)]),
        ("systemNavigationBarColor", .float (.infinity true))]
    let others : List (String × Value) :=
      [("systemNavigationBarColor", .float (.infinity true)), ("beta", .bool true),
        ("statusBarColor", .int (-1)),
        ("statusBarIconBrightness",
          .map [("Brightness.dark", .bool true), ("Brightness.dark", .null)])]
    let faulty : List (String × Value) :=
      [("statusBarIconBrightness", .string "dark"), ("statusBarColor", .string "red")]
    (Value.map writes).as record.read =
        .ok { statusIcons := some .dark, statusColor := some 0xFFFFFFFF } ∧
      (Value.map others).as record.read =
        .ok { statusIcons := some .dark, statusColor := some 0xFFFFFFFF } ∧
      (Value.map faulty).as ({ record with fields := record.fields.reverse }).read =
        .error (.invalidType (.string "red") .int) := by
  intro writes others faulty
  have honly : (Value.map [("Brightness.dark", .null)]).HoldsOnly "Brightness.dark" .null :=
    Value.holdsOnly_map_iff.2 rfl
  have hgives : ∀ s : BarSetting, s.kind.Gives ((Value.map writes).get? s.key)
      (s.ofStyle { statusIcons := some .dark, statusColor := some 0xFFFFFFFF }) := by
    intro s
    cases s with
    | statusIcons => exact .said (.key honly rfl)
    | statusColor => exact .said ⟨-1, rfl, rfl⟩
    | navigationColor => exact .null rfl
    | _ => exact .absent
  have hread := ((map_read_by_arguments writes).2.1 _).2 hgives
  have hsame : ∀ s : BarSetting, ((Value.map writes).get? s.key).map Value.canonical =
      ((Value.map others).get? s.key).map Value.canonical := by
    intro s
    cases s <;> rfl
  obtain ⟨-, -, herror, -, -, hfields⟩ := map_read_by_arguments faulty
  refine ⟨hread, ?_, ?_⟩
  · rw [← (map_read_by_arguments writes).2.2.2.2.1 others hsame, hread]
  · rw [hfields _ (List.reverse_perm _), herror]
    refine ⟨.statusColor, .string "red", rfl, .color (by simp [Value.finite]) (by simp), ?_⟩
    intro t w e' ht hfault hne
    cases t with
    | statusIcons => decide
    | statusColor => exact absurd rfl hne
    | _ => exact absurd (show none = some w from ht) (by simp)

end BarsStyle

end HostBridge
