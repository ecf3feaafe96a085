import HostBridge.Platform.Host
import HostBridge.Proofs.Platform.StyleArguments
import HostBridge.Proofs.Typed.Choices

/-!
# Variants as arguments

Many arguments are one of several variants, or a list of them. A variant is given by its
name, and a list by the names of its elements.

* `Choice.Distinct.byName`: a variant is read from its name, alone or as the only key of a
  map, and from nothing else.
* `Sound.as_eq_ok_iff`: every string names a sound.
* `Reader.oneByOne`: a list is read one by one, up to the first element that is refused.
* `variants_read_by_name`: the variants that are read from arguments.
-/

namespace HostBridge

variable {α : Type}

namespace Reader

/-- Whatever has a name of the table is read as the variant of this name, and nothing else
    is read. -/
def ByName (read : Reader α) (names : List (String × α)) : Prop :=
  ∀ (v : Value) (a : α), v.as read = .ok a ↔ ∃ name, (name, a) ∈ names ∧ v.Names name

/-- Lists are read one by one: only lists are read, if all their elements are, into lists of
    the same length and in the same order; and of the elements that are refused the first is
    reported, whatever comes after it. -/
structure OneByOne (read : Reader α) : Prop where
  ok : ∀ (v : Value) (as : List α), v.as (list read) = .ok as ↔
    ∃ vs, v = .list vs ∧ List.Forall₂ (fun w a => w.as read = .ok a) vs as
  exists_ok : ∀ v : Value, (∃ as, v.as (list read) = .ok as) ↔
    ∃ vs, v = .list vs ∧ ∀ w ∈ vs, ∃ a, w.as read = .ok a
  error : ∀ (vs : List Value) (e : ValueError), (Value.list vs).as (list read) = .error e ↔
    ∃ before v after, vs = before ++ v :: after ∧ (∀ w ∈ before, ∃ a, w.as read = .ok a) ∧
      v.as read = .error e

/-! ## Lists of values -/

theorem as_list (read : Reader α) (vs : List Value) :
    (Value.list vs).as (list read) = elements read (vs.map Value.toJson) := by
  rw [Value.as, Value.toJson_list, list]

/-- Only a list is read as a list. -/
theorem exists_list_of_as {read : Reader α} {v : Value} {as : List α}
    (h : v.as (list read) = .ok as) : ∃ vs, v = .list vs := by
  cases v with
  | list vs => exact ⟨vs, rfl⟩
  | float x =>
    rw [Value.as, Value.toJson] at h
    split at h <;> exact absurd h (by simp [list, mismatch])
  | _ => exact absurd h (by simp [Value.as, Value.toJson, list, mismatch])

theorem as_list_eq_ok_iff {read : Reader α} {vs : List Value} {as : List α} :
    (Value.list vs).as (list read) = .ok as ↔
      List.Forall₂ (fun w a => w.as read = .ok a) vs as := by
  rw [as_list, elements_eq_ok_iff, List.forall₂_map_left_iff]
  rfl

theorem exists_as_list_iff {read : Reader α} {vs : List Value} :
    (∃ as, (Value.list vs).as (list read) = .ok as) ↔ ∀ w ∈ vs, ∃ a, w.as read = .ok a := by
  simp only [as_list_eq_ok_iff]
  induction vs with
  | nil => simp
  | cons v vs ih =>
    rw [List.forall_mem_cons, ← ih]
    constructor
    · rintro ⟨_, _ | ⟨hv, hvs⟩⟩
      exact ⟨⟨_, hv⟩, _, hvs⟩
    · rintro ⟨⟨a, ha⟩, as, has⟩
      exact ⟨a :: as, .cons ha has⟩

theorem as_list_eq_error_iff {read : Reader α} {vs : List Value} {e : ValueError} :
    (Value.list vs).as (list read) = .error e ↔ ∃ before v after, vs = before ++ v :: after ∧
      (∀ w ∈ before, ∃ a, w.as read = .ok a) ∧ v.as read = .error e := by
  rw [as_list, elements_eq_error_iff]
  constructor
  · rintro ⟨before, x, after, hsplit, hbefore, hx⟩
    obtain ⟨before, rest, rfl, rfl, hrest⟩ := List.map_eq_append_iff.1 hsplit
    obtain ⟨v, after, rfl, rfl, rfl⟩ := List.map_eq_cons_iff.1 hrest
    exact ⟨before, v, after, rfl, fun w hw => hbefore _ (List.mem_map_of_mem hw), hx⟩
  · rintro ⟨before, v, after, rfl, hbefore, hv⟩
    refine ⟨before.map Value.toJson, v.toJson, after.map Value.toJson, by simp, ?_, hv⟩
    exact List.forall_mem_map.2 hbefore

/-- Lists are read one by one, whatever their elements are. -/
theorem oneByOne (read : Reader α) : OneByOne read where
  ok v as := by
    constructor
    · intro h
      obtain ⟨vs, rfl⟩ := exists_list_of_as h
      exact ⟨vs, rfl, as_list_eq_ok_iff.1 h⟩
    · rintro ⟨vs, rfl, h⟩
      exact as_list_eq_ok_iff.2 h
  exists_ok v := by
    constructor
    · rintro ⟨as, h⟩
      obtain ⟨vs, rfl⟩ := exists_list_of_as h
      exact ⟨vs, rfl, exists_as_list_iff.1 ⟨as, h⟩⟩
    · rintro ⟨vs, rfl, h⟩
      exact exists_as_list_iff.2 h
  error vs e := as_list_eq_error_iff

end Reader

/-! ## Variants that are read from arguments -/

/-- A variant is read from its name. -/
theorem Choice.Distinct.byName {c : Choice α} (h : c.Distinct) : Reader.ByName c.read c.named := by
  intro v a
  rw [Value.as, Choice.read_toJson_eq_ok_iff]
  simp only [h.lookup_eq_some_iff]

theorem Haptic.distinct_choice : choice.Distinct := ⟨by decide, by decide⟩

theorem Orientation.distinct_choice : choice.Distinct := ⟨by decide, by decide⟩

theorem Overlay.distinct_choice : choice.Distinct := ⟨by decide, by decide⟩

theorem BarsMode.distinct_choice : choice.Distinct := ⟨by decide, by decide⟩

theorem Brightness.distinct_choice : choice.Distinct := ⟨by decide, by decide⟩

theorem ClipFormat.distinct_choice : choice.Distinct := ⟨by decide, by decide⟩

/-- Every string names a sound, and nothing else does. -/
theorem Sound.as_eq_ok_iff {v : Value} {s : Sound} : v.as read = .ok s ↔
    ∃ name, v = .string name ∧ ofName name = s := by
  constructor
  · intro h
    obtain ⟨name, hname, hs⟩ := exists_of_map_eq_ok h
    exact ⟨name, Value.toJson_eq_string_iff.1 (Reader.string_eq_ok hname), hs⟩
  · rintro ⟨name, rfl, rfl⟩
    rfl

theorem Sound.ofName_eq (name : String) : ofName name =
    if name = "SystemSoundType.click" then .click
    else if name = "SystemSoundType.alert" then .alert
    else .unknown := by
  rw [ofName, choice, Entries.lookup_cons_eq, Entries.lookup_cons_eq]
  split
  · rfl
  · split <;> rfl

/-- The variants that are read from arguments:

    * of six kinds each is read from its name, alone or as the only key of a map with null
      under it, and nothing else is read; two of the variants have no name;
    * a sound is read from every string and from nothing else, and is unknown but for two of
      them;
    * orientations and bars are read from lists one by one. -/
theorem variants_read_by_name :
    Reader.ByName Haptic.choice.read
      [("HapticFeedbackType.lightImpact", .lightImpact),
        ("HapticFeedbackType.mediumImpact", .mediumImpact),
        ("HapticFeedbackType.heavyImpact", .heavyImpact),
        ("HapticFeedbackType.selectionClick", .selectionClick)] ∧
    Reader.ByName Orientation.choice.read
      [("DeviceOrientation.portraitUp", .portraitUp),
        ("DeviceOrientation.portraitDown", .portraitDown),
        ("DeviceOrientation.landscapeLeft", .landscapeLeft),
        ("DeviceOrientation.landscapeRight", .landscapeRight)] ∧
    Reader.ByName Overlay.choice.read
      [("SystemUiOverlay.top", .top), ("SystemUiOverlay.bottom", .bottom)] ∧
    Reader.ByName BarsMode.choice.read
      [("SystemUiMode.leanBack", .leanBack), ("SystemUiMode.immersive", .immersive),
        ("SystemUiMode.immersiveSticky", .immersiveSticky),
        ("SystemUiMode.edgeToEdge", .edgeToEdge)] ∧
    Reader.ByName Brightness.choice.read
      [("Brightness.dark", .dark), ("Brightness.light", .light)] ∧
    Reader.ByName ClipFormat.choice.read [("text/plain", .plainText)] ∧
    (∀ (v : Value) (s : Sound), v.as Sound.read = .ok s ↔ ∃ name, v = .string name ∧
      s = if name = "SystemSoundType.click" then .click
        else if name = "SystemSoundType.alert" then .alert
        else .unknown) ∧
    Reader.OneByOne Orientation.choice.read ∧ Reader.OneByOne Overlay.choice.read := by
  refine ⟨Haptic.distinct_choice.byName, Orientation.distinct_choice.byName,
    Overlay.distinct_choice.byName, BarsMode.distinct_choice.byName,
    Brightness.distinct_choice.byName, ClipFormat.distinct_choice.byName, fun v s => ?_,
    Reader.oneByOne _, Reader.oneByOne _⟩
  rw [Sound.as_eq_ok_iff]
  simp only [Sound.ofName_eq, eq_comm]

end HostBridge
