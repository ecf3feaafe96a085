import HostBridge.Proofs.Codec.Canonical
import HostBridge.Typed.Call

/-!
# Values that are written and read as values

Typed things become values, and values typed things, by way of JSON trees. A value and
a method call are themselves such things, so they can take the way for nothing. Two
conversions meet on it: a tree is converted as a whole (`Value.convert`), or offers what
it holds piece by piece (`Value.visit`), where an integer has a sign or has none.

* `Value.visit_toJson`, `Value.convert_toJson`: from the tree of a value both make the
  value, with null in place of whatever is no finite number.
* `MethodCall.as_record_written`: a call that was written as a value is read from it.
* `Value.detour_preserves`: what comes of values and calls on the way.
-/

namespace HostBridge

namespace Value

/-! ## Integers -/

/-- An integer of a value is offered with its sign or without, and is the same again. -/
theorem accept_ofInteger_toInt (n : Int64) : accept (.ofInteger n.toInt) = .ok (.int n) := by
  rw [Offer.ofInteger]
  split
  · next hneg => rw [accept, Int64.ofInt_toInt]
  · next hneg =>
    -- what has no sign is below the end of the range, so it fits without one
    have hnat : (n.toInt.toNat : Int) = n.toInt := Int.toNat_of_nonneg (Int.not_lt.1 hneg)
    have hlt : n.toInt.toNat < UInt64.size := by
      have hle := toInt_le_greatestInt n
      rw [greatestInt] at hle
      rw [UInt64.size]
      omega
    rw [accept, UInt64.toNat_ofNat_of_lt' hlt, hnat, ofInt?_toInt]

/-! ## Trees of values -/

theorem visitElements_toJson {vs : List Value}
    (h : ∀ v ∈ vs, visit v.toJson = .ok (ofJson v.toJson)) :
    visitElements (vs.map toJson) = .ok (ofJsonElements (vs.map toJson)) := by
  induction vs with
  | nil => rfl
  | cons v vs ih =>
    obtain ⟨hv, hvs⟩ := List.forall_mem_cons.1 h
    rw [List.map_cons, visitElements, hv, ih hvs]
    rfl

theorem visitMembers_toJson {ws : List (String × Value)}
    (h : ∀ w ∈ ws, visit w.2.toJson = .ok (ofJson w.2.toJson)) :
    visitMembers (Entries.mapValues toJson ws) =
      .ok (ofJsonMembers (Entries.mapValues toJson ws)) := by
  induction ws with
  | nil => rfl
  | cons w ws ih =>
    obtain ⟨hw, hws⟩ := List.forall_mem_cons.1 h
    rw [Entries.mapValues_cons, visitMembers, hw, ih hws]
    rfl

/-- Piece by piece the tree of a value gives what it gives as a whole. -/
theorem visit_toJson_eq_ofJson (v : Value) : visit v.toJson = .ok (ofJson v.toJson) := by
  induction v using Value.induction with
  | null => rfl
  | bool value => rfl
  | int n =>
    rw [toJson, visit, accept_ofInteger_toInt, ofJson, ofInt?_toInt, Option.getD_some]
  | float x =>
    rw [toJson]
    split <;> rfl
  | string text => rfl
  | list vs ih =>
    rw [toJson_list, visit, visitElements_toJson ih]
    rfl
  | map ws ih =>
    have hsettle : ∀ w ∈ Entries.settle ws, visit w.2.toJson = .ok (ofJson w.2.toJson) :=
      fun w hw => ih w (Entries.mem_of_mem_settle hw)
    rw [toJson_map, Entries.settle_mapValues, visit, visitMembers_toJson hsettle]
    rfl

/-- What a tree of a value offers makes the value, with null in place of whatever is no
    finite number. -/
theorem visit_toJson (v : Value) : visit v.toJson = .ok v.finite.canonical := by
  rw [visit_toJson_eq_ofJson, ofJson_toJson]

theorem convert_eq (x : Json) : convert x = .ok (ofJson x) := by
  rw [convert, ofJson?_eq]

/-- So does its conversion. -/
theorem convert_toJson (v : Value) : convert v.toJson = .ok v.finite.canonical := by
  rw [convert_eq, ofJson_toJson]

/-- A value that is written as a value. -/
def rewrite (v : Value) : Except ValueError Value := convert v.toJson

/-- A value that is read as a value. -/
def reread (v : Value) : Except ValueError Value := v.as Reader.value

theorem rewrite_eq (v : Value) : v.rewrite = .ok v.finite.canonical := v.convert_toJson

theorem reread_eq (v : Value) : v.reread = .ok v.finite.canonical := v.visit_toJson

/-- What has no number to lose and is in key order already is left as it is. -/
theorem finite_canonical_idem (v : Value) :
    v.finite.canonical.finite.canonical = v.finite.canonical := by
  rw [← ofJson_toJson, toJson_finite_canonical, ofJson_toJson]

/-- Of two such ways the second has nothing left to do. -/
theorem bind_of_finite {f g : Value → Except ValueError Value}
    (hf : ∀ v, f v = .ok v.finite.canonical) (hg : ∀ v, g v = .ok v.finite.canonical) (v : Value) :
    (f v >>= g) = .ok v.finite.canonical := by
  rw [hf]
  exact (hg _).trans (congrArg Except.ok v.finite_canonical_idem)

end Value

namespace MethodCall

open Value

variable (call : MethodCall)

/-- The value as which a call is written: its argument before its method. -/
def written : Value :=
  .map [(argsKey, call.args.finite.canonical), (methodKey, .string call.method)]

theorem convert_toJson_call : convert call.toJson = .ok call.written := by
  rw [convert_eq, MethodCall.toJson, ofJson, ofJsonMembers_eq_mapValues, Entries.mapValues_cons,
    Entries.mapValues_cons, ofJson_toJson, ofJson]
  rfl

theorem compare_argsKey_methodKey : compare argsKey methodKey = .lt := by decide

theorem toJson_written : call.written.toJson = call.toJson := by
  have hkeys : Entries.Ascending [(argsKey, call.args.toJson), (methodKey, .string call.method)] :=
    List.pairwise_pair.2 compare_argsKey_methodKey
  rw [written, toJson_map, Entries.mapValues_cons, Entries.mapValues_cons, toJson_finite_canonical,
    Entries.mapValues_nil]
  exact congrArg Json.object (Entries.settle_of_ascending hkeys)

/-- Whether the method is written first or last makes no difference. -/
theorem same_written_write : Same call.written call.write := by
  have hne : argsKey ≠ methodKey := by decide
  rw [same_iff, written, write, viaJson, ofJson_toJson, canonical_map, canonical_map]
  refine congrArg map (Entries.settle_eq_iff.2 fun key => ?_)
  simp only [Entries.mapValues_cons, Entries.mapValues_nil, Entries.last?_cons]
  by_cases hkey : key = argsKey
  · simp [hkey, hne]
  · simp [hkey]

/-- A call is read from the value as which it is written. -/
theorem as_record_written :
    call.written.as record.read = .ok ⟨call.method, call.args.finite.canonical⟩ := by
  have hargs : record.fields.find? (·.name == argsKey) =
      some (.optional argsKey .value fun v call => { call with args := v }) := rfl
  have hmethod : record.fields.find? (·.name == methodKey) =
      some (.mandatory methodKey .string fun v call => { call with method := v }) := rfl
  rw [Value.as, toJson_written, MethodCall.toJson, Record.read, Record.ofMembers,
    Record.readMembers, hargs]
  simp only [Record.readMembers, hmethod, Field.optional, Field.mandatory, Reader.value,
    visit_toJson, Reader.string, Except.map]
  rfl

end MethodCall

/-- To write a value as a value, and to read a value as a value:

    * neither fails, and both give the value with null in place of whatever is no finite
      number, and with the same contents otherwise;
    * so each of them done twice is done once, they agree, and it does not matter which of
      them comes first;
    * a call that is written as a value is read from it with that replacement in its
      argument. -/
theorem Value.detour_preserves :
    (∀ v : Value, v.rewrite = .ok v.finite.canonical ∧ v.reread = .ok v.finite.canonical ∧
      Same v.finite.canonical v.finite ∧ v.rewrite = .ok v.viaJson ∧
      (v.rewrite >>= rewrite) = v.rewrite ∧ (v.reread >>= reread) = v.reread ∧
      v.rewrite = v.reread ∧ (v.rewrite >>= reread) = (v.reread >>= rewrite)) ∧
    ∀ call : MethodCall, ∃ w, convert call.toJson = .ok w ∧ Same w call.write ∧
      w.as MethodCall.record.read = .ok ⟨call.method, call.args.finite.canonical⟩ := by
  refine ⟨fun v => ⟨v.rewrite_eq, v.reread_eq, same_canonical _, convert_eq _, ?_, ?_, ?_, ?_⟩,
    fun call => ⟨call.written, call.convert_toJson_call, call.same_written_write,
      call.as_record_written⟩⟩
  · rw [bind_of_finite rewrite_eq rewrite_eq, rewrite_eq]
  · rw [bind_of_finite reread_eq reread_eq, reread_eq]
  · rw [rewrite_eq, reread_eq]
  · rw [bind_of_finite rewrite_eq reread_eq, bind_of_finite reread_eq rewrite_eq]

end HostBridge
