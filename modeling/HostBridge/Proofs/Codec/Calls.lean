import HostBridge.Codec
import HostBridge.Proofs.Value.Trees

/-!
# Method calls are read back

A call is written as an object with two members, and read as the same call with
null in place of whatever is no finite number. The object takes one of the
levels that a message may be nested, and a call with deeper arguments is refused
(`MethodCall.call_round_trip`).
-/

namespace HostBridge

namespace MethodCall

variable (call : MethodCall)

/-- The spelling of a call: its argument before its method. -/
theorem spell_toJson : call.toJson.spell =
    .object [(Piece.spell argsKey, call.args.toJson.spell),
      (Piece.spell methodKey, .string (Piece.spell call.method))] := by
  rw [toJson, Json.spell, Json.spellMembers_eq_map]
  rfl

theorem methodOfRaw?_spell (method : String) :
    methodOfRaw? (.string (Piece.spell method)) = some method :=
  Piece.text?_spell method

theorem named?_spell (args method : Raw) :
    named? [(Piece.spell argsKey, args), (Piece.spell methodKey, method)] =
      some [(argsKey, args), (methodKey, method)] := by
  simp only [named?, Piece.text?_spell]
  rfl

/-- The members of a call are found under their names. -/
theorem valuesOf_members (args method : Raw) :
    valuesOf methodKey [(argsKey, args), (methodKey, method)] = [method] ∧
      valuesOf argsKey [(argsKey, args), (methodKey, method)] = [args] :=
  ⟨rfl, rfl⟩

/-- A call is given by the members that are written for it, if its argument is
    read. -/
theorem ofRaw?_spell_toJson : ofRaw? call.toJson.spell =
    (Value.ofRaw? maxNesting call.args.toJson.spell).map (⟨call.method, ·⟩) := by
  obtain ⟨hmethod, hargs⟩ :=
    valuesOf_members call.args.toJson.spell (.string (Piece.spell call.method))
  rw [spell_toJson, ofRaw?, ofMembers?, named?_spell]
  simp only [Option.bind_eq_bind, Option.bind_some, hmethod, hargs, methodOfRaw?_spell]
  cases Value.ofRaw? maxNesting call.args.toJson.spell <;> rfl

/-- A call is read back from its message, unless its argument is nested too deep. -/
theorem decode?_encode_eq : decode? call.encode =
    if call.args.depth ≤ 126 then some ⟨call.method, call.args.finite.canonical⟩ else none := by
  rw [decode?, encode, Json.raw_read?_write, Option.bind_some, ofRaw?_spell_toJson,
    Value.ofRaw?_spell_toJson]
  show Option.map _ (if call.args.depth ≤ 126 then _ else _) = _
  split <;> rfl

/-- A call is read back with null in place of whatever is no finite number if
    its argument is nested at most 126 deep, and refused if it is nested
    deeper. -/
theorem call_round_trip :
    decode? call.encode =
        (if call.args.depth ≤ 126 then some ⟨call.method, call.args.finite.canonical⟩
          else none) ∧
      Value.Same call.args.finite.canonical call.args.finite :=
  ⟨call.decode?_encode_eq, Value.same_canonical _⟩

end MethodCall

end HostBridge
