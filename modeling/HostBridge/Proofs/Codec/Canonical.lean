import HostBridge.Proofs.Codec.Calls
import HostBridge.Proofs.Codec.Replies
import HostBridge.Proofs.Text.Order

/-!
# Messages are canonical

A map is built by writes in any order, and a message shows nothing of it. The
tree of a value is known from the contents of the value (`Value.toJson_eq_of_same`),
and the members of an object are spelled in the order of their keys, as UTF-8
bytes (`Json.keysAscend_spell`). So what has the same contents has the same
message, at all levels of nesting (`encoding_canonical`).
-/

namespace HostBridge

/-! ## Keys in a spelled value -/

/-- The keys of every object in a spelled value ascend strictly, as UTF-8 bytes. -/
inductive Raw.KeysAscend : Raw → Prop
  | null : KeysAscend .null
  | bool (value : Bool) : KeysAscend (.bool value)
  | number (literal : Literal) : KeysAscend (.number literal)
  | string (pieces : List Piece) : KeysAscend (.string pieces)
  | array {elements : List Raw} (h : ∀ x ∈ elements, KeysAscend x) : KeysAscend (.array elements)
  | object {members : List (List Piece × Raw)} (keys : List String)
      (named : members.map (fun m => Piece.text? m.1) = keys.map some)
      (ascending : keys.Pairwise fun a b => Utf8.encode a < Utf8.encode b)
      (h : ∀ m ∈ members, KeysAscend m.2) : KeysAscend (.object members)

/-- Proper trees are spelled with ascending keys. -/
theorem Json.keysAscend_spell {x : Json} (h : x.Proper) : x.spell.KeysAscend := by
  induction h with
  | null => exact .null
  | bool value => exact .bool value
  | integer _ _ => exact .number _
  | float hx =>
    rw [spell, if_pos hx]
    exact .number _
  | string text => exact .string _
  | array _ ih =>
    rw [spell, spellElements_eq_map]
    refine .array fun y hy => ?_
    obtain ⟨x, hx, rfl⟩ := List.mem_map.1 hy
    exact ih x hx
  | @object members ascending _ ih =>
    rw [spell, spellMembers_eq_map]
    refine .object (members.map (·.1)) ?_ ?_ fun m hm => ?_
    · simp
    · rw [List.pairwise_map]
      exact ascending.imp Utf8.compare_eq_lt_iff.1
    · obtain ⟨m', hm', rfl⟩ := List.mem_map.1 hm
      exact ih m' hm'

/-- So are their texts. -/
theorem Json.keysAscend_write {x : Json} (h : x.Proper) :
    ∃ raw, Raw.read? x.write = some raw ∧ raw.KeysAscend :=
  ⟨x.spell, x.raw_read?_write, keysAscend_spell h⟩

/-! ## Contents and trees -/

namespace Value

/-- Values with the same contents have the same ones with null in place of whatever
    is no finite number. -/
theorem Same.finite {v w : Value} (h : Same v w) : Same v.finite w.finite := by
  rw [same_iff, canonical_finite, canonical_finite, same_iff.1 h]

/-- The tree of a value is known from its contents. -/
theorem toJson_eq_of_same {v w : Value} (h : Same v w) : v.toJson = w.toJson :=
  toJson_eq_iff.2 h.finite

end Value

namespace CallResult

theorem Same.finite {r s : CallResult} (h : Same r s) : Same r.finite s.finite := by
  cases h with
  | ok h => exact .ok h.finite
  | err code message h => exact .err code message h.finite
  | notImplemented => exact .notImplemented

end CallResult

/-- The tree of a call is proper: its argument comes before its method. -/
theorem MethodCall.proper_toJson (call : MethodCall) : call.toJson.Proper := by
  have hkeys : compare argsKey methodKey = .lt := by decide
  refine .object (List.pairwise_pair.2 hkeys) ?_
  rw [List.forall_mem_cons, List.forall_mem_singleton]
  exact ⟨call.args.proper_toJson, .string call.method⟩

/-- Messages are canonical:

    * calls of one method whose arguments have the same contents have the same
      message, and so have results with the same contents;
    * a call is spelled as an object, its argument before its method, and keys ascend
      at all levels;
    * so they do in the reply with a result, unless it is empty. -/
theorem encoding_canonical :
    (∀ (method : String) (v w : Value), Value.Same v w →
      MethodCall.encode ⟨method, v⟩ = MethodCall.encode ⟨method, w⟩) ∧
    (∀ r s : CallResult, CallResult.Same r s → r.encode = s.encode) ∧
    (∀ call : MethodCall, ∃ args method : Raw,
      Raw.read? call.encode =
        some (.object [(Piece.spell "args", args), (Piece.spell "method", method)]) ∧
      (Raw.object [(Piece.spell "args", args), (Piece.spell "method", method)]).KeysAscend) ∧
    ∀ r : CallResult, r.encode = [] ∧ r = .notImplemented ∨
      ∃ raw, Raw.read? r.encode = some raw ∧ raw.KeysAscend := by
  refine ⟨fun method v w h => ?_, fun r s h => CallResult.encode_eq_iff.2 h.finite,
    fun call => ⟨call.args.toJson.spell, .string (Piece.spell call.method), ?_, ?_⟩, fun r => ?_⟩
  · rw [MethodCall.encode, MethodCall.encode, MethodCall.toJson, MethodCall.toJson,
      Value.toJson_eq_of_same h]
  · rw [MethodCall.encode, Json.raw_read?_write, call.spell_toJson]
    rfl
  · have hcall := Json.keysAscend_spell call.proper_toJson
    rwa [call.spell_toJson] at hcall
  · rw [r.encode_eq_elim]
    cases htree : r.tree? with
    | none => exact .inl ⟨rfl, (r.encode_eq_nil_iff).1 (by rw [r.encode_eq_elim, htree]; rfl)⟩
    | some tree => exact .inr (Json.keysAscend_write (CallResult.proper_of_tree? htree))

/-- Two ways to build a map in a map. What is written over does not count, and neither
    does the order of the writes. -/
theorem encoding_canonical_rewritten :
    let inner : Value := .map [("ab", .int 1), ("", .bool true), ("a", .null)]
    let other : Value := .map [("a", .bool true), ("a", .null), ("ab", .int 1), ("", .bool true)]
    let v : Value := .map [("é", .list [inner]), ("z", inner)]
    let w : Value := .map [("z", .null), ("z", other), ("é", .list [other])]
    Value.Same v w ∧ MethodCall.encode ⟨"m", v⟩ = MethodCall.encode ⟨"m", w⟩ ∧
      CallResult.encode (.ok v) = CallResult.encode (.ok w) := by
  intro inner other v w
  have h : Value.Same v w := by
    rw [Value.same_iff]
    unfold v w inner other
    rfl
  exact ⟨h, encoding_canonical.1 "m" v w h, encoding_canonical.2.1 _ _ (.ok h)⟩

end HostBridge
