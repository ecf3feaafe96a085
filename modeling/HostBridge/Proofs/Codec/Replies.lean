import HostBridge.Codec
import HostBridge.Proofs.Value.Trees

/-!
# Replies are read back

The result of a call is read back from its reply with null in place of whatever
is no finite number, if the value that it carries is nested at most 126 deep,
and the reply is refused if it is deeper (`CallResult.decode?_encode_eq`). Two
results have the same reply if and only if they are the same up to that
replacement (`CallResult.encode_eq_iff`): the two kinds of lists and the empty
reply are told apart whatever values they carry.
-/

namespace HostBridge

namespace CallResult

/-! ## Contents of results -/

/-- The result with another value. -/
def mapValue (f : Value → Value) : CallResult → CallResult
  | .ok value => .ok (f value)
  | .err code message details => .err code message (f details)
  | .notImplemented => .notImplemented

/-- The result with null in place of whatever is no finite number. -/
def finite : CallResult → CallResult := mapValue Value.finite

/-- The result with the canonical form of its value. -/
def canonical : CallResult → CallResult := mapValue Value.canonical

/-- How deep lists and maps are nested in the value that the result carries. -/
def depth : CallResult → Nat
  | .ok value => value.depth
  | .err _ _ details => details.depth
  | .notImplemented => 0

/-- The results are of the same kind, and carry values with the same contents. -/
inductive Same : CallResult → CallResult → Prop
  | ok {v w : Value} (h : Value.Same v w) : Same (.ok v) (.ok w)
  | err (code message : String) {v w : Value} (h : Value.Same v w) :
      Same (.err code message v) (.err code message w)
  | notImplemented : Same .notImplemented .notImplemented

theorem same_ok_iff {v w : Value} : Same (.ok v) (.ok w) ↔ Value.Same v w := by
  refine ⟨fun h => ?_, .ok⟩
  cases h with | ok h => exact h

theorem same_err_iff {code code' message message' : String} {v w : Value} :
    Same (.err code message v) (.err code' message' w) ↔
      code = code' ∧ message = message' ∧ Value.Same v w := by
  constructor
  · intro h
    cases h with | err _ _ h => exact ⟨rfl, rfl, h⟩
  · rintro ⟨rfl, rfl, h⟩
    exact .err code message h

/-- A success has never the contents of a failure. -/
theorem not_same_ok_err {v details : Value} {code message : String} :
    ¬Same (.ok v) (.err code message details) := by
  intro h
  cases h

theorem same_canonical (r : CallResult) : Same r.canonical r := by
  cases r with
  | ok value => exact .ok value.same_canonical
  | err code message details => exact .err code message details.same_canonical
  | notImplemented => exact .notImplemented

/-! ## The tree of a reply -/

/-- The tree of a reply, if it has one. -/
def tree? : CallResult → Option Json
  | .ok value => some (.array [value.toJson])
  | .err code message details => some (.array [.string code, .string message, details.toJson])
  | .notImplemented => none

theorem encode_eq_elim (r : CallResult) : r.encode = r.tree?.elim [] Json.write := by
  cases r <;> rfl

theorem proper_of_tree? {r : CallResult} {tree : Json} (h : r.tree? = some tree) :
    tree.Proper := by
  cases r with
  | ok value =>
    obtain rfl := Option.some.inj h
    exact .array (by simpa using value.proper_toJson)
  | err code message details =>
    obtain rfl := Option.some.inj h
    exact .array (by simpa using ⟨.string code, .string message, details.proper_toJson⟩)
  | notImplemented => exact absurd h (by simp [tree?])

/-- A list that is written as a reply is read value by value. -/
theorem readTree?_write_array {xs : List Json} (h : ∀ x ∈ xs, x.Proper) :
    Value.readTree? (Json.array xs).write =
      if ∀ x ∈ xs, x.nesting ≤ 126 then some (.list (xs.map Value.ofJson)) else none := by
  have hfits : (Json.array xs).nesting ≤ Json.maxNesting ↔ ∀ x ∈ xs, x.nesting ≤ 126 :=
    Json.nesting_array_le_iff
  rw [Value.readTree?, Json.read?_write (.array h)]
  simp only [hfits]
  split
  · rw [Option.bind_some, Value.ofJson?_eq, Value.ofJson, Value.ofJsonElements_eq_map]
  · rfl

/-- A reply that is not empty holds a list of one or of three values. -/
theorem decode?_of_ne_nil {reply : Bytes} (h : reply ≠ []) : decode? reply =
    match Value.readTree? reply with
    | some (.list [value]) => some (.ok value)
    | some (.list [code, message, details]) => some (.err (textOf code) (textOf message) details)
    | _ => none :=
  if_neg h

/-! ## There and back -/

theorem readTree?_encode_ok (value : Value) : Value.readTree? (encode (.ok value)) =
    if value.depth ≤ 126 then some (.list [value.finite.canonical]) else none := by
  rw [encode, readTree?_write_array (by simpa using value.proper_toJson)]
  simp only [List.forall_mem_singleton, Value.nesting_toJson, List.map_cons, List.map_nil,
    Value.ofJson_toJson]

theorem readTree?_encode_err (code message : String) (details : Value) :
    Value.readTree? (encode (.err code message details)) =
      if details.depth ≤ 126 then
        some (.list [.string code, .string message, details.finite.canonical])
      else none := by
  have hproper : ∀ x ∈ [.string code, .string message, details.toJson], Json.Proper x := by
    simpa using ⟨.string code, .string message, details.proper_toJson⟩
  rw [encode, readTree?_write_array hproper]
  simp only [List.forall_mem_cons, Json.nesting, Nat.zero_le, true_and, List.not_mem_nil,
    false_implies, implies_true, and_true, Value.nesting_toJson, List.map_cons, List.map_nil,
    Value.ofJson_toJson, Value.ofJson]

/-- A result is read back from its reply, unless it is nested too deep. -/
theorem decode?_encode_eq (r : CallResult) :
    decode? r.encode = if r.depth ≤ 126 then some r.finite.canonical else none := by
  cases r with
  | ok value =>
    have hne : encode (.ok value) ≠ [] := Json.write_ne_nil _
    rw [decode?_of_ne_nil hne, readTree?_encode_ok, depth]
    by_cases hdepth : value.depth ≤ 126
    · rw [if_pos hdepth, if_pos hdepth]
      rfl
    · rw [if_neg hdepth, if_neg hdepth]
  | err code message details =>
    have hne : encode (.err code message details) ≠ [] := Json.write_ne_nil _
    rw [decode?_of_ne_nil hne, readTree?_encode_err, depth]
    by_cases hdepth : details.depth ≤ 126
    · rw [if_pos hdepth, if_pos hdepth]
      rfl
    · rw [if_neg hdepth, if_neg hdepth]
  | notImplemented => rfl

/-- The reply is empty if and only if the method is not implemented. -/
theorem encode_eq_nil_iff (r : CallResult) : r.encode = [] ↔ r = .notImplemented := by
  cases r with
  | ok value => exact iff_of_false (Json.write_ne_nil _) (by simp)
  | err code message details => exact iff_of_false (Json.write_ne_nil _) (by simp)
  | notImplemented => exact iff_of_true rfl rfl

/-- A reply is known from its tree. -/
theorem encode_eq_iff_tree? {r s : CallResult} : r.encode = s.encode ↔ r.tree? = s.tree? := by
  refine ⟨fun h => ?_, fun h => by rw [encode_eq_elim, encode_eq_elim, h]⟩
  rw [encode_eq_elim, encode_eq_elim] at h
  cases hr : r.tree? with
  | none =>
    cases hs : s.tree? with
    | none => rfl
    | some tree =>
      rw [hr, hs] at h
      exact absurd h.symm (Json.write_ne_nil tree)
  | some tree =>
    cases hs : s.tree? with
    | none =>
      rw [hr, hs] at h
      exact absurd h (Json.write_ne_nil tree)
    | some tree' =>
      rw [hr, hs] at h
      rw [Json.eq_of_write_eq (proper_of_tree? hr) (proper_of_tree? hs) h]

/-- A list of one value is never a list of three values, and both are known from
    the contents of what they list. -/
theorem tree?_eq_iff {r s : CallResult} : r.tree? = s.tree? ↔ Same r.finite s.finite := by
  cases r with
  | ok v =>
    cases s with
    | ok w =>
      have htree : (ok v).tree? = (ok w).tree? ↔ v.toJson = w.toJson := by simp [tree?]
      rw [htree, Value.toJson_eq_iff]
      exact same_ok_iff.symm
    | err code message details => exact iff_of_false (by simp [tree?]) (by rintro ⟨⟩)
    | notImplemented => exact iff_of_false (by simp [tree?]) (by rintro ⟨⟩)
  | err code message details =>
    cases s with
    | ok w => exact iff_of_false (by simp [tree?]) (by rintro ⟨⟩)
    | err code' message' details' =>
      have htree : (err code message details).tree? = (err code' message' details').tree? ↔
          code = code' ∧ message = message' ∧ details.toJson = details'.toJson := by
        simp [tree?]
      rw [htree, Value.toJson_eq_iff]
      exact same_err_iff.symm
    | notImplemented => exact iff_of_false (by simp [tree?]) (by rintro ⟨⟩)
  | notImplemented =>
    cases s with
    | ok w => exact iff_of_false (by simp [tree?]) (by rintro ⟨⟩)
    | err code message details => exact iff_of_false (by simp [tree?]) (by rintro ⟨⟩)
    | notImplemented => exact iff_of_true rfl .notImplemented

/-- Two results have the same reply if and only if they are the same up to what
    is no finite number. -/
theorem encode_eq_iff {r s : CallResult} : r.encode = s.encode ↔ Same r.finite s.finite := by
  rw [encode_eq_iff_tree?, tree?_eq_iff]

/-- Replies:

    * a result is read back from its reply, with null in place of whatever is no
      finite number, if its value is nested at most 126 deep, and the reply is
      refused if it is nested deeper;
    * two results have the same reply if and only if they are the same up to that
      replacement;
    * a success is never taken for a failure, whatever value it carries;
    * only a method that is not implemented has the empty reply. -/
theorem reply_round_trip :
    (∀ r : CallResult,
      decode? r.encode = (if r.depth ≤ 126 then some r.finite.canonical else none) ∧
        Same r.finite.canonical r.finite) ∧
    (∀ r s : CallResult, r.encode = s.encode ↔ Same r.finite s.finite) ∧
    (∀ (value : Value) (code message : String) (details : Value),
      encode (.ok value) ≠ encode (.err code message details)) ∧
    (∀ r : CallResult, r.encode = [] ↔ r = .notImplemented) :=
  ⟨fun r => ⟨r.decode?_encode_eq, r.finite.same_canonical⟩, fun _ _ => encode_eq_iff,
    fun _ _ _ _ h => not_same_ok_err (encode_eq_iff.1 h), encode_eq_nil_iff⟩

end CallResult

end HostBridge
