import HostBridge.Proofs.Codec.Acceptance
import HostBridge.Proofs.Codec.Replies

/-!
# Normal forms of messages

A call can be spelled in many ways: as an object or as an array, with blanks and
escapes, with members in any order and keys that are repeated. What is read has
lost all that. It is *normal* (`Value.Normal`): its numbers are finite, and its maps
have every key once, in key order.

* `Value.normal_of_ofRaw?`: whatever is read is normal, and nested no deeper than
  there was room for;
* `Value.Normal.finite_eq` and `Value.Normal.canonical_eq`: writing it loses
  nothing more.

So the message of what was read is read back as the same, and writing it again
gives the same message (`recoding_stable`).
-/

namespace HostBridge

/-- Every element that was read is what some element means. -/
theorem exists_of_mem_mapM {α β : Type} {f : α → Option β} {as : List α} {bs : List β}
    (h : as.mapM f = some bs) {b : β} (hb : b ∈ bs) : ∃ a ∈ as, f a = some b := by
  induction as generalizing bs with
  | nil =>
    obtain rfl : bs = [] := by simpa using h.symm
    exact absurd hb List.not_mem_nil
  | cons a as ih =>
    rw [List.mapM_cons] at h
    obtain ⟨b', ha, h⟩ := Option.bind_eq_some_iff.1 h
    obtain ⟨bs', has, h⟩ := Option.bind_eq_some_iff.1 h
    obtain rfl : b' :: bs' = bs := Option.some.inj h
    rcases List.mem_cons.1 hb with rfl | hb
    · exact ⟨a, List.mem_cons_self, ha⟩
    · obtain ⟨a', ha', hread⟩ := ih has hb
      exact ⟨a', List.mem_cons_of_mem _ ha', hread⟩

/-- The number of a literal is finite. -/
theorem Literal.isFinite_of_toFloat? {l : Literal} {x : Binary64} (h : l.toFloat? = some x) :
    x.isFinite = true := by
  rw [toFloat?] at h
  split at h
  · obtain rfl := Option.some.inj h
    cases l.negative <;> decide
  split at h
  · obtain rfl := Option.some.inj h
    cases l.negative <;> decide
  split at h
  · exact absurd h (by simp)
  split at h
  · exact Binary64.isFinite_of_ofRatio? h
  · exact Binary64.isFinite_of_ofRatio? h

namespace Value

/-- The floating-point numbers in the value are finite, and its maps have every key
    once, in key order. -/
inductive Normal : Value → Prop
  | null : Normal .null
  | bool (value : Bool) : Normal (.bool value)
  | int (n : Int64) : Normal (.int n)
  | float {x : Binary64} (h : x.isFinite = true) : Normal (.float x)
  | string (text : String) : Normal (.string text)
  | list {vs : List Value} (h : ∀ v ∈ vs, Normal v) : Normal (.list vs)
  | map {ws : List (String × Value)} (ascending : Entries.Ascending ws)
      (h : ∀ w ∈ ws, Normal w.2) : Normal (.map ws)

/-! ## What is left alone -/

theorem map_eq_self {f : Value → Value} {vs : List Value} (h : ∀ v ∈ vs, f v = v) :
    vs.map f = vs := by
  rw [List.map_congr_left h, List.map_id']

theorem mapValues_eq_self {f : Value → Value} {ws : List (String × Value)}
    (h : ∀ w ∈ ws, f w.2 = w.2) : Entries.mapValues f ws = ws := by
  rw [Entries.mapValues_congr (g := fun v => v) h]
  exact List.map_id' ws

/-- Nothing in a normal value has to be replaced by null. -/
theorem Normal.finite_eq {v : Value} (h : v.Normal) : v.finite = v := by
  induction h with
  | float hx => rw [finite, if_pos hx]
  | list _ ih => rw [finite_list, map_eq_self ih]
  | map _ _ ih => rw [finite_map, mapValues_eq_self ih]
  | _ => rfl

/-- A normal value is its own canonical form. -/
theorem Normal.canonical_eq {v : Value} (h : v.Normal) : v.canonical = v := by
  induction h with
  | list _ ih => rw [canonical_list, map_eq_self ih]
  | map ascending _ ih =>
    rw [canonical_map, mapValues_eq_self ih, Entries.settle_of_ascending ascending]
  | _ => rfl

theorem Normal.depth_eq {v : Value} (h : v.Normal) : v.depth = v.nesting := by
  rw [depth, h.canonical_eq]

/-! ## What is read -/

theorem nestingOfElements_le_iff {vs : List Value} {room : Nat} :
    nestingOfElements vs ≤ room ↔ ∀ v ∈ vs, v.nesting ≤ room := by
  induction vs with
  | nil => simp [nestingOfElements]
  | cons v vs ih => rw [nestingOfElements, Nat.max_le, ih, List.forall_mem_cons]

theorem nestingOfWrites_le_iff {ws : List (String × Value)} {room : Nat} :
    nestingOfWrites ws ≤ room ↔ ∀ w ∈ ws, w.2.nesting ≤ room := by
  induction ws with
  | nil => simp [nestingOfWrites]
  | cons w ws ih => rw [nestingOfWrites, Nat.max_le, ih, List.forall_mem_cons]

/-- A literal is an integer or a finite number. -/
theorem scalar_of_ofLiteral? {l : Literal} {v : Value} (h : ofLiteral? l = some v) :
    v.Normal ∧ v.nesting = 0 := by
  rw [ofLiteral?] at h
  split at h
  · rw [ofInt?] at h
    split at h
    · obtain rfl := Option.some.inj h
      exact ⟨.int _, rfl⟩
    · exact absurd h (by simp)
  · next x hx =>
    obtain rfl := Option.some.inj h
    refine ⟨.float ?_, rfl⟩
    -- the tree has the number from the literal itself
    have hfloat : l.toFloat? = some x := by
      rw [Json.ofLiteral?] at hx
      split at hx
      · split at hx
        · exact absurd hx (by simp)
        · simpa using hx
      · simpa using hx
    exact Literal.isFinite_of_toFloat? hfloat
  · exact absurd h (by simp)

/-- What is left behind by members that are read was read from one of them. -/
theorem exists_of_mem_settle_mapM {read : Raw → Option Value} {ms : List (List Piece × Raw)}
    {ws : List (String × Value)} (h : ms.mapM (Raw.member? read) = some ws) {w : String × Value}
    (hw : w ∈ Entries.settle ws) : ∃ m ∈ ms, read m.2 = some w.2 := by
  obtain ⟨m, hm, hread⟩ := exists_of_mem_mapM h (Entries.mem_of_mem_settle hw)
  rw [Raw.member?] at hread
  obtain ⟨key, -, hread⟩ := Option.bind_eq_some_iff.1 hread
  obtain ⟨v, hv, hread⟩ := Option.bind_eq_some_iff.1 hread
  obtain rfl : (key, v) = w := Option.some.inj hread
  exact ⟨m, hm, hv⟩

/-- Whatever is read is normal, and nested no deeper than there was room for. -/
theorem normal_of_ofRaw? {room : Nat} {x : Raw} {v : Value} (h : ofRaw? room x = some v) :
    v.Normal ∧ v.nesting ≤ room := by
  induction x using Raw.induction generalizing room v with
  | null =>
    obtain rfl := Option.some.inj h
    exact ⟨.null, Nat.zero_le _⟩
  | bool value =>
    obtain rfl := Option.some.inj h
    exact ⟨.bool value, Nat.zero_le _⟩
  | number literal =>
    obtain ⟨hnormal, hnesting⟩ := scalar_of_ofLiteral? h
    exact ⟨hnormal, hnesting ▸ Nat.zero_le _⟩
  | string pieces =>
    obtain ⟨text, -, rfl⟩ := Option.map_eq_some_iff.1 h
    exact ⟨.string text, Nat.zero_le _⟩
  | array elements ih =>
    rcases room with _ | room
    · exact absurd h (by simp [ofRaw?])
    rw [ofRaw?, elementsOfRaw?_eq_mapM] at h
    obtain ⟨vs, hvs, rfl⟩ := Option.map_eq_some_iff.1 h
    have hall : ∀ v ∈ vs, v.Normal ∧ v.nesting ≤ room := by
      intro v hv
      obtain ⟨x, hx, hread⟩ := exists_of_mem_mapM hvs hv
      exact ih x hx hread
    refine ⟨.list fun v hv => (hall v hv).1, ?_⟩
    rw [nesting, Nat.add_comm]
    exact Nat.succ_le_succ (nestingOfElements_le_iff.2 fun v hv => (hall v hv).2)
  | object members ih =>
    rcases room with _ | room
    · exact absurd h (by simp [ofRaw?])
    rw [ofRaw?, membersOfRaw?_eq_mapM] at h
    obtain ⟨ws, hws, rfl⟩ := Option.map_eq_some_iff.1 h
    -- a member that a later one has replaced leaves nothing behind
    have hall : ∀ w ∈ Entries.settle ws, w.2.Normal ∧ w.2.nesting ≤ room := by
      intro w hw
      obtain ⟨m, hm, hread⟩ := exists_of_mem_settle_mapM hws hw
      exact ih m hm hread
    refine ⟨.map (Entries.ascending_settle ws) fun w hw => (hall w hw).1, ?_⟩
    rw [nesting, Nat.add_comm]
    exact Nat.succ_le_succ (nestingOfWrites_le_iff.2 fun w hw => (hall w hw).2)

end Value

/-! ## Calls -/

namespace MethodCall

/-- The message of the call that a message holds. -/
def recode? (message : Bytes) : Option Bytes := (decode? message).map encode

/-- The argument of a call is null, or it is read with the room that the call itself
    leaves. -/
theorem args_of_decode? {message : Bytes} {call : MethodCall} (h : decode? message = some call) :
    call.args = .null ∨ ∃ args, Value.ofRaw? maxNesting args = some call.args := by
  rcases decode?_eq_some_iff.1 h with ⟨members, -, hheld⟩ | ⟨elements, -, hlisted⟩
  · rcases hheld.args with ⟨-, hnull⟩ | ⟨args, -, hread⟩
    · exact .inl hnull
    · exact .inr ⟨args, hread⟩
  · rcases hlisted with ⟨-, hnull⟩ | ⟨-, hread⟩
    · exact .inl hnull
    · exact .inr ⟨_, hread⟩

/-- The argument of a call that is read is normal, and nested at most 126 deep. -/
theorem normal_of_decode? {message : Bytes} {call : MethodCall} (h : decode? message = some call) :
    call.args.Normal ∧ call.args.depth ≤ 126 := by
  rcases args_of_decode? h with hnull | ⟨args, hread⟩
  · rw [hnull]
    exact ⟨.null, Nat.zero_le _⟩
  · obtain ⟨hnormal, hnesting⟩ := Value.normal_of_ofRaw? hread
    exact ⟨hnormal, hnormal.depth_eq ▸ hnesting⟩

/-- A call that was read is read back from its message. -/
theorem decode?_encode_of_decode? {message : Bytes} {call : MethodCall}
    (h : decode? message = some call) : decode? call.encode = some call := by
  obtain ⟨hnormal, hdepth⟩ := normal_of_decode? h
  rw [decode?_encode_eq, if_pos hdepth, hnormal.finite_eq, hnormal.canonical_eq]

/-- The message that is written for what a message holds is left alone. -/
theorem recode?_encode_of_decode? {message : Bytes} {call : MethodCall}
    (h : decode? message = some call) : recode? call.encode = some call.encode := by
  rw [recode?, decode?_encode_of_decode? h, Option.map_some]

end MethodCall

/-! ## Results -/

namespace CallResult

/-- The reply with the result that a reply holds. -/
def recode? (reply : Bytes) : Option Bytes := (decode? reply).map encode

/-- The value that the result carries is normal. -/
inductive Normal : CallResult → Prop
  | ok {value : Value} (h : value.Normal) : Normal (.ok value)
  | err (code message : String) {details : Value} (h : details.Normal) :
      Normal (.err code message details)
  | notImplemented : Normal .notImplemented

theorem Normal.finite_canonical_eq {r : CallResult} (h : r.Normal) : r.finite.canonical = r := by
  cases h with
  | ok h => rw [finite, mapValue, canonical, mapValue, h.finite_eq, h.canonical_eq]
  | err code message h => rw [finite, mapValue, canonical, mapValue, h.finite_eq, h.canonical_eq]
  | notImplemented => rfl

/-- The values in a list that is read are normal, and nested at most 126 deep. -/
theorem normal_of_readTree? {reply : Bytes} {vs : List Value}
    (h : Value.readTree? reply = some (.list vs)) : ∀ v ∈ vs, v.Normal ∧ v.depth ≤ 126 := by
  rw [Value.readTree?_eq] at h
  obtain ⟨x, -, hread⟩ := Option.bind_eq_some_iff.1 h
  obtain ⟨hnormal, hnesting⟩ := Value.normal_of_ofRaw? hread
  cases hnormal with
  | list hall =>
    intro v hv
    -- the list itself takes one of the levels
    have hle : Value.nestingOfElements vs ≤ 126 := by
      rw [Value.nesting, Json.maxNesting] at hnesting
      omega
    exact ⟨hall v hv, (hall v hv).depth_eq ▸ Value.nestingOfElements_le_iff.1 hle v hv⟩

/-- The value of a result that is read is normal, and nested at most 126 deep. -/
theorem normal_of_decode? {reply : Bytes} {result : CallResult}
    (h : decode? reply = some result) : result.Normal ∧ result.depth ≤ 126 := by
  by_cases hne : reply = []
  · obtain rfl : notImplemented = result := by simpa [decode?, hne] using h
    exact ⟨.notImplemented, Nat.zero_le _⟩
  rw [decode?_of_ne_nil hne] at h
  split at h
  · next value hread =>
    obtain rfl := Option.some.inj h
    obtain ⟨hnormal, hdepth⟩ := normal_of_readTree? hread value (by simp)
    exact ⟨.ok hnormal, hdepth⟩
  · next code message details hread =>
    obtain rfl := Option.some.inj h
    obtain ⟨hnormal, hdepth⟩ := normal_of_readTree? hread details (by simp)
    exact ⟨.err _ _ hnormal, hdepth⟩
  · exact absurd h (by simp)

/-- A result that was read is read back from its reply. -/
theorem decode?_encode_of_decode? {reply : Bytes} {result : CallResult}
    (h : decode? reply = some result) : decode? result.encode = some result := by
  obtain ⟨hnormal, hdepth⟩ := normal_of_decode? h
  rw [decode?_encode_eq, if_pos hdepth, hnormal.finite_canonical_eq]

theorem recode?_encode_of_decode? {reply : Bytes} {result : CallResult}
    (h : decode? reply = some result) : recode? result.encode = some result.encode := by
  rw [recode?, decode?_encode_of_decode? h, Option.map_some]

/-- What is no string has no text. -/
theorem textOf_of_ne_string {v : Value} (h : ∀ text, v ≠ .string text) : textOf v = "" := by
  cases v with
  | string text => exact absurd rfl (h text)
  | _ => rfl

/-- The elements of a reply that spells an array are read one level down. -/
theorem readTree?_of_isText_array {elements : List Raw} {reply : Bytes}
    (h : (Raw.array elements).IsText reply) : Value.readTree? reply =
      (elements.mapM fun x => Value.ofRaw? 126 x.widen).map .list := by
  rw [Value.readTree?_eq, Raw.read?_eq_some_iff.2 h, Option.bind_some, Raw.widen,
    Raw.widenElements_eq_map, Json.maxNesting, Value.ofRaw?]
  simp only [Value.elementsOfRaw?_eq_mapM, List.mapM_map]
  rfl

theorem ne_nil_of_isText {x : Raw} {reply : Bytes} (h : x.IsText reply) : reply ≠ [] := by
  rintro rfl
  have hread := Raw.read?_eq_some_iff.2 h
  cases hread

/-- A list of one value is a success. -/
theorem decode?_of_isText_ok {x : Raw} {reply : Bytes} (h : (Raw.array [x]).IsText reply) :
    decode? reply = (Value.ofRaw? 126 x.widen).map .ok := by
  rw [decode?_of_ne_nil (ne_nil_of_isText h), readTree?_of_isText_array h]
  simp only [List.mapM_cons, List.mapM_nil]
  cases Value.ofRaw? 126 x.widen <;> rfl

/-- A list of three values is a failure, whatever the first two are. -/
theorem decode?_of_isText_err {code message details : Raw} {reply : Bytes}
    (h : (Raw.array [code, message, details]).IsText reply) {c m d : Value}
    (hc : Value.ofRaw? 126 code.widen = some c) (hm : Value.ofRaw? 126 message.widen = some m)
    (hd : Value.ofRaw? 126 details.widen = some d) :
    decode? reply = some (.err (textOf c) (textOf m) d) := by
  rw [decode?_of_ne_nil (ne_nil_of_isText h), readTree?_of_isText_array h]
  simp only [List.mapM_cons, hc, hm, hd, List.mapM_nil]
  rfl

end CallResult

/-- Above the 64-bit range an integer is read as the floating-point number that its
    literal spells. -/
theorem Value.ofLiteral?_widen_of_greatestInt_lt {l : Literal} {n : ℤ} (hn : l.integer? = some n)
    (hgreat : greatestInt < n) : ofLiteral? l.widen = l.toFloat?.map .float := by
  by_cases hrange : n ≤ Json.greatestInteger
  · have hlt : n.natAbs < 2 ^ 64 := by
      simp only [greatestInt, Json.greatestInteger] at hgreat hrange
      omega
    have hpos : n ≠ 0 := by
      simp only [greatestInt] at hgreat
      omega
    obtain ⟨x, hx⟩ := Binary64.exists_ofRatio?_of_lt (n < 0) hlt
    rw [ofLiteral?_widen_of_integer? hn hgreat hrange, Literal.toFloat?_of_integer? hn hpos, hx,
      Binary64.ofInt, hx]
    rfl
  · have hfloat : Json.ofLiteral? l = l.toFloat?.map .float := by
      rw [Json.ofLiteral?, hn]
      exact if_neg fun hfits => hrange hfits.2.1
    rw [ofLiteral?_widen, hfloat, Option.map_map]
    rfl

/-- What was read is written and read again without any change:

    * the argument of a call that a message holds is normal and nested at most 126
      deep, and the call is read back from the message that is written for it;
    * so writing what a message holds, and then what that message holds, gives the same
      message as writing it once;
    * two messages for which the same message is written hold the same call;
    * the first two hold of replies and their results;
    * the code and the message of a failure may be any values, and have no text unless
      they are strings;
    * an integer above the 64-bit range is read as a floating-point number. -/
theorem recoding_stable :
    (∀ message call, MethodCall.decode? message = some call →
      call.args.Normal ∧ call.args.depth ≤ 126 ∧ MethodCall.decode? call.encode = some call) ∧
    (∀ message out, MethodCall.recode? message = some out →
      MethodCall.recode? out = some out) ∧
    (∀ message other out, MethodCall.recode? message = some out →
      MethodCall.recode? other = some out → MethodCall.decode? message = MethodCall.decode? other) ∧
    (∀ reply result, CallResult.decode? reply = some result →
      result.Normal ∧ result.depth ≤ 126 ∧ CallResult.decode? result.encode = some result) ∧
    (∀ reply out, CallResult.recode? reply = some out → CallResult.recode? out = some out) ∧
    (∀ code message details reply c m d, (Raw.array [code, message, details]).IsText reply →
      Value.ofRaw? 126 code.widen = some c → Value.ofRaw? 126 message.widen = some m →
      Value.ofRaw? 126 details.widen = some d →
      CallResult.decode? reply = some (.err (CallResult.textOf c) (CallResult.textOf m) d)) ∧
    (∀ v : Value, (∀ text, v ≠ .string text) → CallResult.textOf v = "") ∧
    ∀ (l : Literal) (n : ℤ) reply, l.integer? = some n → Value.greatestInt < n →
      (Raw.array [.number l]).IsText reply →
      CallResult.decode? reply = l.toFloat?.map fun x => .ok (.float x) := by
  refine ⟨?_, ?_, ?_, ?_, ?_, ?_, ?_, ?_⟩
  · intro message call h
    obtain ⟨hnormal, hdepth⟩ := MethodCall.normal_of_decode? h
    exact ⟨hnormal, hdepth, MethodCall.decode?_encode_of_decode? h⟩
  · intro message out h
    obtain ⟨call, hcall, rfl⟩ := Option.map_eq_some_iff.1 h
    exact MethodCall.recode?_encode_of_decode? hcall
  · intro message other out h hother
    obtain ⟨call, hcall, rfl⟩ := Option.map_eq_some_iff.1 h
    obtain ⟨call', hcall', heq⟩ := Option.map_eq_some_iff.1 hother
    -- both calls are read back from the one message
    rw [hcall, hcall', ← MethodCall.decode?_encode_of_decode? hcall,
      ← MethodCall.decode?_encode_of_decode? hcall', heq]
  · intro reply result h
    obtain ⟨hnormal, hdepth⟩ := CallResult.normal_of_decode? h
    exact ⟨hnormal, hdepth, CallResult.decode?_encode_of_decode? h⟩
  · intro reply out h
    obtain ⟨result, hresult, rfl⟩ := Option.map_eq_some_iff.1 h
    exact CallResult.recode?_encode_of_decode? hresult
  · intro code message details reply c m d h hc hm hd
    exact CallResult.decode?_of_isText_err h hc hm hd
  · intro v h
    exact CallResult.textOf_of_ne_string h
  · intro l n reply hn hgreat h
    have hread : Value.ofRaw? 126 (Raw.number l).widen = l.toFloat?.map .float :=
      Value.ofLiteral?_widen_of_greatestInt_lt hn hgreat
    rw [CallResult.decode?_of_isText_ok h, hread, Option.map_map]
    rfl

/-- A call that is spelled as an array, with blanks, escapes and a repeated key, and a
    failure with a number for its code. -/
theorem recoding_stable_odd :
    let message := Utf8.encode "[\"m\", \x7b\"b\":1, \"a\":[1.50,-0], \"b\":\"\\u0041\"\x7d]"
    let out := Utf8.encode
      "\x7b\"args\":\x7b\"a\":[1.5,-0.0],\"b\":\"A\"\x7d,\"method\":\"m\"\x7d"
    let reply := Utf8.encode "[7, null, 9223372036854775808]"
    let outReply := Utf8.encode "[\"\",\"\",9.223372036854776e+18]"
    (MethodCall.recode? message = some out ∧ MethodCall.recode? out = some out) ∧
      CallResult.recode? reply = some outReply ∧ CallResult.recode? outReply = some outReply := by
  intro message out reply outReply
  have hmessage : MethodCall.recode? message = some out := by decide +kernel
  have hreply : CallResult.recode? reply = some outReply := by decide +kernel
  exact ⟨⟨hmessage, recoding_stable.2.1 _ _ hmessage⟩, hreply,
    recoding_stable.2.2.2.2.1 _ _ hreply⟩

end HostBridge
