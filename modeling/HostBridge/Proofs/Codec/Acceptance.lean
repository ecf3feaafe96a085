import HostBridge.Proofs.Codec.Calls
import HostBridge.Proofs.Json.Grammar

/-!
# The messages that are calls

A message spells a call in one of two ways:

* as an object (`MethodCall.HeldBy`). One member is spelled under the key `method` and
  holds a string, and at most one under the key `args` and holds a value. Keys are
  compared as text, after their escapes. Of the other members only the keys are read;
  their values have to be spelled, and that is all;
* as an array (`MethodCall.ListedBy`) of the method and at most one value.

Nothing else is accepted (`MethodCall.decode?_eq_some_iff`). The members under a key
(`MethodCall.valuesUnder`) are the same in any order and whatever other members stand
between them, so neither changes the call (`MethodCall.accepted_messages`).
-/

namespace HostBridge

namespace MethodCall

/-- One member is spelled under the key, and no other. It holds the value. -/
def Sole (key : String) (members : List (List Piece × Raw)) (x : Raw) : Prop :=
  ∃ before name after, members = before ++ (name, x) :: after ∧ Piece.text? name = some key ∧
    ∀ m ∈ before ++ after, Piece.text? m.1 ≠ some key

/-- The members spell the call. -/
structure HeldBy (call : MethodCall) (members : List (List Piece × Raw)) : Prop where
  /-- Every key is text. -/
  named : ∀ m ∈ members, (Piece.text? m.1).isSome
  method : ∃ pieces, Sole methodKey members (.string pieces) ∧
    Piece.text? pieces = some call.method
  args : (∀ m ∈ members, Piece.text? m.1 ≠ some argsKey) ∧ call.args = .null ∨
    ∃ x, Sole argsKey members x ∧ Value.ofRaw? maxNesting x = some call.args

/-- The elements spell the call. -/
inductive ListedBy (call : MethodCall) : List Raw → Prop
  | method {pieces : List Piece} (h : Piece.text? pieces = some call.method)
      (hargs : call.args = .null) : ListedBy call [.string pieces]
  | methodArgs {pieces : List Piece} {x : Raw} (h : Piece.text? pieces = some call.method)
      (hargs : Value.ofRaw? maxNesting x = some call.args) : ListedBy call [.string pieces, x]

/-! ## The members under a key -/

/-- What the members under this key hold, in the order in which they stand. -/
def valuesUnder (key : String) (members : List (List Piece × Raw)) : List Raw :=
  (members.filter fun m => Piece.text? m.1 = some key).map (·.2)

variable {key : String} {members others : List (List Piece × Raw)}

theorem valuesUnder_append :
    valuesUnder key (members ++ others) = valuesUnder key members ++ valuesUnder key others := by
  rw [valuesUnder, List.filter_append, List.map_append, valuesUnder, valuesUnder]

theorem valuesUnder_cons_of_eq {name : List Piece} (h : Piece.text? name = some key) (x : Raw) :
    valuesUnder key ((name, x) :: members) = x :: valuesUnder key members := by
  rw [valuesUnder, List.filter_cons_of_pos (by simpa using h), List.map_cons, valuesUnder]

theorem valuesUnder_cons_of_ne {name : List Piece} (h : Piece.text? name ≠ some key) (x : Raw) :
    valuesUnder key ((name, x) :: members) = valuesUnder key members := by
  rw [valuesUnder, List.filter_cons_of_neg (by simpa using h), valuesUnder]

theorem valuesUnder_eq_nil_iff :
    valuesUnder key members = [] ↔ ∀ m ∈ members, Piece.text? m.1 ≠ some key := by
  rw [valuesUnder, List.map_eq_nil_iff, List.filter_eq_nil_iff]
  simp only [decide_eq_true_eq, ne_eq]

/-- One value is found under a key if and only if one member, and no other, is spelled
    under it. -/
theorem valuesUnder_eq_singleton_iff {x : Raw} :
    valuesUnder key members = [x] ↔ Sole key members x := by
  constructor
  · intro h
    obtain ⟨⟨name, y⟩, hfilter, rfl⟩ := List.map_eq_singleton_iff.1 h
    obtain ⟨before, after, rfl, hbefore, hname, hafter⟩ := List.filter_eq_cons_iff.1 hfilter
    refine ⟨before, name, after, rfl, by simpa using hname, ?_⟩
    intro m hm
    rcases List.mem_append.1 hm with hm | hm
    · simpa using hbefore m hm
    · simpa using List.filter_eq_nil_iff.1 hafter m hm
  · rintro ⟨before, name, after, rfl, hname, hothers⟩
    obtain ⟨hbefore, hafter⟩ := List.forall_mem_append.1 hothers
    rw [valuesUnder_append, valuesUnder_cons_of_eq hname, valuesUnder_eq_nil_iff.2 hbefore,
      valuesUnder_eq_nil_iff.2 hafter, List.nil_append]

theorem valuesUnder_perm (h : members.Perm others) :
    (valuesUnder key members).Perm (valuesUnder key others) :=
  (h.filter _).map _

/-- The only member under a key is found in any order. -/
theorem Sole.perm {x : Raw} (hsole : Sole key members x) (h : members.Perm others) :
    Sole key others x := by
  have hperm : (valuesUnder key others).Perm (valuesUnder key members) :=
    (valuesUnder_perm h).symm
  rw [valuesUnder_eq_singleton_iff.2 hsole] at hperm
  exact valuesUnder_eq_singleton_iff.1 (List.perm_singleton.1 hperm)

/-! ## Objects -/

/-- Every key is text if the members are named. -/
theorem isSome_named?_iff :
    (named? members).isSome ↔ ∀ m ∈ members, (Piece.text? m.1).isSome := by
  induction members with
  | nil => simp [named?]
  | cons m ms ih =>
    rw [named?, List.forall_mem_cons, ← ih]
    cases Piece.text? m.1 <;> cases named? ms <;> simp

/-- The values of a name are those of the members under the key. -/
theorem valuesOf_named? {named : List (String × Raw)} (h : named? members = some named)
    (key : String) : valuesOf key named = valuesUnder key members := by
  induction members generalizing named with
  | nil =>
    obtain rfl : [] = named := Option.some.inj h
    rfl
  | cons m ms ih =>
    rw [named?] at h
    obtain ⟨name, hname, h⟩ := Option.bind_eq_some_iff.1 h
    obtain ⟨rest, hrest, h⟩ := Option.bind_eq_some_iff.1 h
    obtain rfl : (name, m.2) :: rest = named := Option.some.inj h
    by_cases heq : name = key
    · rw [valuesUnder_cons_of_eq (heq ▸ hname), ← ih hrest, valuesOf,
        List.filter_cons_of_pos (by simpa using heq), List.map_cons, valuesOf]
    · rw [valuesUnder_cons_of_ne (by simpa [hname] using heq), ← ih hrest, valuesOf,
        List.filter_cons_of_neg (by simpa using heq), valuesOf]

theorem methodOfRaw?_eq_some_iff {x : Raw} {method : String} :
    methodOfRaw? x = some method ↔
      ∃ pieces, x = .string pieces ∧ Piece.text? pieces = some method := by
  cases x with
  | string pieces => simp [methodOfRaw?]
  | _ => simp [methodOfRaw?]

/-- An object is a call if and only if its members spell it. -/
theorem ofMembers?_eq_some_iff {call : MethodCall} :
    ofMembers? members = some call ↔ call.HeldBy members := by
  constructor
  · intro h
    obtain ⟨named, hnamed, hvalues⟩ := Option.bind_eq_some_iff.1 h
    have hall := isSome_named?_iff.1 (Option.isSome_of_mem hnamed)
    dsimp only at hvalues
    rw [valuesOf_named? hnamed, valuesOf_named? hnamed] at hvalues
    split at hvalues
    case h_2 => cases hvalues
    next x hx =>
    obtain ⟨method, hmethod, hargs⟩ := Option.bind_eq_some_iff.1 hvalues
    obtain ⟨pieces, rfl, htext⟩ := methodOfRaw?_eq_some_iff.1 hmethod
    have hsole := valuesUnder_eq_singleton_iff.1 hx
    split at hargs
    · next hnone =>
      obtain rfl : ⟨method, .null⟩ = call := Option.some.inj hargs
      exact ⟨hall, ⟨pieces, hsole, htext⟩, .inl ⟨valuesUnder_eq_nil_iff.1 hnone, rfl⟩⟩
    · next y hy =>
      obtain ⟨args, hread, hcall⟩ := Option.bind_eq_some_iff.1 hargs
      obtain rfl : ⟨method, args⟩ = call := Option.some.inj hcall
      exact ⟨hall, ⟨pieces, hsole, htext⟩, .inr ⟨y, valuesUnder_eq_singleton_iff.1 hy, hread⟩⟩
    · cases hargs
  · rintro ⟨hnamed, ⟨pieces, hmethod, htext⟩, hargs⟩
    obtain ⟨named, hsome⟩ := Option.isSome_iff_exists.1 (isSome_named?_iff.2 hnamed)
    simp only [ofMembers?, hsome, valuesOf_named? hsome, Option.bind_eq_bind, Option.bind_some,
      valuesUnder_eq_singleton_iff.2 hmethod, methodOfRaw?, htext]
    rcases hargs with ⟨hnone, hnull⟩ | ⟨x, hargs, hread⟩
    · rw [valuesUnder_eq_nil_iff.2 hnone, ← hnull]
      rfl
    · rw [valuesUnder_eq_singleton_iff.2 hargs]
      simp only [hread, Option.bind_some]
      rfl

/-- The order of the members does not matter. -/
theorem HeldBy.perm {call : MethodCall} (hcall : call.HeldBy members) (h : members.Perm others) :
    call.HeldBy others := by
  obtain ⟨hnamed, ⟨pieces, hmethod, htext⟩, hargs⟩ := hcall
  refine ⟨?_, ⟨pieces, hmethod.perm h, htext⟩, ?_⟩
  · intro m hm
    exact hnamed m (h.mem_iff.2 hm)
  · rcases hargs with ⟨hnone, hnull⟩ | ⟨x, hx, hread⟩
    · refine .inl ⟨?_, hnull⟩
      intro m hm
      exact hnone m (h.mem_iff.2 hm)
    · exact .inr ⟨x, hx.perm h, hread⟩

theorem heldBy_perm_iff {call : MethodCall} (h : members.Perm others) :
    call.HeldBy members ↔ call.HeldBy others := by
  constructor
  · intro hcall
    exact hcall.perm h
  · intro hcall
    exact hcall.perm h.symm

/-- The call is known from what is found under the two keys. -/
theorem heldBy_iff {call : MethodCall} : call.HeldBy members ↔
    (∀ m ∈ members, (Piece.text? m.1).isSome) ∧
    (∃ pieces, valuesUnder methodKey members = [.string pieces] ∧
      Piece.text? pieces = some call.method) ∧
    (valuesUnder argsKey members = [] ∧ call.args = .null ∨
      ∃ x, valuesUnder argsKey members = [x] ∧ Value.ofRaw? maxNesting x = some call.args) := by
  simp only [valuesUnder_eq_singleton_iff, valuesUnder_eq_nil_iff]
  constructor
  · rintro ⟨hnamed, hmethod, hargs⟩
    exact ⟨hnamed, hmethod, hargs⟩
  · rintro ⟨hnamed, hmethod, hargs⟩
    exact ⟨hnamed, hmethod, hargs⟩

/-- A member in front does not count if its key is another one. -/
theorem heldBy_cons_iff {call : MethodCall} {name : List Piece} {x : Raw}
    (hname : Piece.text? name = some key) (hmethod : key ≠ methodKey) (hargs : key ≠ argsKey) :
    call.HeldBy ((name, x) :: members) ↔ call.HeldBy members := by
  have hpassed : ∀ known, key ≠ known →
      valuesUnder known ((name, x) :: members) = valuesUnder known members := by
    intro known hne
    exact valuesUnder_cons_of_ne (by simpa [hname] using hne) x
  rw [heldBy_iff, heldBy_iff, hpassed _ hmethod, hpassed _ hargs, List.forall_mem_cons, hname]
  simp only [Option.isSome_some, true_and]

/-! ## Arrays -/

theorem listedBy_singleton_iff {call : MethodCall} {x : Raw} : call.ListedBy [x] ↔
    ∃ pieces, x = .string pieces ∧ Piece.text? pieces = some call.method ∧ call.args = .null := by
  constructor
  · rintro ⟨h, hargs⟩
    exact ⟨_, rfl, h, hargs⟩
  · rintro ⟨pieces, rfl, h, hargs⟩
    exact .method h hargs

theorem listedBy_pair_iff {call : MethodCall} {x y : Raw} : call.ListedBy [x, y] ↔
    ∃ pieces, x = .string pieces ∧ Piece.text? pieces = some call.method ∧
      Value.ofRaw? maxNesting y = some call.args := by
  constructor
  · intro h
    cases h with | methodArgs h hargs => exact ⟨_, rfl, h, hargs⟩
  · rintro ⟨pieces, rfl, h, hargs⟩
    exact .methodArgs h hargs

/-- An array is a call if and only if its elements spell it. -/
theorem ofRaw?_array_eq_some_iff {call : MethodCall} {elements : List Raw} :
    ofRaw? (.array elements) = some call ↔ call.ListedBy elements := by
  constructor
  · intro h
    rcases elements with _ | ⟨x, _ | ⟨y, _ | ⟨z, rest⟩⟩⟩
    · cases h
    · obtain ⟨method, hmethod, heq⟩ := Option.bind_eq_some_iff.1 h
      obtain ⟨pieces, rfl, htext⟩ := methodOfRaw?_eq_some_iff.1 hmethod
      obtain rfl : ⟨method, .null⟩ = call := Option.some.inj heq
      exact .method htext rfl
    · obtain ⟨method, hmethod, hread⟩ := Option.bind_eq_some_iff.1 h
      obtain ⟨pieces, rfl, htext⟩ := methodOfRaw?_eq_some_iff.1 hmethod
      obtain ⟨args, hargs, heq⟩ := Option.bind_eq_some_iff.1 hread
      obtain rfl : ⟨method, args⟩ = call := Option.some.inj heq
      exact .methodArgs htext hargs
    · cases h
  · rintro (⟨htext, hargs⟩ | ⟨htext, hargs⟩)
    · simp only [ofRaw?, methodOfRaw?, htext, Option.bind_eq_bind, Option.bind_some, ← hargs]
      rfl
    · simp only [ofRaw?, methodOfRaw?, htext, hargs, Option.bind_eq_bind, Option.bind_some]
      rfl

/-- A method alone, as an element or as a member. -/
theorem heldBy_method_iff {call : MethodCall} {name : List Piece} {x : Raw}
    (hname : Piece.text? name = some methodKey) :
    call.HeldBy [(name, x)] ↔ call.ListedBy [x] := by
  rw [heldBy_iff, listedBy_singleton_iff, valuesUnder_cons_of_eq hname,
    valuesUnder_cons_of_ne (by rw [hname]; decide)]
  simp [hname, valuesUnder, ← exists_and_right, and_assoc]

/-- A method with its argument, as elements or as members. -/
theorem heldBy_methodArgs_iff {call : MethodCall} {name argsName : List Piece} {x y : Raw}
    (hname : Piece.text? name = some methodKey) (hargsName : Piece.text? argsName = some argsKey) :
    call.HeldBy [(name, x), (argsName, y)] ↔ call.ListedBy [x, y] := by
  rw [heldBy_iff, listedBy_pair_iff, valuesUnder_cons_of_eq hname,
    valuesUnder_cons_of_ne (by rw [hargsName]; decide),
    valuesUnder_cons_of_ne (by rw [hname]; decide), valuesUnder_cons_of_eq hargsName]
  simp [hname, hargsName, valuesUnder, ← exists_and_right, and_assoc]

/-! ## Messages -/

theorem decode?_of_isText {x : Raw} {message : Bytes} (h : x.IsText message) :
    decode? message = ofRaw? x := by
  rw [decode?, Raw.read?_eq_some_iff.2 h, Option.bind_some]

/-- What is no object and no array is no call. -/
theorem shape_of_ofRaw? {x : Raw} {call : MethodCall} (h : ofRaw? x = some call) :
    (∃ members, x = .object members) ∨ ∃ elements, x = .array elements := by
  cases x with
  | array elements => exact .inr ⟨elements, rfl⟩
  | object members => exact .inl ⟨members, rfl⟩
  | _ => cases h

/-- A message is a call if and only if it spells it as an object or as an array. -/
theorem decode?_eq_some_iff {message : Bytes} {call : MethodCall} :
    decode? message = some call ↔
      (∃ members, (Raw.object members).IsText message ∧ call.HeldBy members) ∨
      ∃ elements, (Raw.array elements).IsText message ∧ call.ListedBy elements := by
  constructor
  · intro h
    obtain ⟨x, hread, h⟩ := Option.bind_eq_some_iff.1 h
    have htext := Raw.read?_eq_some_iff.1 hread
    rcases shape_of_ofRaw? h with ⟨members, rfl⟩ | ⟨elements, rfl⟩
    · exact .inl ⟨members, htext, ofMembers?_eq_some_iff.1 h⟩
    · exact .inr ⟨elements, htext, ofRaw?_array_eq_some_iff.1 h⟩
  · rintro (⟨members, htext, h⟩ | ⟨elements, htext, h⟩)
    · rw [decode?_of_isText htext]
      exact ofMembers?_eq_some_iff.2 h
    · rw [decode?_of_isText htext]
      exact ofRaw?_array_eq_some_iff.2 h

/-- What decides whether a message is a call, and which:

    * a message that spells an object is the call that its members spell, and no call
      if they spell none;
    * a message that spells an array is the call that its elements spell, and no call
      if they spell none;
    * no other message is a call;
    * objects with the same members in another order are the same call;
    * a member under another key can be put in anywhere, whatever it holds;
    * an array is the same call as the object with its elements as members. -/
theorem accepted_messages :
    (∀ members message, (Raw.object members).IsText message →
      ∀ call, decode? message = some call ↔ call.HeldBy members) ∧
    (∀ elements message, (Raw.array elements).IsText message →
      ∀ call, decode? message = some call ↔ call.ListedBy elements) ∧
    (∀ message call, decode? message = some call →
      (∃ members, (Raw.object members).IsText message) ∨
        ∃ elements, (Raw.array elements).IsText message) ∧
    (∀ members others message other, members.Perm others → (Raw.object members).IsText message →
      (Raw.object others).IsText other → decode? message = decode? other) ∧
    (∀ before name x after key message other, Piece.text? name = some key → key ≠ "method" →
      key ≠ "args" → (Raw.object (before ++ after)).IsText message →
      (Raw.object (before ++ (name, x) :: after)).IsText other →
      decode? message = decode? other) ∧
    (∀ name x message other, Piece.text? name = some "method" → (Raw.array [x]).IsText message →
      (Raw.object [(name, x)]).IsText other → decode? message = decode? other) ∧
    ∀ name x argsName y message other, Piece.text? name = some "method" →
      Piece.text? argsName = some "args" → (Raw.array [x, y]).IsText message →
      (Raw.object [(name, x), (argsName, y)]).IsText other → decode? message = decode? other := by
  refine ⟨?_, ?_, ?_, ?_, ?_, ?_, ?_⟩
  · intro members message h call
    rw [decode?_of_isText h]
    exact ofMembers?_eq_some_iff
  · intro elements message h call
    rw [decode?_of_isText h]
    exact ofRaw?_array_eq_some_iff
  · intro message call h
    rcases decode?_eq_some_iff.1 h with ⟨members, htext, -⟩ | ⟨elements, htext, -⟩
    · exact .inl ⟨members, htext⟩
    · exact .inr ⟨elements, htext⟩
  · intro members others message other hperm h hother
    rw [decode?_of_isText h, decode?_of_isText hother]
    refine Option.ext fun call => ?_
    exact (ofMembers?_eq_some_iff.trans (heldBy_perm_iff hperm)).trans ofMembers?_eq_some_iff.symm
  · intro before name x after key message other hname hmethod hargs h hother
    -- the member is moved to the front
    have hmiddle : (before ++ (name, x) :: after).Perm ((name, x) :: (before ++ after)) :=
      List.perm_middle
    rw [decode?_of_isText h, decode?_of_isText hother]
    refine Option.ext fun call => ?_
    rw [ofRaw?, ofRaw?, ofMembers?_eq_some_iff, ofMembers?_eq_some_iff, heldBy_perm_iff hmiddle,
      heldBy_cons_iff hname hmethod hargs]
  · intro name x message other hname h hother
    rw [decode?_of_isText h, decode?_of_isText hother]
    refine Option.ext fun call => ?_
    rw [ofRaw?_array_eq_some_iff, ofRaw?, ofMembers?_eq_some_iff, heldBy_method_iff hname]
  · intro name x argsName y message other hname hargsName h hother
    rw [decode?_of_isText h, decode?_of_isText hother]
    refine Option.ext fun call => ?_
    rw [ofRaw?_array_eq_some_iff, ofRaw?, ofMembers?_eq_some_iff,
      heldBy_methodArgs_iff hname hargsName]

/-- A method alone: as an array, as an object, and behind a member whose values would be
    refused anywhere else: a number that is too great and half of a surrogate pair. And a
    method with its argument: as an array, and as an object in both orders. -/
theorem accepted_messages_passed_over :
    let array := Utf8.encode "[\"a\"]"
    let object := Utf8.encode " \x7b\"m\\u0065thod\" : \"a\"\x7d"
    let odd := Utf8.encode "\x7b\"b\":[1e999,\"\\ud800\"],\"m\\u0065thod\":\"a\"\x7d"
    let pair := Utf8.encode "[\"a\",null]"
    let ordered := Utf8.encode "\x7b\"m\\u0065thod\":\"a\",\"args\":null\x7d"
    let swapped := Utf8.encode "\x7b\"args\":null,\"m\\u0065thod\":\"a\"\x7d"
    (decode? array = some ⟨"a", .null⟩ ∧ decode? object = decode? array ∧
      decode? odd = decode? object) ∧
    (decode? pair = some ⟨"a", .null⟩ ∧ decode? ordered = decode? pair ∧
      decode? swapped = decode? ordered) ∧
    (Value.readTree? (Utf8.encode "1e999")).isNone ∧
      (Value.readTree? (Utf8.encode "\"\\ud800\"")).isNone := by
  intro array object odd pair ordered swapped
  let name : List Piece :=
    [.plain 0x6D, .unit 0x65, .plain 0x74, .plain 0x68, .plain 0x6F, .plain 0x64]
  let argsName : List Piece := [.plain 0x61, .plain 0x72, .plain 0x67, .plain 0x73]
  let method : Raw := .string [.plain 0x61]
  let junk : Raw :=
    .array [.number ⟨false, [1], none, some ⟨false, [9, 9, 9]⟩⟩, .string [.unit 0xD800]]
  have hname : Piece.text? name = some "method" := by decide +kernel
  have hargsName : Piece.text? argsName = some "args" := by decide +kernel
  have hkey : Piece.text? [.plain 0x62] = some "b" := by decide +kernel
  have hmethod : Piece.text? [.plain 0x61] = some "a" := by decide +kernel
  have harray : (Raw.array [method]).IsText array := Raw.read?_eq_some_iff.1 rfl
  have hobject : (Raw.object [(name, method)]).IsText object := Raw.read?_eq_some_iff.1 rfl
  have hodd : (Raw.object [([.plain 0x62], junk), (name, method)]).IsText odd :=
    Raw.read?_eq_some_iff.1 rfl
  have hpair : (Raw.array [method, .null]).IsText pair := Raw.read?_eq_some_iff.1 rfl
  have hordered : (Raw.object [(name, method), (argsName, .null)]).IsText ordered :=
    Raw.read?_eq_some_iff.1 rfl
  have hswapped : (Raw.object [(argsName, .null), (name, method)]).IsText swapped :=
    Raw.read?_eq_some_iff.1 rfl
  obtain ⟨-, hlisted, -, hperm, hpassed, halone, hboth⟩ := accepted_messages
  refine ⟨⟨(hlisted _ _ harray _).2 (.method hmethod rfl),
    (halone _ _ _ _ hname harray hobject).symm, ?_⟩,
    ⟨(hlisted _ _ hpair _).2 (.methodArgs hmethod rfl),
      (hboth _ _ _ _ _ _ hname hargsName hpair hordered).symm,
      hperm _ _ _ _ (List.Perm.swap ..) hswapped hordered⟩, by decide +kernel, by decide +kernel⟩
  exact (hpassed [] _ junk _ _ _ _ hkey (by decide) (by decide) hobject hodd).symm

/-- What is passed over may be nested deeper than any value. -/
example : (decode? (Utf8.encode "\x7b\"b\":" ++ List.replicate 200 0x5B ++
    List.replicate 200 0x5D ++ Utf8.encode ",\"method\":\"a\"\x7d")).isSome := by
  decide +kernel

end MethodCall

end HostBridge
