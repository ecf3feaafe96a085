import HostBridge.Proofs.Platform.Answers
import HostBridge.Proofs.Platform.StyleArguments
import HostBridge.Proofs.Platform.Window
import HostBridge.Proofs.Typed.Places

/-!
# The entry in the list of recent applications

An application describes itself by a label and a color. Both may be left open, and both are
given under their keys or at their places.

* `Switcher.Describes`: what the arguments say, if they say something
  (`Switcher.as_eq_ok_iff`). A color that is given by an integer is fully opaque, unless its
  low 32 bits are zero (`Switcher.colors_iff`).
* `Switcher.Outcome`: what a description comes to at a level of the platform, one rule for
  each band of levels (`Capabilities.taskDescription_bands`). It is the same for a call
  (`Switcher.outcome_handle`) and for a message (`Plugin.outcome_receive`).
* `Plugin.described_run`: the platform is given the descriptions that were asked for, and no
  others.
* `PluginRun.application_described`: the descriptions of a plugin, whatever has happened to it.
-/

namespace HostBridge

/-- The levels of the platform fall into three bands, by the form of a description. -/
theorem Capabilities.taskDescription_bands (level : Nat) :
    (level ≤ 21 ∧ (ofLevel level).taskDescription = .unsupported) ∨
      (22 ≤ level ∧ level ≤ 27 ∧ (ofLevel level).taskDescription = .legacy) ∨
      28 ≤ level ∧ (ofLevel level).taskDescription = .current := by
  by_cases hcurrent : 28 ≤ level
  · exact .inr (.inr ⟨hcurrent, if_pos hcurrent⟩)
  · by_cases hlegacy : 21 < level
    · exact .inr (.inl ⟨hlegacy, by omega, (if_neg hcurrent).trans (if_pos hlegacy)⟩)
    · exact .inl ⟨by omega, (if_neg hcurrent).trans (if_neg hlegacy)⟩

/-! ## What the arguments say -/

/-- The arguments for the label and for the color: under their keys in a map, at their places
    in a list that goes no further. -/
inductive SwitcherArgs.Given : Value → Option Value → Option Value → Prop
  | map (writes : List (String × Value)) : Given (.map writes)
      ((Value.map writes).get? "label") ((Value.map writes).get? "primaryColor")
  | list (elements : List Value) (short : elements.length ≤ 2) :
      Given (.list elements) elements[0]? elements[1]?

namespace Switcher

/-- The label, given its argument or none. -/
inductive Labels : Option Value → String → Prop
  | absent : Labels none ""
  | said (text : String) : Labels (some (.string text)) text

/-- The color, given its argument or none. -/
inductive Colors : Option Value → Color → Prop
  | absent : Colors none 0
  | null {v : Value} (h : v.finite = .null) : Colors (some v) 0
  /-- The low 32 bits are zero. -/
  | clear {n : Int64} (h : n.toInt % 0x100000000 = 0) : Colors (some (.int n)) 0
  /-- Full opacity, and the low 24 bits. -/
  | solid {n : Int64} {c : Color} (h : n.toInt % 0x100000000 ≠ 0)
      (alpha : c.toNat / 0x1000000 = 0xFF)
      (rgb : ((c.toNat % 0x1000000 : Nat) : Int) = n.toInt % 0x1000000) :
      Colors (some (.int n)) c

/-- The arguments describe the application so. -/
def Describes (args : Value) (s : Switcher) : Prop :=
  ∃ label color, SwitcherArgs.Given args label color ∧ Labels label s.label ∧ Colors color s.color

/-! ## Colors -/

/-- Full opacity takes the place of the high eight of 32 bits. -/
theorem or_alpha {x : Nat} (h : x < 0x100000000) :
    x ||| 0xFF000000 = 0xFF000000 + x % 0x1000000 := by
  have hlow : (x ||| 0xFF000000) % 0x1000000 = x % 0x1000000 := by
    simpa using @Nat.or_mod_two_pow x 0xFF000000 24
  have hhigh : (x ||| 0xFF000000) / 0x1000000 = x / 0x1000000 ||| 0xFF := by
    simpa using @Nat.or_div_two_pow x 0xFF000000 24
  have hfull : ∀ y < 0x100, y ||| 0xFF = 0xFF := by decide +kernel
  rw [hfull (x / 0x1000000) (by omega)] at hhigh
  omega

theorem opaqueColor_of_clear {n : Int64} (h : n.toInt % 0x100000000 = 0) : opaqueColor n = 0 := by
  have hzero : UInt32.ofInt n.toInt = 0 := by
    rw [← UInt32.toNat_inj, ← Int.ofNat_inj, SettingKind.toNat_ofInt, h]
    rfl
  rw [opaqueColor, if_pos hzero]

/-- Where not all of the low 32 bits are zero, the low 24 of them are kept. -/
theorem toNat_opaqueColor {n : Int64} (h : n.toInt % 0x100000000 ≠ 0) :
    ((opaqueColor n).toNat : Int) = 0xFF000000 + n.toInt % 0x1000000 := by
  have hbits := SettingKind.toNat_ofInt n.toInt
  have hne : UInt32.ofInt n.toInt ≠ 0 := by
    intro hzero
    rw [hzero] at hbits
    exact h hbits.symm
  have hnat : (opaqueColor n).toNat = 0xFF000000 + (UInt32.ofInt n.toInt).toNat % 0x1000000 := by
    rw [opaqueColor, if_neg hne, UInt32.toNat_or]
    exact or_alpha (UInt32.toNat_lt _)
  omega

theorem colors_opaqueColor (n : Int64) : Colors (some (.int n)) (opaqueColor n) := by
  by_cases h : n.toInt % 0x100000000 = 0
  · rw [opaqueColor_of_clear h]
    exact .clear h
  · have hcolor := toNat_opaqueColor h
    exact .solid h (by omega) (by omega)

theorem optional_int_toJson (n : Int64) :
    Reader.optional Reader.int (Value.int n).toJson = .ok (some n) := by
  have hrange : Value.leastInt ≤ n.toInt ∧ n.toInt ≤ Value.greatestInt :=
    ⟨Value.leastInt_le_toInt n, Value.toInt_le_greatestInt n⟩
  rw [Value.toJson, Reader.optional_of_ne_null (by simp), Reader.int, if_pos hrange,
    Int64.ofInt_toInt]
  rfl

/-- Only null and integers are read as a number that may be null. -/
theorem null_or_int_of_optional {v : Value} {o : Option Int64}
    (h : Reader.optional Reader.int v.toJson = .ok o) :
    (v.finite = .null ∧ o = none) ∨ ∃ n, v = .int n ∧ o = some n := by
  by_cases hnull : v.toJson = .null
  · rw [hnull] at h
    exact .inl ⟨Value.toJson_eq_null_iff.1 hnull, (Except.ok.inj h).symm⟩
  · rw [Reader.optional_of_ne_null hnull] at h
    obtain ⟨n, hn, rfl⟩ := exists_of_map_eq_ok h
    exact .inr ⟨n, Value.toJson_eq_integer_iff.1 (Reader.int_eq_ok hn), rfl⟩

/-- The color is the one of the number that is read from the argument. -/
theorem colors_iff {arg : Option Value} {c : Color} : Colors arg c ↔
    ∃ o, (Reader.optional Reader.int).Fills none (arg.map Value.toJson) o ∧
      opaqueColor (o.getD 0) = c := by
  constructor
  · intro h
    cases h with
    | absent => exact ⟨none, .missing, rfl⟩
    | null h =>
      refine ⟨none, .given ?_, rfl⟩
      rw [Value.toJson_eq_null_of_finite h]
      rfl
    | @clear n h => exact ⟨some n, .given (optional_int_toJson n), opaqueColor_of_clear h⟩
    | @solid n c h alpha rgb =>
      refine ⟨some n, .given (optional_int_toJson n), ?_⟩
      have hcolor := toNat_opaqueColor h
      rw [← UInt32.toNat_inj, Option.getD_some]
      omega
  · rintro ⟨o, hfills, rfl⟩
    rcases arg with _ | v
    · cases hfills
      exact .absent
    · cases hfills with
      | given h =>
        obtain ⟨hnull, rfl⟩ | ⟨n, rfl, rfl⟩ := null_or_int_of_optional h
        · exact .null hnull
        · exact colors_opaqueColor n

/-- A color is zero or fully opaque. -/
theorem Colors.zero_or_opaque {arg : Option Value} {c : Color} (h : Colors arg c) :
    c = 0 ∨ c.toNat / 0x1000000 = 0xFF := by
  cases h with
  | solid _ alpha => exact .inr alpha
  | _ => exact .inl rfl

theorem labels_iff {arg : Option Value} {text : String} :
    Labels arg text ↔ Reader.string.Fills "" (arg.map Value.toJson) text := by
  constructor
  · intro h
    cases h with
    | absent => exact .missing
    | said => exact .given rfl
  · intro h
    rcases arg with _ | v
    · cases h
      exact .absent
    · cases h with
      | given h =>
        obtain rfl := Value.toJson_eq_string_iff.1 (Reader.string_eq_ok h)
        exact .said text

end Switcher

/-! ## Reading a description -/

namespace SwitcherArgs

variable {args : SwitcherArgs}

/-- There are two fields. -/
theorem forall_fields {P : Field SwitcherArgs → Prop}
    (label : P (.optional "label" .string fun v a => { a with label := v }))
    (color : P (.optional "primaryColor" (.optional .int) fun v a => { a with color := v })) :
    ∀ field ∈ record.fields, P field :=
  List.forall_mem_cons.2 ⟨label, List.forall_mem_singleton.2 color⟩

theorem seenBy_label :
    record.SeenBy (fun a => some a.label) (fun x => (Reader.string x).toOption) "label" where
  exists_field := ⟨_, List.mem_cons_self, rfl⟩
  shows := forall_fields (fun _ => Field.shows_part fun _ _ => rfl) (by simp [Field.optional])
  hides := forall_fields (by simp [Field.optional]) fun _ => Field.hides_optional fun _ _ => rfl

theorem seenBy_color : record.SeenBy (fun a => some a.color)
    (fun x => (Reader.optional Reader.int x).toOption) "primaryColor" where
  exists_field := ⟨_, List.mem_cons_of_mem _ List.mem_cons_self, rfl⟩
  shows := forall_fields (by simp [Field.optional]) fun _ => Field.shows_part fun _ _ => rfl
  hides := forall_fields (fun _ => Field.hides_optional fun _ _ => rfl) (by simp [Field.optional])

theorem required_eq_false : ∀ field ∈ record.fields, field.required = false :=
  forall_fields rfl rfl

/-- Members of different names are read as what fills the two fields. -/
theorem readMembers_eq_ok_iff {members : List (String × Json)}
    (hkeys : (members.map (·.1)).Nodup) :
    record.readMembers record.blank members = .ok args ↔
      Reader.string.Fills "" (Entries.last? "label" members) args.label ∧
      (Reader.optional Reader.int).Fills none (Entries.last? "primaryColor" members)
        args.color := by
  constructor
  · intro h
    exact ⟨Record.fills_of_readMembers seenBy_label h, Record.fills_of_readMembers seenBy_color h⟩
  · rintro ⟨hlabel, hcolor⟩
    obtain ⟨read, hread⟩ : ∃ read, record.readMembers record.blank members = .ok read :=
      (Record.exists_readMembers_iff_fields separate_record.names hkeys).2
        (forall_fields (fun _ => hlabel.exists_read) fun _ => hcolor.exists_read)
    have hsame : read = args := by
      obtain ⟨label, color⟩ := args
      obtain ⟨label', color'⟩ := read
      obtain rfl : label' = label := (Record.fills_of_readMembers seenBy_label hread).unique hlabel
      obtain rfl : color' = color := (Record.fills_of_readMembers seenBy_color hread).unique hcolor
      rfl
    rw [hread, hsame]

theorem as_map_eq_ok_iff {writes : List (String × Value)} :
    (Value.map writes).as record.read = .ok args ↔
      Reader.string.Fills "" ((Entries.last? "label" writes).map Value.toJson) args.label ∧
      (Reader.optional Reader.int).Fills none
        ((Entries.last? "primaryColor" writes).map Value.toJson) args.color := by
  rw [Value.as, Value.toJson_map, Record.read,
    Record.ofMembers_of_optional required_eq_false,
    readMembers_eq_ok_iff (Entries.ascending_settle _).nodup, Entries.last?_settle,
    Entries.last?_settle, Entries.last?_mapValues, Entries.last?_mapValues]

theorem as_list_eq_ok_iff {elements : List Value} :
    (Value.list elements).as record.read = .ok args ↔ elements.length ≤ 2 ∧
      Reader.string.Fills "" (elements[0]?.map Value.toJson) args.label ∧
      (Reader.optional Reader.int).Fills none (elements[1]?.map Value.toJson) args.color := by
  have hnames : (record.fields.map (·.name)).Nodup := separate_record.names
  have hlabel : (record.fields.map (·.name))[0]? = some "label" := rfl
  have hcolor : (record.fields.map (·.name))[1]? = some "primaryColor" := rfl
  have hkeys :
      (((record.fields.map (·.name)).zip (elements.map Value.toJson)).map (·.1)).Nodup := by
    rw [Entries.map_fst_zip_eq_take]
    exact hnames.sublist (List.take_sublist _ _)
  rw [Value.as, Value.toJson_list, Record.read, Record.ofElements,
    Record.readElements_eq_ok_iff fun _ => Record.find?_name hnames, readMembers_eq_ok_iff hkeys,
    Entries.last?_zip hnames _ hlabel, Entries.last?_zip hnames _ hcolor, List.getElem?_map,
    List.getElem?_map, List.length_map]
  refine and_congr_right fun _ => and_iff_left fun field hfield => ?_
  exact required_eq_false field (List.mem_of_mem_drop hfield)

/-- What is read fills the two fields with the arguments for them. -/
theorem as_eq_ok_iff {v : Value} : v.as record.read = .ok args ↔ ∃ label color,
    Given v label color ∧ Reader.string.Fills "" (label.map Value.toJson) args.label ∧
      (Reader.optional Reader.int).Fills none (color.map Value.toJson) args.color := by
  constructor
  · intro h
    cases v with
    | map writes => exact ⟨_, _, .map writes, as_map_eq_ok_iff.1 h⟩
    | list elements =>
      obtain ⟨short, hfills⟩ := as_list_eq_ok_iff.1 h
      exact ⟨_, _, .list elements short, hfills⟩
    | float x =>
      rw [Value.as, Value.toJson] at h
      split at h <;> exact absurd h (by simp [Record.read, Reader.mismatch])
    | _ => exact absurd h (by simp [Value.as, Value.toJson, Record.read, Reader.mismatch])
  · rintro ⟨label, color, hgiven, hfills⟩
    cases hgiven with
    | map writes => exact as_map_eq_ok_iff.2 hfills
    | list elements short => exact as_list_eq_ok_iff.2 ⟨short, hfills⟩

end SwitcherArgs

namespace Switcher

variable {args : Value} {s t : Switcher}

/-- A description is read as what the arguments say. -/
theorem as_eq_ok_iff : args.as read = .ok s ↔ Describes args s := by
  constructor
  · intro h
    obtain ⟨given, hgiven, rfl⟩ := exists_of_map_eq_ok h
    obtain ⟨label, color, hplaces, hlabel, hcolor⟩ := SwitcherArgs.as_eq_ok_iff.1 hgiven
    exact ⟨label, color, hplaces, labels_iff.2 hlabel, colors_iff.2 ⟨_, hcolor, rfl⟩⟩
  · rintro ⟨label, color, hplaces, hlabel, hcolor⟩
    obtain ⟨o, hfills, hopaque⟩ := colors_iff.1 hcolor
    have hgiven : args.as SwitcherArgs.record.read = .ok ⟨s.label, o⟩ :=
      SwitcherArgs.as_eq_ok_iff.2 ⟨label, color, hplaces, labels_iff.1 hlabel, hfills⟩
    exact map_eq_ok_iff.2 ⟨_, hgiven, congrArg (Switcher.mk s.label) hopaque⟩

theorem Describes.unique (hs : Describes args s) (ht : Describes args t) : s = t :=
  Except.ok.inj ((as_eq_ok_iff.2 hs).symm.trans (as_eq_ok_iff.2 ht))

/-- Arguments with the same tree say the same. -/
theorem describes_congr {other : Value} (h : args.toJson = other.toJson) :
    Describes args s ↔ Describes other s := by
  rw [← as_eq_ok_iff, ← as_eq_ok_iff, Value.as, Value.as, h]

/-! ## What a description comes to -/

/-- The method by which an application describes itself. -/
def method : String := "SystemChrome.setApplicationSwitcherDescription"

/-- What a description comes to at a level of the platform: what is done, and the result. -/
inductive Outcome (level : Nat) (args : Value) : List Effect → CallResult → Prop
  /-- The arguments describe nothing. The platform hears nothing of this. -/
  | refused (logs : List String) (e : ValueError) (h : ∀ s, ¬Describes args s) :
      Outcome level args (logs.map .fail)
        (.err "" ("failed to deserialize value: " ++ e.message) .null)
  | unsupported {s : Switcher} (h : Describes args s) (high : level ≤ 21) :
      Outcome level args [] (.ok .null)
  | legacy {s : Switcher} (h : Describes args s) (low : 22 ≤ level) (high : level ≤ 27) :
      Outcome level args [.host (.describeTask (.legacy s.label s.color))] (.ok .null)
  | current {s : Switcher} (h : Describes args s) (low : 28 ≤ level) :
      Outcome level args [.host (.describeTask (.current s.label 0 s.color))] (.ok .null)

theorem Outcome.congr {level : Nat} {other : Value} {effects : List Effect} {result : CallResult}
    (htree : args.toJson = other.toJson) (h : Outcome level args effects result) :
    Outcome level other effects result := by
  cases h with
  | refused logs e h => exact .refused logs e fun s hs => h s ((describes_congr htree).2 hs)
  | unsupported h high => exact .unsupported ((describes_congr htree).1 h) high
  | legacy h low high => exact .legacy ((describes_congr htree).1 h) low high
  | current h low => exact .current ((describes_congr htree).1 h) low

/-- A description that can be read is given to the platform in the form of its level. -/
theorem outcome_of_describes {c : Controller} {level : Nat} (hc : c.capabilities = .ofLevel level)
    (h : Describes args s) (env : Surroundings) :
    Outcome level args (c.perform env (.describe s)).2.1 (.ok .null) := by
  rw [Controller.perform, hc]
  obtain ⟨high, hapi⟩ | ⟨low, high, hapi⟩ | ⟨low, hapi⟩ :=
    Capabilities.taskDescription_bands level <;> rw [hapi]
  · exact .unsupported h high
  · exact .legacy h low high
  · exact .current h low

/-- The call is a request for what the arguments describe, or it is refused. -/
theorem describes_or_refused (args : Value) :
    (∃ s, Describes args s ∧ Request.ofCall? ⟨method, args⟩ = .ok (.describe s)) ∨
      ∃ e, (∀ s, ¬Describes args s) ∧ Request.ofCall? ⟨method, args⟩ = .error (.value e) := by
  have hcall : Request.ofCall? ⟨method, args⟩ = Request.reading read .describe args := rfl
  rw [hcall, Request.reading]
  rcases hread : args.as read with e | s
  · refine .inr ⟨e, fun s hs => ?_, rfl⟩
    exact absurd (hread.symm.trans (as_eq_ok_iff.2 hs)) (by simp)
  · exact .inl ⟨s, as_eq_ok_iff.1 hread, rfl⟩

/-- What becomes of a description, whatever was asked for before. -/
theorem outcome_handle {c : Controller} {level : Nat} (hc : c.capabilities = .ofLevel level)
    (env : Surroundings) (args : Value) : ∃ effects outcome,
      Plugin.handle env c ⟨method, args⟩ = ((c, effects), outcome) ∧
        Outcome level args effects (.ofOutcome outcome) := by
  obtain ⟨s, hs, hcall⟩ | ⟨e, hnone, hcall⟩ := describes_or_refused args
  · refine ⟨(c.perform env (.describe s)).2.1, .ok .null, ?_, outcome_of_describes hc hs env⟩
    rw [Plugin.handle, hcall]
    rfl
  · refine ⟨[], .error (.value e), ?_, .refused [] e hnone⟩
    rw [Plugin.handle, hcall]

end Switcher

namespace Plugin

variable {p : Plugin} {message : Bytes} {level : Nat}

/-- What becomes of a message that holds a description. -/
theorem outcome_receive (hp : p.attached = true) (hc : p.controller.capabilities = .ofLevel level)
    (env : Surroundings) {args : Value}
    (h : MethodCall.decode? message = some ⟨Switcher.method, args⟩) :
    ∃ effects reply result, p.receive env message = (p, effects, reply) ∧
      CallResult.decode? reply = some result ∧ Switcher.Outcome level args effects result := by
  obtain ⟨s, hs, hcall⟩ | ⟨e, hnone, hcall⟩ := Switcher.describes_or_refused args
  · have hrequest := Request.ofMessage?_eq_some.2 ⟨_, h, hcall⟩
    refine ⟨_, _, .ok .null, receive_of_request hp hrequest env, ?_,
      Switcher.outcome_of_describes hc hs env⟩
    exact (Request.answers_perform env p.controller (.describe s)).decode?_encode
  · exact ⟨_, _, _, receive_of_error h hp hcall env, CallError.decode?_encode_toResult _,
      .refused _ e hnone⟩

/-- What becomes of the message that is written for a description. -/
theorem outcome_receive_encode (hp : p.attached = true)
    (hc : p.controller.capabilities = .ofLevel level) (env : Surroundings) (args : Value) :
    ∃ effects reply result,
      p.receive env (MethodCall.encode ⟨Switcher.method, args⟩) = (p, effects, reply) ∧
        CallResult.decode? reply = some result ∧
        if args.depth ≤ 126 then Switcher.Outcome level args effects result
        else effects = [] ∧ result = .err "" "unspecified error" .null := by
  have hdecode := MethodCall.decode?_encode_eq ⟨Switcher.method, args⟩
  split at hdecode
  · next hdepth =>
    obtain ⟨effects, reply, result, hreceive, hreply, houtcome⟩ := outcome_receive hp hc env hdecode
    refine ⟨effects, reply, result, hreceive, hreply, ?_⟩
    rw [if_pos hdepth]
    -- what is read back has the same tree
    exact houtcome.congr (Value.toJson_finite_canonical args)
  · next hdepth =>
    refine ⟨_, _, _, receive_of_garbled hdecode env,
      CallError.decode?_encode_toResult .unspecified, ?_⟩
    rw [if_neg hdepth]
    exact ⟨rfl, rfl⟩

end Plugin

/-! ## The descriptions of a run -/

/-- The color of a description as it is given to the platform. -/
def TaskDescription.color : TaskDescription → Color
  | .legacy _ color => color
  | .current _ _ color => color

/-- The description that is given to the platform, if one is. -/
def Effect.described? : Effect → Option TaskDescription
  | .host (.describeTask description) => some description
  | _ => none

/-- The description that is asked for, if one is. -/
def Request.switcher? : Request → Option Switcher
  | .describe s => some s
  | _ => none

namespace Request

variable {request : Request}

theorem switcher?_eq_some {s : Switcher} : request.switcher? = some s ↔ request = .describe s := by
  cases request <;> simp [switcher?]

/-- Only a request that describes the application gives the platform a description. -/
theorem Causes.described?_eq_none {effect : Effect} (h : request.Causes effect)
    (hnone : request.switcher? = none) : effect.described? = none := by
  cases h with
  | description switcher => exact absurd hnone (by simp [switcher?])
  | @bars _ call _ isBars => cases call <;> first | rfl | exact absurd isBars Bool.false_ne_true
  | look format looks => cases effect <;> first | rfl | exact absurd looks Bool.false_ne_true
  | _ => rfl

end Request

/-- The platform is given what a request describes, if it supports a form for this. -/
theorem Controller.described_perform (env : Surroundings) (c : Controller) (request : Request) :
    (c.perform env request).2.1.filterMap Effect.described? =
      (request.switcher?.bind
        (TaskDescription.ofSwitcher? c.capabilities.taskDescription)).toList := by
  rcases hswitcher : request.switcher? with _ | s
  · exact List.filterMap_eq_nil_iff.2 fun effect heffect =>
      (causes_perform env c request effect heffect).described?_eq_none hswitcher
  · obtain rfl := Request.switcher?_eq_some.1 hswitcher
    rw [perform, Option.bind_some]
    cases TaskDescription.ofSwitcher? c.capabilities.taskDescription s <;> rfl

namespace Plugin

variable {level : Nat} {requests : List Request} {p : Plugin} {r : HostRecord}

/-- An event gives the platform what it asks to be described, if the platform supports a form
    for this. -/
theorem described_step (hp : p.attached = true) (hc : p.controller.capabilities = .ofLevel level)
    (event : PluginEvent) : (p.step event).2.1.filterMap Effect.described? =
      ((event.request?.bind Request.switcher?).bind
        (TaskDescription.ofSwitcher? (Capabilities.ofLevel level).taskDescription)).toList := by
  cases event with
  | message env message =>
    rw [step, PluginEvent.request?]
    rcases hrequest : Request.ofMessage? message with _ | request
    · obtain ⟨e, logs, hreceive⟩ := receive_of_refused (p := p) (.inr hrequest)
      rw [hreceive]
      exact List.filterMap_eq_nil_iff.2 (List.forall_mem_map.2 fun _ _ => rfl)
    · rw [receive_of_request hp hrequest, ← hc]
      exact Controller.described_perform env p.controller request
  | refresh =>
    -- the bars are restored, as they are on request
    simp only [step, refresh_eq]
    refine List.filterMap_eq_nil_iff.2 (List.forall_mem_map.2 fun call hcall => ?_)
    have hcauses : Request.restoreBars.Causes (.host call) :=
      .bars (.inl rfl) (p.controller.isBars_refreshCalls call hcall)
    exact hcauses.described?_eq_none rfl

/-- A row of events gives the platform the descriptions that are asked for, and no others. -/
theorem described_run (hp : p.attached = true) (h : Follows level requests p.controller r)
    (events : List PluginEvent) :
    ((Trace.run step p events).flatMap fun x => x.2.1).filterMap Effect.described? =
      ((events.filterMap PluginEvent.request?).filterMap Request.switcher?).filterMap
        (TaskDescription.ofSwitcher? (Capabilities.ofLevel level).taskDescription) := by
  induction events generalizing p requests r with
  | nil => rfl
  | cons event events ih =>
    obtain ⟨hattached, hfollows⟩ := follows_step hp h event
    rw [Trace.run, List.flatMap_cons, List.filterMap_append, described_step hp h.capabilities,
      ih hattached hfollows]
    rcases hrequest : event.request? with _ | request
    · rw [List.filterMap_cons_none hrequest]
      rfl
    · rw [List.filterMap_cons_some hrequest, Option.bind_some]
      rcases hswitcher : request.switcher? with _ | s
      · rw [List.filterMap_cons_none hswitcher]
        rfl
      · rw [List.filterMap_cons_some hswitcher, Option.bind_some, List.filterMap_cons]
        cases TaskDescription.ofSwitcher? _ s <;> rfl

end Plugin

theorem TaskDescription.color_of_ofSwitcher? {api : TaskDescriptionApi} {s : Switcher}
    {d : TaskDescription} (h : ofSwitcher? api s = some d) : d.color = s.color := by
  cases api with
  | unsupported => exact absurd h (by simp [ofSwitcher?])
  | legacy | current =>
    obtain rfl := Option.some.inj h
    rfl

/-- What a call asks to be described is what its arguments say. -/
theorem Switcher.describes_of_ofCall? {call : MethodCall} {s : Switcher}
    (h : Request.ofCall? call = .ok (.describe s)) : Describes call.args s := by
  obtain ⟨name, args⟩ := call
  obtain rfl : method = name := Request.method_of_ofCall? h
  obtain ⟨t, ht, hcall⟩ | ⟨e, -, hcall⟩ := describes_or_refused args
  · obtain rfl : t = s := Request.describe.inj (Except.ok.inj (hcall.symm.trans h))
    exact ht
  · exact absurd (hcall.symm.trans h) (by simp)

/-- An event that asks for a description has a color that is zero or fully opaque. -/
theorem PluginEvent.zero_or_opaque {event : PluginEvent} {s : Switcher}
    (h : event.request? = some (.describe s)) : s.color = 0 ∨ s.color.toNat / 0x1000000 = 0xFF := by
  cases event with
  | refresh => exact absurd h (by simp [request?])
  | message env message =>
    obtain ⟨call, -, hcall⟩ := Request.ofMessage?_eq_some.1 h
    obtain ⟨label, color, -, -, hcolor⟩ := Switcher.describes_of_ofCall? hcall
    exact hcolor.zero_or_opaque

namespace PluginRun

/-- Every color that the platform is given is zero or fully opaque. -/
theorem zero_or_opaque (run : PluginRun) {d : TaskDescription}
    (h : .host (.describeTask d) ∈ run.effects) :
    d.color = 0 ∨ d.color.toNat / 0x1000000 = 0xFF := by
  have hrun := Plugin.described_run (p := .start run.level) rfl (.start run.level) run.events
  have hmem : d ∈ run.effects.filterMap Effect.described? := List.mem_filterMap.2 ⟨_, h, rfl⟩
  rw [effects, hrun] at hmem
  obtain ⟨s, hs, hform⟩ := List.mem_filterMap.1 hmem
  obtain ⟨request, hrequest, hswitcher⟩ := List.mem_filterMap.1 hs
  obtain ⟨event, -, hevent⟩ := List.mem_filterMap.1 hrequest
  rw [Request.switcher?_eq_some.1 hswitcher] at hevent
  rw [TaskDescription.color_of_ofSwitcher? hform]
  exact PluginEvent.zero_or_opaque hevent

/-- The descriptions of a plugin, after whatever has happened to it:

    * a call that describes the application, whatever its arguments are, leaves the plugin as
      it is, and comes to what the level of the platform and the arguments say;
    * so does a message that holds such a call, and the message that is written for it, unless
      the arguments are nested too deep;
    * the platform is never given a color that is neither zero nor fully opaque. -/
theorem application_described (run : PluginRun) :
    (∀ env args, ∃ effects outcome,
      Plugin.handle env run.plugin.controller ⟨Switcher.method, args⟩ =
          ((run.plugin.controller, effects), outcome) ∧
        Switcher.Outcome run.level args effects (.ofOutcome outcome)) ∧
    (∀ env message args, MethodCall.decode? message = some ⟨Switcher.method, args⟩ →
      ∃ effects reply result, run.plugin.receive env message = (run.plugin, effects, reply) ∧
        CallResult.decode? reply = some result ∧ Switcher.Outcome run.level args effects result) ∧
    (∀ env args, ∃ effects reply result,
      run.plugin.receive env (MethodCall.encode ⟨Switcher.method, args⟩) =
          (run.plugin, effects, reply) ∧
        CallResult.decode? reply = some result ∧
        if args.depth ≤ 126 then Switcher.Outcome run.level args effects result
        else effects = [] ∧ result = .err "" "unspecified error" .null) ∧
    ∀ d, .host (.describeTask d) ∈ run.effects →
      d.color = 0 ∨ d.color.toNat / 0x1000000 = 0xFF := by
  obtain ⟨hp, h⟩ := Plugin.follows_run (p := .start run.level) rfl (.start run.level) run.events
  change Follows run.level run.requests run.plugin.controller run.window at h
  change run.plugin.attached = true at hp
  exact ⟨Switcher.outcome_handle h.capabilities,
    fun env message args hmessage => Plugin.outcome_receive hp h.capabilities env hmessage,
    Plugin.outcome_receive_encode hp h.capabilities, fun d => run.zero_or_opaque⟩

/-- Of a negative color the low 24 bits are kept, and full opacity is put before them. -/
theorem application_described_negative :
    let env : Surroundings := ⟨none, false, false, .ok none, none, fun _ _ => .ok ()⟩
    let args : Value := .map [("label", .string "a"), ("primaryColor", .int (-4294967295))]
    let message := MethodCall.encode ⟨Switcher.method, args⟩
    let run : PluginRun := ⟨28, []⟩
    let described := Effect.host (.describeTask (.current "a" 0 0xFF000001))
    MethodCall.decode? message = some ⟨Switcher.method, args⟩ ∧
      (∃ reply, run.plugin.receive env message = (run.plugin, [described], reply) ∧
        CallResult.decode? reply = some (.ok .null)) ∧
      described ∈ PluginRun.effects ⟨28, [.message env message]⟩ := by
  intro env args message run described
  have hdecode : MethodCall.decode? message = some ⟨Switcher.method, args⟩ :=
    MethodCall.decode?_encode_eq _
  have hs : Switcher.Describes args ⟨"a", 0xFF000001⟩ :=
    ⟨_, _, .map _, .said "a", .solid (by decide) (by decide) (by decide)⟩
  obtain ⟨-, hmessage, -⟩ := application_described run
  obtain ⟨effects, reply, result, hreceive, hreply, houtcome⟩ := hmessage env message args hdecode
  obtain ⟨rfl, rfl⟩ : effects = [described] ∧ result = .ok .null := by
    cases houtcome with
    | refused _ _ hnone => exact absurd hs (hnone _)
    | unsupported _ high => exact absurd high (by decide)
    | legacy _ _ high => exact absurd high (by decide)
    | current h =>
      obtain rfl := h.unique hs
      exact ⟨rfl, rfl⟩
  have heffects (message : Bytes) : PluginRun.effects ⟨28, [.message env message]⟩ =
      (run.plugin.receive env message).2.1 ++ [] := rfl
  refine ⟨hdecode, ⟨reply, hreceive, hreply⟩, ?_⟩
  rw [heffects message, hreceive]
  exact List.mem_singleton_self _

end PluginRun

end HostBridge
