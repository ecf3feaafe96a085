import HostBridge.Proofs.Platform.Refusals
import HostBridge.Proofs.Platform.Styles

/-!
# What is answered to a message

A message is judged in steps: whether it holds a call, whether the plugin still
listens, whether the method is known, and whether the argument reads as what the
method takes (`Request.methods`). The first step that fails decides the answer,
and nothing outside the plugin has a say in this. Only then is the request
carried out, and its answer is a success whatever the surroundings do.

* `Request.map_ofCall?`: a call is read as the table of methods says;
* `Plugin.Judges`: the steps, as rules from calls to results;
* `Plugin.decode?_reply`: the reply to a message holds the result that the rules
  give, whatever text is quoted in it;
* `Plugin.reply_classified`: what replies to messages are like.
-/

namespace HostBridge

namespace Request

/-! ## The methods and their arguments -/

/-- What is wrong with an argument that `read` has to read. -/
def fault? {α : Type} (read : Reader α) (args : Value) : Option ValueError :=
  match args.as read with
  | .ok _ => none
  | .error e => some e

/-- What is wrong with an argument that `read` has to read, unless it is null. -/
def faultUnlessNull? {α : Type} (read : Reader α) (args : Value) : Option ValueError :=
  if args.isNull then none else fault? read args

/-- Nothing is wrong with an argument that nobody looks at. -/
def faultless? (_ : Value) : Option ValueError := none

/-- The names of the methods, each with what may be wrong with its argument. -/
def methods : List (String × (Value → Option ValueError)) :=
  [("SystemSound.play", fault? Sound.read),
    ("HapticFeedback.vibrate", faultUnlessNull? Haptic.choice.read),
    ("SystemChrome.setPreferredOrientations", fault? (Reader.list Orientation.choice.read)),
    ("SystemChrome.setApplicationSwitcherDescription", fault? Switcher.read),
    ("SystemChrome.setEnabledSystemUIOverlays", fault? (Reader.list Overlay.choice.read)),
    ("SystemChrome.setEnabledSystemUIMode", fault? BarsMode.choice.read),
    ("SystemChrome.setSystemUIChangeListener", faultless?),
    ("SystemChrome.restoreSystemUIOverlays", faultless?),
    ("SystemChrome.setSystemUIOverlayStyle", fault? BarsStyle.record.read),
    ("SystemNavigator.pop", faultless?),
    ("Clipboard.getData", faultUnlessNull? ClipFormat.choice.read),
    ("Clipboard.setData", fault? ClipText.record.read),
    ("Clipboard.hasStrings", faultless?)]

/-- A call comes to nothing if the method is unknown or something is wrong with its
    argument. -/
def error? (call : MethodCall) : Option CallError :=
  match methods.lookup call.method with
  | none => some .notImplemented
  | some fault => (fault call.args).map .value

theorem lookup_methods_eq_none_iff {name : String} :
    methods.lookup name = none ↔ name ∉ methods.map (·.1) := by
  rw [List.lookup_eq_none_iff, List.mem_map]
  constructor
  · rintro h ⟨entry, hentry, rfl⟩
    exact absurd (h entry hentry) (by simp)
  · intro h entry hentry
    exact bne_iff_ne.2 fun hname => h ⟨entry, hentry, hname.symm⟩

theorem error?_of_lookup {call : MethodCall} {fault : Value → Option ValueError}
    (h : methods.lookup call.method = some fault) :
    error? call = (fault call.args).map .value := by
  rw [error?, h]

theorem map_reading {α : Type} (read : Reader α) (make : α → Request) (args : Value) :
    (reading read make args).map (fun _ => ()) =
      ((fault? read args).map CallError.value).elim (.ok ()) .error := by
  rw [reading, fault?]
  cases args.as read <;> rfl

theorem map_readingUnlessNull {α : Type} (standard : Request) (read : Reader α)
    (make : α → Request) (args : Value) :
    (if args.isNull then .ok standard else reading read make args).map (fun _ => ()) =
      ((faultUnlessNull? read args).map CallError.value).elim (.ok ()) .error := by
  rw [faultUnlessNull?]
  split
  · rfl
  · exact map_reading read make args

/-- A call is a request if and only if nothing is wrong with it. -/
theorem map_ofCall? (call : MethodCall) :
    (ofCall? call).map (fun _ => ()) = (error? call).elim (.ok ()) .error := by
  rw [ofCall?, error?]
  split
  case h_14 =>
    have hnone : methods.lookup call.method = none := by
      refine List.lookup_eq_none_iff.2 ?_
      simp_all [methods]
    rw [hnone]
    rfl
  all_goals
    rename_i hmethod
    rw [hmethod]
  -- in the table each method has the reader by which its argument is read
  case h_2 => exact map_readingUnlessNull (.vibrate .standard) Haptic.choice.read .vibrate call.args
  case h_11 => exact map_readingUnlessNull (.readClipboard none) ClipFormat.choice.read _ call.args
  case h_7 | h_8 | h_10 | h_13 => rfl
  all_goals exact map_reading _ _ call.args

theorem ofCall?_of_error {call : MethodCall} {e : CallError} (h : error? call = some e) :
    ofCall? call = .error e := by
  have hmap := map_ofCall? call
  rw [h] at hmap
  cases hcall : ofCall? call with
  | ok request => exact absurd hmap (by simp [hcall, Except.map])
  | error e' => simpa [hcall, Except.map] using hmap

theorem exists_ofCall? {call : MethodCall} (h : error? call = none) :
    ∃ request, ofCall? call = .ok request := by
  have hmap := map_ofCall? call
  rw [h] at hmap
  cases hcall : ofCall? call with
  | ok request => exact ⟨request, rfl⟩
  | error e => exact absurd hmap (by simp [hcall, Except.map])

/-! ## Answers to requests -/

/-- The method by which a request is made. -/
def method : Request → String
  | .playSound _ => "SystemSound.play"
  | .vibrate _ => "HapticFeedback.vibrate"
  | .orient _ => "SystemChrome.setPreferredOrientations"
  | .describe _ => "SystemChrome.setApplicationSwitcherDescription"
  | .showOverlays _ => "SystemChrome.setEnabledSystemUIOverlays"
  | .enterMode _ => "SystemChrome.setEnabledSystemUIMode"
  | .watchBars => "SystemChrome.setSystemUIChangeListener"
  | .restoreBars => "SystemChrome.restoreSystemUIOverlays"
  | .styleBars _ => "SystemChrome.setSystemUIOverlayStyle"
  | .leave => "SystemNavigator.pop"
  | .readClipboard _ => "Clipboard.getData"
  | .writeClipboard _ => "Clipboard.setData"
  | .probeClipboard => "Clipboard.hasStrings"

theorem method_of_reading {α : Type} {read : Reader α} {make : α → Request} {args : Value}
    {request : Request} {name : String} (hmake : ∀ a, (make a).method = name)
    (h : reading read make args = .ok request) : request.method = name := by
  obtain ⟨a, -, rfl⟩ := reading_eq_ok h
  exact hmake a

/-- A request is made by its method. -/
theorem method_of_ofCall? {call : MethodCall} {request : Request}
    (h : ofCall? call = .ok request) : request.method = call.method := by
  rw [ofCall?] at h
  split at h
  -- no known method
  case h_14 => exact absurd h (by simp)
  all_goals
    rename_i hmethod
    rw [hmethod]
  -- methods that take null for an argument
  case h_2 | h_11 =>
    split at h
    · rw [← Except.ok.inj h]
      rfl
    · exact method_of_reading (fun _ => rfl) h
  -- methods that do not look at their argument
  case h_7 | h_8 | h_10 | h_13 =>
    rw [← Except.ok.inj h]
    rfl
  all_goals exact method_of_reading (fun _ => rfl) h

/-- The values that may answer a request that is made by a method. -/
inductive Answers : String → Value → Prop
  | nothing {method : String} : method ≠ "Clipboard.hasStrings" → Answers method .null
  | text (text : String) : Answers "Clipboard.getData" (.map [("text", .string text)])
  | presence (value : Bool) : Answers "Clipboard.hasStrings" (.map [("value", .bool value)])

/-- A request is answered with what fits its method. -/
theorem answers_perform (env : Surroundings) (c : Controller) (request : Request) :
    Answers request.method (c.perform env request).2.2 := by
  cases request with
  | readClipboard format =>
    rw [Controller.perform]
    rcases Controller.clipboardText env with ⟨effects, _ | text⟩
    · exact .nothing (by simp [method])
    · exact .text text
  | probeClipboard => exact .presence _
  | _ => exact .nothing (by simp [method])

/-- An answer fits into a reply, and is read from it as it is. -/
theorem Answers.decode?_encode {method : String} {value : Value} (h : Answers method value) :
    CallResult.decode? (CallResult.ok value).encode = some (.ok value) := by
  rw [CallResult.decode?_encode_eq]
  cases h <;> rfl

end Request

namespace CallResult

/-- Only the empty reply says that nobody implements the method. -/
theorem decode?_eq_notImplemented_iff {reply : Bytes} :
    decode? reply = some .notImplemented ↔ reply = [] := by
  refine ⟨fun h => Decidable.byContradiction fun hne => ?_, fun h => h ▸ rfl⟩
  rw [decode?_of_ne_nil hne] at h
  split at h <;> exact absurd h (by simp)

end CallResult

namespace CallError

/-- The reply to an error holds its result, whatever is quoted in its wording. -/
theorem decode?_encode_toResult (e : CallError) :
    CallResult.decode? e.toResult.encode = some e.toResult := by
  rw [CallResult.decode?_encode_eq]
  cases e <;> rfl

end CallError

/-- The clipboard fails to give its text: it is not read, or what its first item
    stands for is not opened. -/
inductive Surroundings.ClipFails (env : Surroundings) : Prop
  | read {e : ClipError} : env.clip = .error e → ClipFails env
  | openUri {clip : Clip} {uri text : String} {e : ClipError} : env.clip = .ok (some clip) →
      clip.items.head? = some (.uri uri text) → env.openUri uri Mime.anyText = .error e →
      ClipFails env

/-- A clipboard that fails gives no text. -/
theorem Controller.clipboardText_of_fails {env : Surroundings} (h : env.ClipFails) :
    (clipboardText env).2 = none := by
  rw [clipboardText]
  split
  · cases h with
    | read hclip => rw [hclip]
    | openUri hclip hitem hopen => simp only [hclip, hitem, itemText, hopen]
  · rfl

namespace Plugin

/-- The steps in which a message is judged, given the call that it holds. The
    surroundings do not appear. -/
inductive Judges (p : Plugin) : Option MethodCall → CallResult → Prop
  /-- The message holds no call. -/
  | garbled : Judges p none (.err "" "unspecified error" .null)
  /-- The plugin does not listen any more. -/
  | unheard {call : MethodCall} : p.attached = false → Judges p (some call) .notImplemented
  /-- The method is unknown. -/
  | unknown {call : MethodCall} : p.attached = true →
      call.method ∉ Request.methods.map (·.1) → Judges p (some call) .notImplemented
  /-- Something is wrong with the argument. -/
  | faulty {call : MethodCall} {fault : Value → Option ValueError} {e : ValueError} :
      p.attached = true → Request.methods.lookup call.method = some fault →
      fault call.args = some e →
      Judges p (some call) (.err "" ("failed to deserialize value: " ++ e.message) .null)
  /-- The request is carried out. -/
  | granted {call : MethodCall} {fault : Value → Option ValueError} {value : Value} :
      p.attached = true → Request.methods.lookup call.method = some fault →
      fault call.args = none → Request.Answers call.method value → Judges p (some call) (.ok value)

variable {env : Surroundings} {p : Plugin} {message : Bytes} {call : MethodCall}

theorem reply_of_garbled (h : MethodCall.decode? message = none) :
    (p.receive env message).2.2 = CallError.unspecified.toResult.encode := by
  rw [receive_of_garbled h]

theorem reply_of_unheard (h : MethodCall.decode? message = some call) (hp : p.attached = false) :
    (p.receive env message).2.2 = CallError.notImplemented.toResult.encode := by
  rw [receive_of_unheard h hp]

theorem reply_of_error {e : CallError} (h : MethodCall.decode? message = some call)
    (hp : p.attached = true) (he : Request.ofCall? call = .error e) :
    (p.receive env message).2.2 = e.toResult.encode := by
  rw [receive_of_error h hp he]

theorem reply_of_request {request : Request} (h : MethodCall.decode? message = some call)
    (hp : p.attached = true) (hrequest : Request.ofCall? call = .ok request) :
    (p.receive env message).2.2 =
      CallResult.encode (.ok (p.controller.perform env request).2.2) := by
  rw [receive_of_request hp (Request.ofMessage?_eq_some.2 ⟨call, h, hrequest⟩)]

/-- The reply to a message holds what the message is judged to be. -/
theorem decode?_reply (env : Surroundings) (p : Plugin) (message : Bytes) :
    ∃ r, CallResult.decode? (p.receive env message).2.2 = some r ∧
      p.Judges (MethodCall.decode? message) r := by
  cases h : MethodCall.decode? message with
  | none =>
    refine ⟨_, ?_, .garbled⟩
    rw [reply_of_garbled h]
    exact CallError.decode?_encode_toResult .unspecified
  | some call =>
    cases hp : p.attached with
    | false =>
      refine ⟨_, ?_, .unheard hp⟩
      rw [reply_of_unheard h hp]
      exact CallError.decode?_encode_toResult .notImplemented
    | true =>
      cases hlookup : Request.methods.lookup call.method with
      | none =>
        have he : Request.error? call = some .notImplemented := by rw [Request.error?, hlookup]
        refine ⟨_, ?_, .unknown hp (Request.lookup_methods_eq_none_iff.1 hlookup)⟩
        rw [reply_of_error h hp (Request.ofCall?_of_error he)]
        exact CallError.decode?_encode_toResult .notImplemented
      | some fault =>
        cases hfault : fault call.args with
        | some e =>
          have he : Request.error? call = some (.value e) := by
            rw [Request.error?_of_lookup hlookup, hfault, Option.map_some]
          refine ⟨_, ?_, .faulty hp hlookup hfault⟩
          rw [reply_of_error h hp (Request.ofCall?_of_error he)]
          exact CallError.decode?_encode_toResult (.value e)
        | none =>
          have he : Request.error? call = none := by
            rw [Request.error?_of_lookup hlookup, hfault, Option.map_none]
          obtain ⟨request, hrequest⟩ := Request.exists_ofCall? he
          have hanswers := Request.answers_perform env p.controller request
          rw [Request.method_of_ofCall? hrequest] at hanswers
          refine ⟨_, ?_, .granted hp hlookup hfault hanswers⟩
          rw [reply_of_request h hp hrequest]
          exact hanswers.decode?_encode

/-- A clipboard that fails is answered for with null. -/
theorem decode?_reply_of_clipFails (hfails : env.ClipFails)
    (h : MethodCall.decode? message = some call) (hp : p.attached = true)
    (hmethod : call.method = "Clipboard.getData") (he : Request.error? call = none) :
    CallResult.decode? (p.receive env message).2.2 = some (.ok .null) := by
  obtain ⟨request, hrequest⟩ := Request.exists_ofCall? he
  have hname := (Request.method_of_ofCall? hrequest).trans hmethod
  rw [reply_of_request h hp hrequest]
  cases request with
  | readClipboard format =>
    have hnone := Controller.clipboardText_of_fails hfails
    rw [Controller.perform]
    simp only [hnone, Option.map_none, Option.getD_none]
    rw [CallResult.decode?_encode_eq]
    rfl
  | _ => exact absurd hname (by simp [Request.method])

/-- What is wrong with an argument is not worded as what is wrong with a message. -/
theorem faulty_ne_garbled (text : String) :
    "failed to deserialize value: " ++ text ≠ "unspecified error" := by
  intro h
  have hfirst := congrArg (fun s => s.toList.head?) h
  simp at hfirst

/-- The answer to a message, in any state of the plugin and in any surroundings:

    * the reply can be read;
    * it holds an unspecified error if and only if the message holds no call, whether
      or not the plugin listens;
    * to a call it is the empty reply, by which nobody implements the method, if and
      only if the plugin does not listen or the method is none of the thirteen;
    * otherwise it holds an error if and only if something is wrong with the argument,
      and the error says exactly what;
    * otherwise it holds a success, with what fits the method;
    * a clipboard that fails is answered for with null, and not with an error. -/
theorem reply_classified (env : Surroundings) (p : Plugin) (message : Bytes) :
    ∃ r, CallResult.decode? (p.receive env message).2.2 = some r ∧
      (r = .err "" "unspecified error" .null ↔ MethodCall.decode? message = none) ∧
      (r = .notImplemented ↔ (p.receive env message).2.2 = []) ∧
      ∀ call, MethodCall.decode? message = some call →
        (r = .notImplemented ↔
          p.attached = false ∨ call.method ∉ Request.methods.map (·.1)) ∧
        (p.attached = true → ∀ fault, Request.methods.lookup call.method = some fault →
          ((∃ code text details, r = .err code text details) ↔ ∃ e, fault call.args = some e) ∧
          (∀ e, fault call.args = some e →
            r = .err "" ("failed to deserialize value: " ++ e.message) .null) ∧
          (fault call.args = none → ∃ value, r = .ok value ∧ Request.Answers call.method value) ∧
          (fault call.args = none → call.method = "Clipboard.getData" → env.ClipFails →
            r = .ok .null)) := by
  obtain ⟨r, hr, hjudged⟩ := decode?_reply env p message
  refine ⟨r, hr, ?_, ?_, ?_⟩
  · generalize MethodCall.decode? message = held at hjudged
    cases hjudged with
    | garbled => simp
    | faulty _ _ _ => simp [faulty_ne_garbled]
    | _ => simp
  · rw [← CallResult.decode?_eq_notImplemented_iff, hr, Option.some_inj]
  · intro call hcall
    rw [hcall] at hjudged
    cases hjudged with
    | unheard hp => simp [hp]
    | unknown hp hunknown =>
      refine ⟨iff_of_true rfl (.inr hunknown), fun _ fault hlookup => ?_⟩
      have hnone := Request.lookup_methods_eq_none_iff.2 hunknown
      exact absurd (hnone.symm.trans hlookup) (by simp)
    | faulty hp hlookup hfault =>
      refine ⟨iff_of_false (by simp) ?_, fun _ fault hlookup' => ?_⟩
      · rw [not_or, ← Request.lookup_methods_eq_none_iff]
        exact ⟨by simp [hp], by simp [hlookup]⟩
      · obtain rfl := Option.some.inj (hlookup.symm.trans hlookup')
        simp [hfault]
    | granted hp hlookup hfault hanswers =>
      refine ⟨iff_of_false (by simp) ?_, fun _ fault hlookup' => ?_⟩
      · rw [not_or, ← Request.lookup_methods_eq_none_iff]
        exact ⟨by simp [hp], by simp [hlookup]⟩
      · obtain rfl := Option.some.inj (hlookup.symm.trans hlookup')
        refine ⟨by simp [hfault], by simp [hfault], fun _ => ⟨_, rfl, hanswers⟩,
          fun _ hmethod hfails => ?_⟩
        have he : Request.error? call = none := by
          rw [Request.error?_of_lookup hlookup, hfault, Option.map_none]
        exact Option.some.inj (hr.symm.trans (decode?_reply_of_clipFails hfails hcall hp hmethod he))

end Plugin

end HostBridge
