import HostBridge.Platform.ClipService
import HostBridge.Proofs.Codec.Calls
import HostBridge.Proofs.Platform.Answers
import HostBridge.Proofs.Platform.HostCalls
import HostBridge.Proofs.Platform.Variants

/-!
# Text survives on the clipboard

One request writes to the clipboard, and it writes its text as it is
(`Controller.written_perform`). What was written stays there until the next such
request, whatever else is asked for (`ClipService.Keeps.step`), and is found by
those who look for it (`ClipService.text_survives`).
-/

namespace HostBridge

/-! ## What is written -/

/-- What an effect writes to the clipboard. -/
def Effect.written? : Effect → Option Clip
  | .writeClip clip => some clip
  | _ => none

/-- The text that a request puts on the clipboard. -/
def Request.written? : Request → Option String
  | .writeClipboard text => some text
  | _ => none

namespace Request

variable {request : Request}

theorem eq_writeClipboard_of_written? {text : String} (h : request.written? = some text) :
    request = .writeClipboard text := by
  cases request <;> simp_all [written?]

/-- Only a request that has a text for the clipboard writes to it. -/
theorem Causes.written?_eq_none {effect : Effect} (h : request.Causes effect)
    (hnone : request.written? = none) : effect.written? = none := by
  cases h with
  | clip text => exact absurd hnone (by simp [written?])
  | look format looks => cases effect <;> first | rfl | exact absurd looks Bool.false_ne_true
  | _ => rfl

end Request

namespace Controller

@[simp] theorem written_map_host (calls : List HostCall) :
    (calls.map Effect.host).filterMap Effect.written? = [] := by
  simp [List.filterMap_map, Function.comp_def, Effect.written?]

@[simp] theorem written_map_fail (logs : List String) :
    (logs.map Effect.fail).filterMap Effect.written? = [] := by
  simp [List.filterMap_map, Function.comp_def, Effect.written?]

/-- A request writes its text to the clipboard, if it has one, and nothing else. -/
theorem written_perform (env : Surroundings) (c : Controller) (request : Request) :
    (c.perform env request).2.1.filterMap Effect.written? =
      (request.written?.map (Clip.plain "text")).toList := by
  rcases hwritten : request.written? with _ | text
  · exact List.filterMap_eq_nil_iff.2 fun effect heffect =>
      (causes_perform env c request effect heffect).written?_eq_none hwritten
  · obtain rfl := Request.eq_writeClipboard_of_written? hwritten
    rfl

end Controller

/-! ## Calls about the clipboard -/

namespace Request

variable {message : Bytes} {call : MethodCall}

/-- The message by which a text is put on the clipboard. -/
theorem ofMessage?_setData (text : String) :
    ofMessage? (MethodCall.encode ⟨"Clipboard.setData", .map [("text", .string text)]⟩) =
      some (.writeClipboard text) := by
  refine ofMessage?_eq_some.2 ⟨⟨"Clipboard.setData", .map [("text", .string text)]⟩, ?_, rfl⟩
  rw [MethodCall.decode?_encode_eq]
  rfl

/-- Messages that ask for the clipboard, whatever they spell. -/
theorem ofMessage?_getData (h : MethodCall.decode? message = some call)
    (hmethod : call.method = "Clipboard.getData")
    (hargs : call.args = .null ∨ call.args.Names "text/plain") :
    ∃ format, ofMessage? message = some (.readClipboard format) := by
  obtain ⟨method, args⟩ := call
  obtain rfl : method = _ := hmethod
  rcases hargs with hargs | hnames
  · obtain rfl : args = _ := hargs
    exact ⟨none, ofMessage?_eq_some.2 ⟨_, h, rfl⟩⟩
  · refine ⟨some .plainText, ofMessage?_eq_some.2 ⟨_, h, ?_⟩⟩
    have hread : args.as ClipFormat.choice.read = .ok .plainText :=
      (ClipFormat.distinct_choice.byName _ _).2 ⟨_, List.mem_singleton_self _, hnames⟩
    have hnull : args.isNull = false := by
      cases hnames with
      | string => rfl
      | key honly =>
        obtain ⟨writes, rfl, -⟩ := honly
        rfl
    simp [ofCall?, reading, hnull, hread]

theorem ofMessage?_hasStrings (h : MethodCall.decode? message = some call)
    (hmethod : call.method = "Clipboard.hasStrings") :
    ofMessage? message = some .probeClipboard := by
  obtain ⟨method, args⟩ := call
  obtain rfl : method = _ := hmethod
  exact ofMessage?_eq_some.2 ⟨_, h, rfl⟩

/-- A text is put on the clipboard by a call of one method, whose argument reads as the
    text. -/
theorem ofCall?_eq_writeClipboard_iff {text : String} :
    ofCall? call = .ok (.writeClipboard text) ↔
      call.method = "Clipboard.setData" ∧ call.args.as ClipText.record.read = .ok ⟨text⟩ := by
  constructor
  · intro h
    have hmethod : call.method = "Clipboard.setData" := (method_of_ofCall? h).symm
    rw [ofCall?, hmethod] at h
    obtain ⟨t, hread, ht⟩ := reading_eq_ok h
    exact ⟨hmethod, by rw [hread, ← Request.writeClipboard.inj ht]⟩
  · rintro ⟨hmethod, hread⟩
    rw [ofCall?, hmethod]
    simp only [reading, hread]

end Request

namespace PluginEvent

/-- The event puts a text on the clipboard: it is a message with a call of the method
    for this, and the argument of the call reads as a text. -/
def SetsClip : PluginEvent → Prop
  | .message _ bytes => ∃ call text, MethodCall.decode? bytes = some call ∧
    call.method = "Clipboard.setData" ∧ call.args.as ClipText.record.read = .ok text
  | .refresh => False

theorem setsClip_iff {event : PluginEvent} :
    event.SetsClip ↔ (event.request?.bind Request.written?).isSome = true := by
  cases event with
  | message env bytes =>
    rw [request?, Option.isSome_iff_exists]
    constructor
    · rintro ⟨call, text, hcall, hset⟩
      rw [Request.ofMessage?_eq_some.2 ⟨call, hcall, Request.ofCall?_eq_writeClipboard_iff.2 hset⟩]
      exact ⟨text.text, rfl⟩
    · rintro ⟨text, hwritten⟩
      obtain ⟨request, hrequest, hwritten⟩ := Option.bind_eq_some_iff.1 hwritten
      obtain ⟨call, hcall, hof⟩ := Request.ofMessage?_eq_some.1 hrequest
      obtain rfl := Request.eq_writeClipboard_of_written? hwritten
      exact ⟨call, _, hcall, Request.ofCall?_eq_writeClipboard_iff.1 hof⟩
  | refresh => exact iff_of_false id Bool.false_ne_true

instance (event : PluginEvent) : Decidable event.SetsClip := decidable_of_iff' _ setsClip_iff

end PluginEvent

/-! ## What is kept -/

namespace ClipService

variable {κ : Type} (service : ClipService κ)

theorem foldl_feel (k : κ) (effects : List Effect) : effects.foldl service.feel k =
    (effects.filterMap Effect.written?).foldl (fun k clip => service.write clip k) k := by
  induction effects generalizing k with
  | nil => rfl
  | cons effect effects ih => cases effect <;> exact ih _

/-- What writes nothing leaves the clipboard as it is. -/
theorem foldl_feel_of_unwritten (k : κ) {effects : List Effect}
    (h : effects.filterMap Effect.written? = []) : effects.foldl service.feel k = k := by
  rw [foldl_feel, h, List.foldl_nil]

/-- The plugin listens, and the clipboard has nothing newer than the text. -/
structure Keeps (text : String) (x : Plugin × κ) : Prop where
  hears : x.1.attached = true
  written : ∃ k, x.2 = service.write (.plain "text" text) k

variable {service} {text : String} {x : Plugin × κ} {env : Surroundings} {message : Bytes}

/-- A request to a plugin that listens is carried out in surroundings with the
    clipboard. -/
theorem step_of_request {request : Request} (hears : x.1.attached = true)
    (h : Request.ofMessage? message = some request) :
    service.step x (.message env message) =
      let performed := x.1.controller.perform (service.surround x.2 env) request
      (({ x.1 with controller := performed.1 }, performed.2.1.foldl service.feel x.2),
        performed.2.1, some (CallResult.encode (.ok performed.2.2))) := by
  rw [step, meet, Plugin.step, Plugin.receive_of_request hears h]

/-- Whatever was there before, the text is kept once it is written. -/
theorem keeps_of_setData (hears : x.1.attached = true) (text : String) :
    service.Keeps text (service.step x (.message env
      (MethodCall.encode ⟨"Clipboard.setData", .map [("text", .string text)]⟩))).1 := by
  rw [step_of_request hears (Request.ofMessage?_setData text)]
  exact ⟨hears, x.2, rfl⟩

/-- An event that does not write to the clipboard leaves the text there. -/
theorem Keeps.step (h : service.Keeps text x) {event : PluginEvent} (hevent : ¬event.SetsClip) :
    service.Keeps text (service.step x event).1 := by
  obtain ⟨hears, k, hk⟩ := h
  cases event with
  | message env message =>
    rcases hrequest : Request.ofMessage? message with _ | request
    · -- a message that is refused is logged at most
      obtain ⟨e, logs, hreceive⟩ := Plugin.receive_of_refused (p := x.1) (.inr hrequest)
      rw [ClipService.step, meet, Plugin.step, hreceive]
      have hnone := Controller.written_map_fail logs
      exact ⟨hears, k, (service.foldl_feel_of_unwritten _ hnone).trans hk⟩
    · have hwrites : request.written? = none := by
        rw [PluginEvent.setsClip_iff, PluginEvent.request?, hrequest] at hevent
        exact Option.not_isSome_iff_eq_none.1 hevent
      have hnone := Controller.written_perform (service.surround x.2 env) x.1.controller request
      rw [hwrites] at hnone
      rw [step_of_request hears hrequest]
      exact ⟨hears, k, (service.foldl_feel_of_unwritten _ hnone).trans hk⟩
  | refresh =>
    exact ⟨hears, k, (service.foldl_feel_of_unwritten _ (Controller.written_map_host _)).trans hk⟩

/-! ## What is found -/

/-- Who asks for the text gets it. -/
theorem Keeps.clipboardText (h : service.Keeps text x) (env : Surroundings) :
    (Controller.clipboardText (service.surround x.2 env)).2 = some text := by
  obtain ⟨-, k, hk⟩ := h
  rw [hk, Controller.clipboardText]
  simp only [surround, service.hasClip_write, service.clip_write, if_true]
  rfl

/-- And who asks only whether there is text is told so. -/
theorem Keeps.clipboardHasText (h : service.Keeps text x) (env : Surroundings) :
    Controller.clipboardHasText (service.surround x.2 env) = true := by
  obtain ⟨-, k, hk⟩ := h
  rw [hk, Controller.clipboardHasText, surround, service.hasClip_write, service.clipTypes_write]
  rfl

variable {call : MethodCall}

/-- A question about the clipboard, as it is answered where the text is kept. -/
theorem Keeps.answer (h : service.Keeps text x) (env : Surroundings)
    (hcall : MethodCall.decode? message = some call) :
    (call.method = "Clipboard.getData" → call.args = .null ∨ call.args = .string "text/plain" →
      (service.step x (.message env message)).2.2 =
        some (CallResult.encode (.ok (.map [("text", .string text)])))) ∧
    (call.method = "Clipboard.hasStrings" → (service.step x (.message env message)).2.2 =
      some (CallResult.encode (.ok (.map [("value", .bool true)])))) := by
  refine ⟨fun hmethod hargs => ?_, fun hmethod => ?_⟩
  · have hnames := hargs.imp_right fun h => h ▸ Value.Names.string "text/plain"
    obtain ⟨format, hrequest⟩ := Request.ofMessage?_getData hcall hmethod hnames
    rw [step_of_request h.hears hrequest]
    simp only [Controller.perform, h.clipboardText env, Option.map_some, Option.getD_some,
      ClipText.write]
  · rw [step_of_request h.hears (Request.ofMessage?_hasStrings hcall hmethod)]
    simp only [Controller.perform, h.clipboardHasText env, ClipPresence.write]

/-- A text that is put on the clipboard is found there unchanged. At a plugin that
    listens, whatever was on the clipboard and in whatever surroundings, after any
    events that do not put another text there:

    * who asks for the text of the clipboard, of any kind or plain, reads the text in
      the reply;
    * who asks whether there is text reads that there is. -/
theorem text_survives (service : ClipService κ) {p : Plugin} (hears : p.attached = true) (k : κ)
    (env : Surroundings) (text : String) (events : List PluginEvent)
    (hevents : ∀ event ∈ events, ¬event.SetsClip) :
    let set : PluginEvent := .message env
      (MethodCall.encode ⟨"Clipboard.setData", .map [("text", .string text)]⟩)
    let last := Trace.final service.step (p, k) (set :: events)
    ∀ env message call, MethodCall.decode? message = some call →
      (call.method = "Clipboard.getData" → call.args = .null ∨ call.args = .string "text/plain" →
        ((service.step last (.message env message)).2.2.bind CallResult.decode?) =
          some (.ok (.map [("text", .string text)]))) ∧
      (call.method = "Clipboard.hasStrings" →
        ((service.step last (.message env message)).2.2.bind CallResult.decode?) =
          some (.ok (.map [("value", .bool true)]))) := by
  intro set last env' message call hcall
  -- the text is kept from the moment it is put there
  have hlast : service.Keeps text last :=
    Trace.final_induction service.step (s := (service.step (p, k) set).1)
      (keeps_of_setData hears text) fun x event hevent h => h.step (hevents event hevent)
  obtain ⟨hget, hhas⟩ := hlast.answer env' hcall
  refine ⟨fun hmethod hargs => ?_, fun hmethod => ?_⟩
  · rw [hget hmethod hargs, Option.bind_some]
    exact (Request.Answers.text text).decode?_encode
  · rw [hhas hmethod, Option.bind_some]
    exact (Request.Answers.presence true).decode?_encode

/-- A text with a quotation mark, a null character and a character beyond sixteen bits,
    among messages that are refused, one of them about the clipboard. -/
theorem text_survives_odd_characters :
    let env : Surroundings := ⟨none, false, false, .ok none, none, fun _ _ => .ok ()⟩
    let call (method : String) (args : Value) : PluginEvent :=
      .message env (MethodCall.encode ⟨method, args⟩)
    let text := "\"\x00😀"
    let last := Trace.final empty.step (.start 30, none)
      [call "Clipboard.setData" (.map [("text", .string text)]),
       call "Clipboard.setData" (.map [("text", .int 5)]),
       call "SystemSound.play" (.string "SystemSoundType.click"), call "unknown" .null,
       .message env [], call "Clipboard.getData" .null, .refresh]
    (empty.step last (call "Clipboard.getData" (.string "text/plain"))).2.2.bind
        CallResult.decode? = some (.ok (.map [("text", .string text)])) ∧
      (empty.step last (call "Clipboard.hasStrings" .null)).2.2.bind CallResult.decode? =
        some (.ok (.map [("value", .bool true)])) := by
  intro env call text last
  have hsurvives := text_survives empty (p := .start 30) rfl none env text
    [call "Clipboard.setData" (.map [("text", .int 5)]),
      call "SystemSound.play" (.string "SystemSoundType.click"), call "unknown" .null,
      .message env [], call "Clipboard.getData" .null, .refresh] (by decide +kernel) env
  have hget : MethodCall.decode? (MethodCall.encode ⟨"Clipboard.getData", .string "text/plain"⟩) =
      some ⟨"Clipboard.getData", .string "text/plain"⟩ := by
    rw [MethodCall.decode?_encode_eq]
    rfl
  have hhas : MethodCall.decode? (MethodCall.encode ⟨"Clipboard.hasStrings", .null⟩) =
      some ⟨"Clipboard.hasStrings", .null⟩ := by
    rw [MethodCall.decode?_encode_eq]
    rfl
  simp only [call, last] at hsurvives ⊢
  exact ⟨(hsurvives _ _ hget).1 rfl (.inr rfl), (hsurvives _ _ hhas).2 rfl⟩

end ClipService

end HostBridge
