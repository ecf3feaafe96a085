import HostBridge.Proofs.Platform.Clipboard
import HostBridge.Proofs.Platform.MimeTypes

/-!
# Questions about the clipboard

Who asks for the text of the clipboard is answered with what a look for it finds; who asks
only whether there is text has nothing read at all.

* `Surroundings.Look.count_readClip`, `Surroundings.Look.opened_eq_nil` and
  `Surroundings.Look.warnings_eq_nil`: how little is done in a look.
* `Surroundings.Holds`, `Surroundings.Meets`: the text that is found, and the error that
  stands in the way of one (`Controller.clipboardText_eq_some_iff`,
  `Controller.warnings_of_meets`).
* `Controller.clipboardHasText_iff`: there is text if a declared type says so.
* `Plugin.clipboard_reads`: what messages about the clipboard come to.
-/

namespace HostBridge

namespace Effect

/-- What an effect opens, and as which type. -/
def opened? : Effect → Option (String × String)
  | .openUri uri type => some (uri, type)
  | _ => none

/-- The warning that an effect logs. -/
def warning? : Effect → Option String
  | .warn text => some text
  | _ => none

@[simp] theorem count_readClip_map_warn (texts : List String) :
    (texts.map warn).count readClip = 0 :=
  List.count_eq_zero.2 (by simp)

@[simp] theorem opened?_comp_warn : opened? ∘ warn = fun _ => none := rfl

@[simp] theorem warning?_comp_warn : warning? ∘ warn = some := rfl

end Effect

namespace Surroundings

variable {env : Surroundings}

/-- The clipboard holds a text: its first item is the text, or an address with the text that
    can be opened as text. -/
inductive Holds (env : Surroundings) (text : String) : Prop
  | text (first : env.FirstItem (.text text))
  | uri {uri : String} (first : env.FirstItem (.uri uri text))
      (opens : env.openUri uri Mime.anyText = .ok ())

/-- An error stands in the way of the text: it comes of reading the clipboard, or of opening
    the address that is its first item. -/
inductive Meets (env : Surroundings) (e : ClipError) : Prop
  | clip (hasClip : env.hasClip = true) (reads : env.clip = .error e)
  | uri {uri text : String} (first : env.FirstItem (.uri uri text))
      (opens : env.openUri uri Mime.anyText = .error e)

namespace Look

variable {effects : List Effect} {found : Option String}

/-- The clipboard is read once if it says that it holds something, and not at all otherwise. -/
theorem count_readClip (h : env.Look effects found) :
    effects.count .readClip = if env.hasClip then 1 else 0 := by
  cases h with
  | empty hasClip => simp [hasClip]
  | unread hasClip => simp [hasClip]
  | other hasClip => simp [hasClip]
  | text first => simp [first.hasClip]
  | opened first => simp [first.hasClip]
  | unopened first => simp [first.hasClip]

/-- Only an address is opened. -/
theorem opened_eq_nil (h : env.Look effects found)
    (hno : ∀ uri text, ¬env.FirstItem (.uri uri text)) : effects.filterMap Effect.opened? = [] := by
  cases h with
  | opened first => exact absurd first (hno _ _)
  | unopened first => exact absurd first (hno _ _)
  | unread => simp [Effect.opened?]
  | _ => rfl

/-- Only that a permission is missing is worth a warning. -/
theorem warnings_eq_nil (h : env.Look effects found)
    (hno : ∀ reason, ¬env.Meets (.permissionDenied reason)) :
    effects.filterMap Effect.warning? = [] := by
  have hsilent : ∀ {e : ClipError}, env.Meets e → e.warning? = none := by
    intro e hmeets
    cases e with
    | permissionDenied reason => exact absurd hmeets (hno reason)
    | notFound => rfl
  cases h with
  | unread hasClip reads => simp [Effect.warning?, hsilent (.clip hasClip reads)]
  | unopened first opens => simp [Effect.warning?, hsilent (.uri first opens)]
  | _ => rfl

/-- A text is found only if there is one. -/
theorem holds {text : String} (h : env.Look effects (some text)) : env.Holds text := by
  cases h with
  | text first => exact .text first
  | opened first opens => exact .uri first opens

end Look

end Surroundings

namespace Controller

variable {env : Surroundings} {uri text : String} {e : ClipError}

/-! ## The text of the clipboard -/

/-- The text that the clipboard holds is found. -/
theorem clipboardText_eq_some_iff : (clipboardText env).2 = some text ↔ env.Holds text := by
  refine ⟨fun h => (h ▸ look_clipboardText env).holds, fun h => ?_⟩
  cases h with
  | text first => rw [clipboardText_of_first first, itemText]
  | uri first opens => rw [clipboardText_of_first first, itemText, opens]

/-- An address is opened once, as text. -/
theorem opened_of_first (h : env.FirstItem (.uri uri text)) :
    (clipboardText env).1.filterMap Effect.opened? = [(uri, Mime.anyText)] := by
  rw [clipboardText_of_first h, itemText]
  rcases env.openUri uri Mime.anyText with e | ⟨⟨⟩⟩ <;>
    simp [List.filterMap_cons, Effect.opened?]

/-- An error that stands in the way is logged if it is worth a warning. -/
theorem warnings_of_meets (h : env.Meets e) :
    (clipboardText env).1.filterMap Effect.warning? = e.warning?.toList := by
  cases h with
  | clip hasClip reads =>
    simp [clipboardText_of_error hasClip reads, List.filterMap_cons, Effect.warning?]
  | uri first opens =>
    simp [clipboardText_of_first first, itemText, opens, List.filterMap_cons, Effect.warning?]

/-- Of a clip only the first item counts. -/
theorem clipboardText_of_head {clip clip' : Clip} (hclip : env.clip = .ok (some clip))
    (hhead : clip'.items.head? = clip.items.head?) :
    clipboardText { env with clip := .ok (some clip') } = clipboardText env := by
  rw [clipboardText, clipboardText, hclip]
  simp only [hhead]
  rfl

/-! ## Whether there is text -/

/-- There is text if the clipboard says that it holds something, and one of the declared
    types is one of text. -/
theorem clipboardHasText_iff : clipboardHasText env = true ↔
    env.hasClip = true ∧ ∃ types, env.clipTypes = some types ∧ ∃ t ∈ types, ∃ first second,
      Mime.IsSplit t first second ∧ (first = "*" ∨ Mime.SameLetters first "text") := by
  rw [clipboardHasText, Bool.and_eq_true]
  refine and_congr_right fun _ => ?_
  cases env.clipTypes with
  | none => simp
  | some types => simp [Mime.hasType_iff, Mime.matchesType_anyText_iff]

end Controller

/-- What becomes of a question for the text of the clipboard: what is done, and the reply. -/
structure Surroundings.TextRead (env : Surroundings) (effects : List Effect) (reply : Bytes) :
    Prop where
  /-- Nothing is done but to read, to open and to warn. -/
  looks : ∀ effect ∈ effects, effect.looks = true
  /-- The clipboard is read once if it says that it holds something, and not otherwise. -/
  reads : effects.count .readClip = if env.hasClip then 1 else 0
  /-- An address that is the first item is opened once, as text. -/
  opens : ∀ uri text, env.FirstItem (.uri uri text) →
    effects.filterMap Effect.opened? = [(uri, "text/*")]
  opens_nothing : (∀ uri text, ¬env.FirstItem (.uri uri text)) →
    effects.filterMap Effect.opened? = []
  /-- A missing permission is logged once. -/
  warns : ∀ reason, env.Meets (.permissionDenied reason) →
    effects.filterMap Effect.warning? =
      ["Attempted to get clipboard data that requires additional permission(s): " ++
        ("permission denied: " ++ reason)]
  warns_nothing : (∀ reason, ¬env.Meets (.permissionDenied reason)) →
    effects.filterMap Effect.warning? = []
  /-- The reply has a text if the clipboard holds this text. -/
  text : ∀ text, CallResult.decode? reply = some (.ok (.map [("text", .string text)])) ↔
    env.Holds text
  /-- Otherwise it is null. -/
  null : (∀ text, ¬env.Holds text) → CallResult.decode? reply = some (.ok .null)

namespace ClipText

/-- The answer with a text that was found, null without one. -/
def answer (found : Option String) : Value := (found.map fun text => write ⟨text⟩).getD .null

theorem answer_eq_iff {found : Option String} {text : String} :
    answer found = .map [("text", .string text)] ↔ found = some text := by
  cases found <;> simp [answer, write]

/-- The answer is read from the reply. -/
theorem decode?_answer (found : Option String) :
    CallResult.decode? (CallResult.encode (.ok (answer found))) = some (.ok (answer found)) := by
  have hanswers : Request.Answers "Clipboard.getData" (answer found) := by
    cases found with
    | none => exact .nothing (by decide)
    | some text => exact .text text
  exact hanswers.decode?_encode

end ClipText

/-- A look for the text, with the reply to it. -/
theorem Controller.textRead_clipboardText (env : Surroundings) :
    env.TextRead (clipboardText env).1
      (CallResult.encode (.ok (ClipText.answer (clipboardText env).2))) := by
  have hlook := look_clipboardText env
  refine ⟨hlook.looks, hlook.count_readClip, fun uri text => opened_of_first, hlook.opened_eq_nil,
    fun reason => warnings_of_meets, hlook.warnings_eq_nil, fun text => ?_, fun hno => ?_⟩
  · rw [ClipText.decode?_answer, Option.some.injEq, CallResult.ok.injEq, ClipText.answer_eq_iff]
    exact clipboardText_eq_some_iff
  · have hnone : (clipboardText env).2 = none :=
      Option.eq_none_iff_forall_ne_some.2 fun text h => hno text (clipboardText_eq_some_iff.1 h)
    rw [ClipText.decode?_answer, hnone]
    rfl

namespace Plugin

/-- Messages about the clipboard, in whatever surroundings a plugin that listens gets them.

    Who asks for the text of the clipboard, of any kind or plain, is answered as
    `Surroundings.TextRead` says, and of a clip only the first item counts. Who asks whether
    there is text has nothing done at all, and is told so if the clipboard says that it holds
    something and declares a type with a star or the word before its first slash. -/
theorem clipboard_reads {p : Plugin} (hears : p.attached = true) (env : Surroundings)
    {message : Bytes} {call : MethodCall} (hcall : MethodCall.decode? message = some call) :
    (call.method = "Clipboard.getData" → call.args = .null ∨ call.args.Names "text/plain" →
      ∃ effects reply, p.receive env message = (p, effects, reply) ∧
        env.TextRead effects reply ∧
        ∀ clip clip', env.clip = .ok (some clip) → clip'.items.head? = clip.items.head? →
          p.receive { env with clip := .ok (some clip') } message = (p, effects, reply)) ∧
    (call.method = "Clipboard.hasStrings" →
      ∃ b reply, p.receive env message = (p, [], reply) ∧
        CallResult.decode? reply = some (.ok (.map [("value", .bool b)])) ∧
        (b = true ↔ env.hasClip = true ∧ ∃ types, env.clipTypes = some types ∧
          ∃ t ∈ types, ∃ first second, Mime.IsSplit t first second ∧
            (first = "*" ∨ Mime.SameLetters first "text"))) := by
  refine ⟨fun hmethod hargs => ?_, fun hmethod => ?_⟩
  · obtain ⟨format, hrequest⟩ := Request.ofMessage?_getData hcall hmethod hargs
    refine ⟨_, _, receive_of_request hears hrequest env, Controller.textRead_clipboardText env, ?_⟩
    intro clip clip' hclip hhead
    rw [receive_of_request hears hrequest, Controller.perform, Controller.perform,
      Controller.clipboardText_of_head hclip hhead]
  · exact ⟨_, _, receive_of_request hears (Request.ofMessage?_hasStrings hcall hmethod) env,
      (Request.Answers.presence _).decode?_encode, Controller.clipboardHasText_iff⟩

/-- An address that may not be opened, before a text that is not looked at. The form that is
    asked for is given as the key of a map, and the word in a declared type by capitals. -/
theorem clipboard_reads_denied :
    let env : Surroundings := ⟨none, false, true,
      .ok (some ⟨"", [], [.uri "content://a" "x", .text "b"]⟩), some ["image/png", "TEXT/a/b"],
      fun _ _ => .error (.permissionDenied "no")⟩
    let message (method : String) (args : Value) : Bytes := MethodCall.encode ⟨method, args⟩
    let p : Plugin := .start 30
    (∃ effects reply, p.receive env
        (message "Clipboard.getData" (.map [("text/plain", .null)])) = (p, effects, reply) ∧
      effects.filterMap Effect.opened? = [("content://a", "text/*")] ∧
      effects.filterMap Effect.warning? =
        ["Attempted to get clipboard data that requires additional permission(s): " ++
          ("permission denied: " ++ "no")] ∧
      CallResult.decode? reply = some (.ok .null)) ∧
    ∃ reply, p.receive env (message "Clipboard.hasStrings" .null) = (p, [], reply) ∧
      CallResult.decode? reply = some (.ok (.map [("value", .bool true)])) := by
  intro env message p
  have hget : MethodCall.decode?
      (message "Clipboard.getData" (.map [("text/plain", .null)])) =
        some ⟨"Clipboard.getData", .map [("text/plain", .null)]⟩ := by
    rw [MethodCall.decode?_encode_eq]
    rfl
  have hhas : MethodCall.decode? (message "Clipboard.hasStrings" .null) =
      some ⟨"Clipboard.hasStrings", .null⟩ := by
    rw [MethodCall.decode?_encode_eq]
    rfl
  have hnames : (Value.map [("text/plain", .null)]).Names "text/plain" :=
    .key (Value.holdsOnly_map_iff.2 rfl) rfl
  have first : env.FirstItem (.uri "content://a" "x") := ⟨rfl, _, rfl, rfl⟩
  constructor
  · obtain ⟨effects, reply, hreceive, hread, -⟩ :=
      (clipboard_reads (p := p) rfl env hget).1 rfl (.inr hnames)
    refine ⟨effects, reply, hreceive, hread.opens _ _ first, hread.warns _ (.uri first rfl),
      hread.null fun text hholds => ?_⟩
    cases hholds with
    | text first =>
      obtain ⟨clip, hclip, hitem⟩ := first.clip
      obtain rfl := Option.some.inj (Except.ok.inj hclip)
      exact absurd hitem (by simp)
    | uri _ opens => exact absurd opens (by simp [env])
  · obtain ⟨b, reply, hreceive, hreply, hb⟩ := (clipboard_reads (p := p) rfl env hhas).2 rfl
    obtain rfl : b = true := hb.2 ⟨rfl, _, rfl, "TEXT/a/b", by simp, "TEXT", "a/b",
      ⟨rfl, by decide⟩, .inr (Mime.sameLetters_iff.2 (by decide))⟩
    exact ⟨reply, hreceive, hreply⟩

end Plugin

end HostBridge
