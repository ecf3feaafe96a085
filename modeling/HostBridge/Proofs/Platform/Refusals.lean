import HostBridge.Platform.Life
import HostBridge.Proofs.Codec.Replies

/-!
# A message that is refused changes nothing

A message is either granted or refused. It is granted if it holds a request and
the plugin listens: then the request is carried out, and the reply is a success.
Everything that can be wrong with a message is found out before anything is done,
so that a message that is refused leaves nothing behind but a log record.

* `Plugin.receive_of_request` and `Plugin.receive_of_refused`: what the two kinds
  of messages come to;
* `Session.refused_message_changes_nothing`: a message that is refused may as well
  not have come.
-/

namespace HostBridge

namespace CallResult

/-- A reply refuses a call if it says that nobody implements the method, or if it
    holds an error. -/
def refuses (reply : Bytes) : Bool :=
  match decode? reply with
  | some .notImplemented => true
  | some (.err _ _ _) => true
  | _ => false

/-- A success is not taken for a refusal, however deep its value is nested. -/
theorem refuses_encode_ok (value : Value) : refuses (encode (.ok value)) = false := by
  rw [refuses, decode?_encode_eq]
  by_cases hdepth : depth (.ok value) ≤ 126
  · rw [if_pos hdepth]
    rfl
  · rw [if_neg hdepth]

/-- The reply to every error is a refusal. -/
theorem refuses_encode_toResult (e : CallError) : refuses e.toResult.encode = true := by
  have hdepth : e.toResult.depth ≤ 126 := by cases e <;> exact Nat.zero_le 126
  rw [refuses, decode?_encode_eq, if_pos hdepth]
  cases e <;> rfl

end CallResult

namespace Request

theorem ofMessage?_eq_some {message : Bytes} {request : Request} :
    ofMessage? message = some request ↔
      ∃ call, MethodCall.decode? message = some call ∧ ofCall? call = .ok request := by
  rw [ofMessage?, Option.bind_eq_some_iff]
  refine exists_congr fun call => and_congr_right fun _ => ?_
  cases ofCall? call <;> simp [Except.toOption]

end Request

namespace Plugin

variable {p : Plugin} {message : Bytes}

/-- A request to a plugin that listens is carried out. -/
theorem receive_of_request {request : Request} (hp : p.attached = true)
    (h : Request.ofMessage? message = some request) (env : Surroundings) :
    p.receive env message =
      ({ p with controller := (p.controller.perform env request).1 },
        (p.controller.perform env request).2.1,
        CallResult.encode (.ok (p.controller.perform env request).2.2)) := by
  obtain ⟨call, hcall, hrequest⟩ := Request.ofMessage?_eq_some.1 h
  simp [receive, HostBridge.receive, hp, hcall, handle, hrequest, CallResult.ofOutcome, failureOf]

/-- A message that holds no call. -/
theorem receive_of_garbled (h : MethodCall.decode? message = none) (env : Surroundings) :
    p.receive env message = (p, [], CallError.unspecified.toResult.encode) := by
  simp [receive, HostBridge.receive, h]

/-- A call to a plugin that does not listen. -/
theorem receive_of_unheard {call : MethodCall} (h : MethodCall.decode? message = some call)
    (hp : p.attached = false) (env : Surroundings) :
    p.receive env message = (p, [], CallError.notImplemented.toResult.encode) := by
  obtain ⟨controller, attached⟩ := p
  obtain rfl : attached = false := hp
  simp [receive, HostBridge.receive, h, CallError.toResult]

/-- A call that is no request is logged, if there is a reason to. -/
theorem receive_of_error {call : MethodCall} {e : CallError}
    (h : MethodCall.decode? message = some call) (hp : p.attached = true)
    (he : Request.ofCall? call = .error e) (env : Surroundings) :
    p.receive env message =
      (p, ((failureOf (.error e)).toList.map (failureText channel)).map .fail,
        e.toResult.encode) := by
  obtain ⟨controller, attached⟩ := p
  obtain rfl : attached = true := hp
  simp [receive, HostBridge.receive, h, handle, he, CallResult.ofOutcome]

/-- What is no request, or comes to a plugin that does not listen, is answered with
    an error. The plugin stays as it is, does nothing but log, and asks nothing of
    its surroundings. -/
theorem receive_of_refused (h : p.attached = false ∨ Request.ofMessage? message = none) :
    ∃ (e : CallError) (logs : List String), ∀ env,
      p.receive env message = (p, logs.map .fail, e.toResult.encode) := by
  cases hcall : MethodCall.decode? message with
  | none => exact ⟨.unspecified, [], receive_of_garbled hcall⟩
  | some call =>
    cases hp : p.attached with
    | false => exact ⟨.notImplemented, [], receive_of_unheard hcall hp⟩
    | true =>
      have hnone : Request.ofMessage? message = none := h.resolve_left (by simp [hp])
      cases hrequest : Request.ofCall? call with
      | ok request =>
        have hsome := Request.ofMessage?_eq_some.2 ⟨call, hcall, hrequest⟩
        exact absurd (hnone.symm.trans hsome) (by simp)
      | error e => exact ⟨e, _, receive_of_error hcall hp hrequest⟩

/-- What is not refused is a request to a plugin that listens. -/
theorem exists_request (h : ¬(p.attached = false ∨ Request.ofMessage? message = none)) :
    p.attached = true ∧ ∃ request, Request.ofMessage? message = some request := by
  obtain ⟨hattached, hrequest⟩ := not_or.1 h
  exact ⟨by simpa using hattached, Option.ne_none_iff_exists'.1 hrequest⟩

/-- The reply tells whether a message was granted. -/
theorem refuses_receive (env : Surroundings) (p : Plugin) (message : Bytes) :
    CallResult.refuses (p.receive env message).2.2 = true ↔
      p.attached = false ∨ Request.ofMessage? message = none := by
  by_cases h : p.attached = false ∨ Request.ofMessage? message = none
  · obtain ⟨e, logs, hreceive⟩ := receive_of_refused h
    rw [hreceive]
    exact iff_of_true (CallResult.refuses_encode_toResult e) h
  · obtain ⟨hattached, request, hrequest⟩ := exists_request h
    rw [receive_of_request hattached hrequest]
    exact iff_of_false (by simp [CallResult.refuses_encode_ok]) h

end Plugin

namespace SessionOutcome

/-- The outcome is that a message was refused. -/
def isRefusal (o : SessionOutcome) : Bool := (o.reply.map CallResult.refuses).getD false

end SessionOutcome

namespace Session

variable {s next : Session} {env : Surroundings} {message : Bytes} {effects : List Effect}
  {reply : Bytes}

/-- Log records mean nothing for a session. -/
theorem foldl_note_map_fail (s : Session) (logs : List String) :
    (logs.map Effect.fail).foldl note s = s := by
  induction logs with
  | nil => rfl
  | cons text logs ih => exact ih

/-- A message that is refused leaves the session as it is. All that happens is
    that it is logged, and the surroundings have no part in this. -/
theorem receive_of_refuses (h : s.receive env message = some (next, effects, reply))
    (hrefuses : CallResult.refuses reply = true) :
    ∃ logs : List String, ∀ env, s.receive env message = some (s, logs.map .fail, reply) := by
  obtain ⟨p, hp, hreceived⟩ := Option.map_eq_some_iff.1 h
  have hreply : (p.receive env message).2.2 = reply := congrArg (·.2.2) hreceived
  obtain ⟨e, logs, hreceive⟩ :=
    Plugin.receive_of_refused ((Plugin.refuses_receive env p message).1 (hreply ▸ hrefuses))
  have hsame : { s with plugin := some p } = s := by rw [← hp]
  refine ⟨logs, fun env' => ?_⟩
  have hlog : e.toResult.encode = reply := by rw [← hreply, hreceive]
  simp only [receive, hp, Option.map_some, hreceive, hsame, foldl_note_map_fail, hlog]

/-- An event that is the refusal of a message leaves the session as it is. -/
theorem step_of_isRefusal (s : Session) (event : SessionEvent)
    (h : (s.step event).2.isRefusal = true) : (s.step event).1 = s := by
  cases event with
  | plugin event =>
    cases event with
    | message env message =>
      rw [step] at h ⊢
      cases hreceive : s.receive env message with
      | none => rfl
      | some received =>
        obtain ⟨next, effects, reply⟩ := received
        rw [hreceive] at h
        obtain ⟨logs, hsame⟩ := receive_of_refuses hreceive h
        rw [hsame env] at hreceive
        exact (congrArg Prod.fst (Option.some.inj hreceive)).symm
    | refresh =>
      rw [step] at h
      split at h <;> exact absurd h (by simp [SessionOutcome.isRefusal])
  | _ => exact absurd h (by simp [step, SessionOutcome.isRefusal])

/-- A message that is refused changes nothing:

    * the session is the same as before, the plugin does nothing but log, and it
      would be the same in any surroundings;
    * without the message all other events of a row come to the same: the states
      after them, their effects, the messages sent, and the replies;
    * and so they do without all messages that are refused. -/
theorem refused_message_changes_nothing :
    (∀ (s next : Session) (env : Surroundings) (message : Bytes) (effects : List Effect)
      (reply : Bytes), s.receive env message = some (next, effects, reply) →
      CallResult.refuses reply = true →
      next = s ∧ (∀ e ∈ effects, ∃ text, e = .fail text) ∧
        ∀ env', s.receive env' message = some (s, effects, reply)) ∧
    (∀ (s : Session) (events later : List SessionEvent) (event : SessionEvent),
      ((Trace.final step s events).step event).2.isRefusal = true →
      Trace.run step s (events ++ later) =
          (Trace.run step s (events ++ event :: later)).eraseIdx events.length ∧
        Trace.final step s (events ++ later) = Trace.final step s (events ++ event :: later)) ∧
    (∀ (s : Session) (events : List SessionEvent),
      Trace.run step s (Trace.prune step SessionOutcome.isRefusal s events) =
          (Trace.run step s events).filter (fun x => !x.2.isRefusal) ∧
        Trace.final step s (Trace.prune step SessionOutcome.isRefusal s events) =
          Trace.final step s events) := by
  refine ⟨fun s next env message effects reply h hrefuses => ?_, fun s events later event h => ?_,
    fun s events => Trace.run_prune step step_of_isRefusal s events⟩
  · obtain ⟨logs, hsame⟩ := receive_of_refuses h hrefuses
    obtain ⟨rfl, rfl⟩ : s = next ∧ logs.map .fail = effects := by
      simpa [hsame env] using h
    refine ⟨rfl, fun e he => ?_, hsame⟩
    obtain ⟨text, _, rfl⟩ := List.mem_map.1 he
    exact ⟨text, rfl⟩
  · have hsame := step_of_isRefusal _ event h
    constructor
    · rw [Trace.run_append, Trace.run_append, Trace.run, hsame, ← Trace.length_run step s events,
        List.eraseIdx_append_of_length_le (Nat.le_refl _), Nat.sub_self, List.eraseIdx_cons_zero]
    · rw [Trace.final_append, Trace.final_append, Trace.final_cons, hsame]

/-- An argument of the wrong type is refused, and a notice that waits goes on
    waiting. -/
theorem refused_sound_changes_nothing :
    let env : Surroundings := ⟨none, false, false, .ok none, none, fun _ _ => .ok ()⟩
    let s : Session := ⟨some (.start 34), true, TaskQueue.empty.post 0 true⟩
    let message := MethodCall.encode ⟨"SystemSound.play", .int 1⟩
    ∃ effects reply, s.receive env message = some (s, effects, reply) ∧
      CallResult.refuses reply = true ∧ ∀ e ∈ effects, ∃ text, e = .fail text := by
  intro env s message
  have hrefuses : (s.receive env message).map (fun x => CallResult.refuses x.2.2) = some true := by
    decide +kernel
  obtain ⟨⟨next, effects, reply⟩, hreceive, hreply⟩ := Option.map_eq_some_iff.1 hrefuses
  obtain ⟨rfl, heffects, -⟩ :=
    refused_message_changes_nothing.1 s next env message effects reply hreceive hreply
  exact ⟨effects, reply, hreceive, hreply, heffects⟩

end Session

end HostBridge
