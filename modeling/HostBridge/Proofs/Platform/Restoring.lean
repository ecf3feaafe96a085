import HostBridge.Proofs.Platform.Notices
import HostBridge.Proofs.Platform.Window

/-!
# The bars are restored as they were asked for

To restore the bars is to do once more what was done for the last mode or list of bars
and for the last style. Nothing else that has happened shows in it: neither requests of
other kinds nor messages that were refused.

* `Session.Honours` relates the grants so far to a session. An event carries it on
  (`Honours.step`), and so does a row of events (`Honours.run`);
* `Session.step_of_restores`: to restore the bars changes nothing of a session;
* `SessionRun.restore_replays_last_requests`: what follows for a whole run.
-/

namespace HostBridge

/-- A request that was granted. -/
structure Grant where
  request : Request
  /-- What was done for it. -/
  effects : List Effect

namespace SessionEvent

/-- What is granted in an event, given what is seen of it. A message is granted unless
    its reply refuses it. -/
def grant? : SessionEvent → SessionOutcome → Option Grant
  | .plugin (.message _ bytes), ⟨effects, _, some reply⟩ =>
    if CallResult.refuses reply then none else (Request.ofMessage? bytes).map (⟨·, effects⟩)
  | .plugin .refresh, outcome => some ⟨.restoreBars, outcome.effects⟩
  | _, _ => none

/-- The event has a plugin restore the bars: by a message, if the plugin listens, or
    directly. -/
inductive Restores (p : Plugin) : SessionEvent → Prop
  | message {env : Surroundings} {bytes : Bytes} {call : MethodCall} : p.attached = true →
      MethodCall.decode? bytes = some call →
      call.method = "SystemChrome.restoreSystemUIOverlays" →
      Restores p (.plugin (.message env bytes))
  | refresh : Restores p (.plugin .refresh)

end SessionEvent

namespace Session

/-- What is granted in a row of events. -/
def grants (s : Session) : List SessionEvent → List Grant
  | [] => []
  | event :: events => (event.grant? (s.step event).2).toList ++ (s.step event).1.grants events

open Request

/-- The plugin remembers what was granted, and styles were applied when they were. -/
structure Honours (level : Nat) (granted : List Grant) (s : Session) : Prop where
  follows {p : Plugin} : s.plugin = some p →
    ∃ r, Follows level (granted.map Grant.request) p.controller r
  styled : ∀ grant ∈ granted, ∀ style, grant.request.style? = some style →
    grant.effects = (Controller.styleCalls (.ofLevel level) style).map .host

variable {level : Nat} {granted : List Grant} {s : Session}

theorem Honours.start (level : Nat) : Honours level [] (.start level) where
  follows hp := ⟨{}, Option.some.inj hp ▸ Follows.start level⟩
  styled := List.forall_mem_nil _

/-- A request that is carried out. -/
theorem Honours.perform (h : Honours level granted s) {p : Plugin} (hp : s.plugin = some p)
    (env : Surroundings) (request : Request) {next : Session}
    (hnext : next.plugin = some { p with controller := (p.controller.perform env request).1 }) :
    Honours level (granted ++ [⟨request, (p.controller.perform env request).2.1⟩]) next := by
  obtain ⟨r, hr⟩ := h.follows hp
  refine ⟨fun hq => ?_, List.forall_mem_append.2 ⟨h.styled, List.forall_mem_singleton.2 ?_⟩⟩
  · obtain rfl := Option.some.inj (hnext.symm.trans hq)
    rw [List.map_append]
    exact ⟨_, hr.perform env request⟩
  · intro style hstyle
    cases request with
    | styleBars given =>
      obtain rfl := Option.some.inj hstyle
      simp only [Controller.perform, Controller.applyStyle, hr.capabilities]
    | _ => exact absurd hstyle (by simp [style?])

/-- An event that leaves what the plugin remembers, and is no request. -/
theorem Honours.keep (h : Honours level granted s) {next : Session}
    (hnext : next.plugin.map Plugin.controller = s.plugin.map Plugin.controller) :
    Honours level granted next where
  follows {q} hq := by
    rw [hq] at hnext
    obtain ⟨p, hp, hcontroller⟩ := Option.map_eq_some_iff.1 hnext.symm
    exact hcontroller ▸ h.follows hp
  styled := h.styled

/-- A message whose reply is no refusal holds a request that is carried out. -/
theorem receive_of_grants {env : Surroundings} {message : Bytes} {next : Session}
    {effects : List Effect} {reply : Bytes}
    (h : s.receive env message = some (next, effects, reply))
    (hgrants : CallResult.refuses reply = false) :
    ∃ p request, s.plugin = some p ∧ Request.ofMessage? message = some request ∧
      next.plugin = some { p with controller := (p.controller.perform env request).1 } ∧
      effects = (p.controller.perform env request).2.1 := by
  obtain ⟨p, hp, hreceived⟩ := Option.map_eq_some_iff.1 h
  have hreply : (p.receive env message).2.2 = reply := congrArg (·.2.2) hreceived
  have hrefuses := Plugin.refuses_receive env p message
  rw [hreply, hgrants] at hrefuses
  obtain ⟨hattached, request, hrequest⟩ :=
    Plugin.exists_request (mt hrefuses.2 Bool.false_ne_true)
  rw [Plugin.receive_of_request hattached hrequest] at hreceived
  simp only [foldl_note, Prod.mk.injEq] at hreceived
  obtain ⟨rfl, rfl, -⟩ := hreceived
  exact ⟨p, request, hp, hrequest, rfl, rfl⟩

/-- An event, whatever it is. -/
theorem Honours.step (h : Honours level granted s) (event : SessionEvent) :
    Honours level (granted ++ (event.grant? (s.step event).2).toList) (s.step event).1 := by
  cases event with
  | plugin event =>
    cases event with
    | message env message =>
      rw [Session.step]
      rcases hreceive : s.receive env message with _ | ⟨next, effects, reply⟩
      · exact (List.append_nil granted).symm ▸ h
      · cases hrefuses : CallResult.refuses reply with
        | true =>
          -- nothing is granted, and nothing has changed
          obtain ⟨logs, hsame⟩ := receive_of_refuses hreceive hrefuses
          obtain ⟨rfl, -⟩ : s = next ∧ _ := by simpa [hreceive] using (hsame env).symm
          simpa [SessionEvent.grant?, hrefuses] using h
        | false =>
          obtain ⟨p, request, hp, hrequest, hnext, rfl⟩ := receive_of_grants hreceive hrefuses
          simpa [SessionEvent.grant?, hrefuses, hrequest] using h.perform hp env request hnext
    | refresh =>
      rw [step_refresh]
      refine ⟨fun hp => ?_, List.forall_mem_append.2 ⟨h.styled, List.forall_mem_singleton.2 ?_⟩⟩
      · obtain ⟨r, hr⟩ := h.follows hp
        rw [List.map_append]
        exact ⟨_, hr.restoreBars⟩
      · exact fun style hstyle => absurd hstyle (by simp [style?])
  | destroy =>
    refine (List.append_nil granted).symm ▸ h.keep ?_
    rw [Session.step, destroy, Option.map_map]
    rfl
  | drop =>
    exact (List.append_nil granted).symm ▸
      ⟨fun hp => absurd hp (by simp [Session.step, drop]), h.styled⟩
  | insets now reported =>
    refine (List.append_nil granted).symm ▸ h.keep ?_
    rw [Session.step, deliver]
    split <;> rfl
  | frame now =>
    refine (List.append_nil granted).symm ▸ h.keep ?_
    rw [Session.step, frame_eq]

/-- A row of events. -/
theorem Honours.run (h : Honours level granted s) (events : List SessionEvent) :
    Honours level (granted ++ s.grants events) (Trace.final Session.step s events) := by
  induction events generalizing s granted with
  | nil => exact (List.append_nil granted).symm ▸ h
  | cons event events ih =>
    rw [grants, ← List.append_assoc]
    exact ih (h.step event)

/-! ## Restoring -/

end Session

/-- A call of the method to restore the bars needs no argument. -/
theorem Request.ofCall?_restoreBars {call : MethodCall}
    (h : call.method = "SystemChrome.restoreSystemUIOverlays") :
    ofCall? call = .ok .restoreBars := by
  obtain ⟨method, args⟩ := call
  obtain rfl : method = _ := h
  rfl

namespace Plugin

open Request

variable {level : Nat} {p : Plugin}

/-- What is done to restore the bars is told by the requests so far. -/
theorem refresh_of_follows {requests : List Request} {r : HostRecord}
    (h : Follows level requests p.controller r) : p.refresh =
      (p, (Controller.layoutCalls (lastWish requests).layout).map .host ++
        ((styles requests).getLast?.map fun style =>
          (Controller.styleCalls (.ofLevel level) style).map Effect.host).getD []) := by
  rw [refresh_eq, Controller.refreshCalls, List.map_append, h.layout, h.style, h.capabilities]
  cases (styles requests).getLast? <;> rfl

/-- A call of the method is answered with null once the bars are restored. -/
theorem handle_restore (env : Surroundings) (p : Plugin) {call : MethodCall}
    (h : call.method = "SystemChrome.restoreSystemUIOverlays") :
    handle env p.controller call = ((p.controller, p.refresh.2), .ok .null) := by
  rw [handle, ofCall?_restoreBars h, refresh_eq]
  simp only [Controller.perform, Controller.refresh_eq]

end Plugin

namespace Session

/-- To restore the bars changes nothing of a session. -/
theorem step_of_restores {s : Session} {p : Plugin} (hp : s.plugin = some p) {event : SessionEvent}
    (h : event.Restores p) : (s.step event).1 = s ∧ (s.step event).2.effects = p.refresh.2 := by
  rw [Plugin.refresh_eq]
  cases h with
  | @message env bytes call hattached hcall hmethod =>
    have hrequest : Request.ofMessage? bytes = some .restoreBars :=
      Request.ofMessage?_eq_some.2 ⟨call, hcall, Request.ofCall?_restoreBars hmethod⟩
    rw [step, receive, hp, Option.map_some, Plugin.receive_of_request hattached hrequest]
    simp only [Controller.perform, Controller.refresh_eq, foldl_note_refreshCalls hp, and_self]
  | refresh =>
    rw [step_refresh, hp]
    exact ⟨rfl, rfl⟩

end Session

namespace SessionRun

open Request Session

variable (run : SessionRun)

/-- What was granted, in order. -/
def grants : List Grant := (Session.start run.level).grants run.events

/-- What was asked for and granted, in order. -/
def requests : List Request := run.grants.map Grant.request

/-- What was done for each style when it was given, in order. -/
def styleEffects : List (List Effect) :=
  run.grants.filterMap fun grant => grant.request.style?.map fun _ => grant.effects

theorem honours (run : SessionRun) : Honours run.level run.grants run.session :=
  (Honours.start run.level).run run.events

/-- What was done for a style is told by the style. -/
theorem styleEffects_eq : run.styleEffects = (styles run.requests).map fun style =>
    (Controller.styleCalls (.ofLevel run.level) style).map Effect.host := by
  rw [styleEffects, styles, requests, List.filterMap_map, List.map_filterMap]
  refine List.filterMap_congr fun grant hgrant => ?_
  rcases hstyle : grant.request.style? with _ | style
  · simp [hstyle]
  · simp [hstyle, run.honours.styled grant hgrant style hstyle]

/-- To restore the bars is to do what was done for the last requests once more, and may be
    repeated. In every session whose plugin is not dropped:

    * the window is told to lay out the bars as the last mode or list of bars that was
      granted wishes it; after this follows what was done for the last style that was
      granted, if there was one; and the plugin remembers what it did before;
    * a call of the method to restore the bars does the same as a direct refresh;
    * when the bars are restored any number of times in a row, by messages or directly,
      each time does the same, and the session stays as it is;
    * in any two sessions in which the level, the last wish for the bars and the last
      style are the same, the same is done. -/
theorem restore_replays_last_requests {p : Plugin} (hp : run.session.plugin = some p) :
    (p.controller.bars.layout = (lastWish run.requests).layout ∧
      p.refresh = (p, [.host (.decorFits false), .host (.showInsets p.controller.bars.layout.shown),
          .host (.hideInsets p.controller.bars.layout.hidden),
          .host (.barsBehavior p.controller.bars.layout.behavior)] ++
        run.styleEffects.getLast?.getD [])) ∧
    (∀ env call, call.method = "SystemChrome.restoreSystemUIOverlays" →
      Plugin.handle env p.controller call = ((p.controller, p.refresh.2), .ok .null)) ∧
    (∀ events, (∀ event ∈ events, SessionEvent.Restores p event) →
      ∀ x ∈ Trace.run step run.session events, x.1 = run.session ∧ x.2.effects = p.refresh.2) ∧
    ∀ (other : SessionRun) (q : Plugin), other.session.plugin = some q → other.level = run.level →
      lastWish other.requests = lastWish run.requests →
      (styles other.requests).getLast? = (styles run.requests).getLast? →
      q.refresh.2 = p.refresh.2 := by
  obtain ⟨r, hr⟩ := run.honours.follows hp
  change Follows run.level run.requests p.controller r at hr
  refine ⟨⟨hr.layout, ?_⟩, fun env call hcall => Plugin.handle_restore env p hcall,
    fun events hevents => ?_, fun other q hq hlevel hwish hstyle => ?_⟩
  · rw [Plugin.refresh_of_follows hr, hr.layout, run.styleEffects_eq, List.getLast?_map]
    rfl
  · have hfixed : ∀ event ∈ events, (run.session.step event).1 = run.session :=
      fun event hevent => (step_of_restores hp (hevents event hevent)).1
    rw [Trace.run_of_fixed step hfixed, List.forall_mem_map]
    exact fun event hevent => step_of_restores hp (hevents event hevent)
  · obtain ⟨r', hr'⟩ := other.honours.follows hq
    change Follows other.level other.requests q.controller r' at hr'
    rw [Plugin.refresh_of_follows hr, Plugin.refresh_of_follows hr', hlevel, hwish, hstyle]

/-- The last style is applied as it was when it was given, also where it leaves settings
    open. A style that is refused, a sound and a report of the window do not count. -/
theorem restore_replays_partial_style :
    let env : Surroundings := ⟨none, false, false, .ok none, none, fun _ _ => .ok ()⟩
    let call (method : String) (args : Value) : SessionEvent :=
      .plugin (.message env (MethodCall.encode ⟨method, args⟩))
    let run : SessionRun := ⟨29,
      [call "SystemChrome.setEnabledSystemUIMode" (.string "SystemUiMode.immersive"),
       call "SystemChrome.setSystemUIOverlayStyle" (.map [("statusBarColor", .int 5)]),
       call "SystemChrome.setSystemUIOverlayStyle" (.map [("statusBarColor", .string "red")]),
       call "SystemSound.play" (.string "SystemSoundType.click"),
       .insets 3 ⟨.empty, .bars, false⟩]⟩
    ∃ p, run.session.plugin = some p ∧ p.refresh.2 =
      [.host (.decorFits false), .host (.showInsets .empty), .host (.hideInsets .bars),
        .host (.barsBehavior .swipe), .host (.addFlags drawsBarBackgrounds),
        .host (.clearFlags translucentBars), .host (.statusColor 5)] := by
  intro env call run
  have hp : run.session.plugin =
      some ⟨⟨.ofLevel 29, .mode .immersive, some { statusColor := some 5 }⟩, true⟩ := by
    decide +kernel
  have hstyle : run.styleEffects.getLast?.getD [] = [.host (.addFlags drawsBarBackgrounds),
      .host (.clearFlags translucentBars), .host (.statusColor 5)] := by
    decide +kernel
  obtain ⟨⟨-, hrefresh⟩, -⟩ := run.restore_replays_last_requests hp
  rw [hstyle] at hrefresh
  exact ⟨_, hp, congrArg Prod.snd hrefresh⟩

end SessionRun

end HostBridge
