import HostBridge.Proofs.Codec.Calls
import HostBridge.Proofs.Platform.HostCalls
import HostBridge.Proofs.Platform.Refusals
import HostBridge.Proofs.Tasks.Waiting
import HostBridge.Proofs.Window.Kinds

/-!
# Notices about the bars

The application is told once about each report of the window, in the order of the
reports and never while the window reports. A report posts a notice, and a turn of
the loop sends the notices that are due. So the notices that wait before an event,
and behind them the one that the event posts, are those that the event sends, and
behind them those that wait after it (`Session.step_conserves`).

* `Controller.listens_perform`: the window is asked to report by one request only.
* `Session.awaited_cons`: what an event contributes to the reports that are heard.
* `SessionRun.notices_sent_once`: over a whole run, what was sent and what waits is
  what was reported.
-/

namespace HostBridge

/-! ## Asking for reports -/

namespace Controller

/-- What is about the bars does not ask for reports. -/
theorem listenInsets_not_mem_of_isBars {calls : List HostCall}
    (h : ∀ call ∈ calls, call.isBars = true) : .host .listenInsets ∉ calls.map Effect.host := by
  intro hmem
  obtain ⟨call, hcall, heq⟩ := List.mem_map.1 hmem
  obtain rfl := Effect.host.inj heq
  exact Bool.false_ne_true (h _ hcall)

/-- The window is asked for reports if and only if the request is to watch the bars. -/
theorem listens_perform (env : Surroundings) (c : Controller) (request : Request) :
    .host .listenInsets ∈ (c.perform env request).2.1 ↔ request = .watchBars := by
  constructor
  · intro hmem
    cases causes_perform env c request _ hmem with
    | insets => rfl
    | bars _ isBars => exact absurd isBars Bool.false_ne_true
    | look _ looks => exact absurd looks Bool.false_ne_true
  · rintro rfl
    exact List.mem_singleton_self _

end Controller

namespace Session

/-- Among the effects of a message only the call that asks for reports means anything
    for a session. -/
theorem foldl_note (s : Session) (effects : List Effect) : effects.foldl note s =
    { s with listening := s.listening || decide (.host .listenInsets ∈ effects) } := by
  induction effects generalizing s with
  | nil => simp
  | cons effect effects ih =>
    rw [List.foldl_cons, ih]
    by_cases heq : effect = .host .listenInsets
    · -- from here on it does not matter whether the others ask again
      rw [heq]
      simp [note]
    · have hnote : s.note effect = s := by
        rw [note]
        exact fun h => heq h
      rw [hnote]
      simp [Ne.symm heq]

/-- The calls that bring the bars into the state that was asked for last mean nothing for
    a session. -/
theorem foldl_note_refreshCalls {s : Session} {p : Plugin} (hp : s.plugin = some p) :
    (p.controller.refreshCalls.map Effect.host).foldl note { s with plugin := some p } = s := by
  have hquiet : .host .listenInsets ∉ p.controller.refreshCalls.map Effect.host :=
    Controller.listenInsets_not_mem_of_isBars p.controller.isBars_refreshCalls
  rw [foldl_note, decide_eq_false hquiet, Bool.or_false, ← hp]

/-- To refresh the bars changes nothing of a session. -/
theorem step_refresh (s : Session) : s.step (.plugin .refresh) = (s, { effects :=
    (s.plugin.map fun p => p.controller.refreshCalls.map Effect.host).getD [] }) := by
  rw [step, refresh]
  rcases hp : s.plugin with _ | p
  · rfl
  · simp only [Option.map_some, Plugin.refresh_eq, foldl_note_refreshCalls hp]
    rfl

end Session

/-! ## Reports that are heard -/

namespace SessionEvent

/-- What the window reports, and when. -/
def report? : SessionEvent → Option (Int × WindowInsets)
  | .insets now reported => some (now, reported)
  | _ => none

/-- The application asks to be told about the bars. -/
def watches : SessionEvent → Bool
  | .plugin (.message _ message) => Request.ofMessage? message = some .watchBars
  | _ => false

/-- The plugin stops listening to its channel. -/
def detaches : SessionEvent → Bool
  | .destroy => true
  | _ => false

/-- What the window reports once the application has asked for it. It may ask until
    the plugin stops listening to its channel. -/
def reports : List SessionEvent → List (Int × WindowInsets)
  | [] => []
  | event :: events =>
    if event.detaches then []
    else if event.watches then events.filterMap report?
    else reports events

end SessionEvent

namespace Session

variable {s : Session} {event : SessionEvent}

/-- There is a plugin that listens to its channel. -/
def hears (s : Session) : Bool := s.plugin.map Plugin.attached == some true

/-- What a living session has to tell of the reports to come. -/
def awaited (s : Session) (events : List SessionEvent) : List (Int × WindowInsets) :=
  if s.listening then events.filterMap SessionEvent.report?
  else if s.hears then SessionEvent.reports events
  else []

/-- The report that an event makes, if it is heard. -/
def heard? (s : Session) (event : SessionEvent) : Option (Int × WindowInsets) :=
  if s.listening then event.report? else none

/-- A message to a session with a plugin may have the window report, and leaves alone
    everything else that outlives the plugin. -/
theorem receive_of_living {p : Plugin} (hp : s.plugin = some p) (env : Surroundings)
    (message : Bytes) : ∃ controller effects reply, s.receive env message = some
      (⟨some { p with controller }, s.listening || (p.attached &&
        decide (Request.ofMessage? message = some .watchBars)), s.notices⟩, effects, reply) := by
  by_cases hrefused : p.attached = false ∨ Request.ofMessage? message = none
  · -- a message that is refused is no request that anybody hears
    obtain ⟨e, logs, hreceive⟩ := Plugin.receive_of_refused hrefused
    have hdeaf : (p.attached && decide (Request.ofMessage? message = some .watchBars)) = false := by
      rcases hrefused with h | h <;> simp [h]
    refine ⟨p.controller, logs.map .fail, e.toResult.encode, ?_⟩
    rw [receive, hp, Option.map_some, hreceive, hdeaf, Bool.or_false]
    simp only [foldl_note_map_fail]
  · obtain ⟨hattached, request, hrequest⟩ := Plugin.exists_request hrefused
    let performed := p.controller.perform env request
    refine ⟨performed.1, performed.2.1, CallResult.encode (.ok performed.2.2), ?_⟩
    rw [receive, hp, Option.map_some, Plugin.receive_of_request hattached hrequest]
    simp only [performed, foldl_note, Controller.listens_perform, hrequest, hattached,
      Bool.true_and, Option.some.injEq]

theorem step_of_dropped_message (hp : s.plugin = none) (env : Surroundings) (message : Bytes) :
    s.step (.plugin (.message env message)) = (s, {}) := by
  rw [step, receive, hp, Option.map_none]

/-! ## One event -/

/-- A plugin that is not dropped listens until it is told to stop. The window reports
    once a plugin that listens has been asked for it, and goes on doing so. -/
theorem standing_step (s : Session) {event : SessionEvent} (h : event ≠ .drop) :
    (s.step event).1.plugin.map Plugin.attached =
        (s.plugin.map fun p => p.attached && !event.detaches) ∧
      (s.step event).1.listening = (s.listening || (s.hears && event.watches)) := by
  cases event with
  | plugin event =>
    cases event with
    | message env message =>
      rcases hp : s.plugin with _ | p
      · simp [step_of_dropped_message hp, hears, hp]
      · obtain ⟨controller, effects, reply, hreceive⟩ := receive_of_living hp env message
        simp [step, hreceive, hears, hp, SessionEvent.detaches, SessionEvent.watches]
    | refresh => simp [step_refresh, SessionEvent.detaches, SessionEvent.watches]
  | destroy =>
    simp [step, destroy, Plugin.destroy, SessionEvent.detaches, SessionEvent.watches,
      Function.comp_def]
  | drop => exact absurd rfl h
  | insets now reported =>
    rw [step, deliver]
    split <;> simp [SessionEvent.detaches, SessionEvent.watches]
  | frame now => simp [step, frame_eq, SessionEvent.detaches, SessionEvent.watches]

theorem hears_step (s : Session) {event : SessionEvent} (h : event ≠ .drop) :
    (s.step event).1.hears = (s.hears && !event.detaches) := by
  rw [hears, hears, (standing_step s h).1]
  rcases s.plugin with _ | p
  · rfl
  · simp

theorem isSome_plugin_step (s : Session) {event : SessionEvent} (h : event ≠ .drop) :
    (s.step event).1.plugin.isSome = s.plugin.isSome := by
  simpa using congrArg Option.isSome (standing_step s h).1

/-- Nothing is sent but in a turn of the loop. -/
theorem sent_eq_nil (s : Session) {event : SessionEvent} (h : ∀ now, event ≠ .frame now) :
    (s.step event).2.sent = [] := by
  cases event with
  | plugin event =>
    cases event with
    | message env message =>
      rw [step]
      split <;> rfl
    | refresh => rw [step_refresh]
  | frame now => exact absurd rfl (h now)
  | _ => rfl

/-- Outside the turns of the loop, only a report that is heard adds a notice to those
    that wait. -/
theorem notices_step (s : Session) {event : SessionEvent} (h : ∀ now, event ≠ .frame now) :
    (s.step event).1.notices = (s.heard? event).elim s.notices fun report =>
      s.notices.post report.1 (barsVisible report.2) := by
  cases event with
  | plugin event =>
    have hunheard : s.heard? (.plugin event) = none := ite_self none
    rw [hunheard, Option.elim_none]
    cases event with
    | message env message =>
      rcases hp : s.plugin with _ | p
      · rw [step_of_dropped_message hp]
      · obtain ⟨controller, effects, reply, hreceive⟩ := receive_of_living hp env message
        rw [step, hreceive]
    | refresh => rw [step_refresh]
  | insets now reported =>
    rw [step, deliver, heard?]
    split <;> rfl
  | frame now => exact absurd rfl (h now)
  | _ => exact (congrArg (Option.elim · _ _) (ite_self none)).symm

/-- What is awaited before an event is what it reports, and what is awaited after it. -/
theorem awaited_cons (s : Session) {event : SessionEvent} (h : event ≠ .drop)
    (events : List SessionEvent) : s.awaited (event :: events) =
      (s.heard? event).toList ++ (s.step event).1.awaited events := by
  rw [awaited, awaited, heard?, (standing_step s h).2, hears_step s h, SessionEvent.reports]
  cases s.listening with
  | true =>
    cases hreport : event.report? <;> simp [hreport]
  | false =>
    -- the event that detaches the plugin is no message
    have hdeaf : event.detaches = true → event.watches = false := by
      cases event <;> simp [SessionEvent.detaches, SessionEvent.watches]
    cases s.hears with
    | false => simp
    | true =>
      cases hdetaches : event.detaches with
      | true => simp [hdeaf hdetaches]
      | false => cases event.watches <;> simp

/-! ## Notices -/

/-- Both bars are visible if each of them is. -/
theorem barsVisible_eq (insets : WindowInsets) : barsVisible insets =
    (insets.isVisible .statusBars && insets.isVisible .navigationBars) :=
  InsetTypes.contains_union _ _ _

/-- The notice of a report, with the time of its posting. -/
def posting (report : Int × WindowInsets) : Int × Bool := (report.1, barsVisible report.2)

/-- A notice is a message on the channel of the plugin, in which the application reads
    whether the bars are visible. -/
theorem exists_message_notice (visible : Bool) : ∃ message,
    notice visible = .sent Plugin.channel message ∧
      MethodCall.decode? message = some ⟨noticeMethod, .list [.bool visible]⟩ := by
  refine ⟨_, rfl, ?_⟩
  rw [MethodCall.decode?_encode_eq]
  rfl

theorem notify_of_living {s : Session} (h : s.plugin.isSome = true) (visible : Bool) :
    s.notify visible = some (notice visible) := by
  obtain ⟨p, hp⟩ := Option.isSome_iff_exists.1 h
  rw [notify, hp, Option.map_some]

theorem notify_of_dropped {s : Session} (h : s.plugin = none) (visible : Bool) :
    s.notify visible = none := by
  rw [notify, h, Option.map_none]

/-- A plugin that was dropped does not come back, and without it nothing is sent. -/
theorem step_of_dropped {s : Session} (h : s.plugin = none) (event : SessionEvent) :
    (s.step event).1.plugin = none ∧ (s.step event).2.sent = [] := by
  cases event with
  | plugin event =>
    cases event with
    | message env message =>
      rw [step_of_dropped_message h]
      exact ⟨h, rfl⟩
    | refresh =>
      rw [step_refresh]
      exact ⟨h, rfl⟩
  | destroy => exact ⟨by rw [step, destroy, h, Option.map_none], rfl⟩
  | drop => exact ⟨rfl, rfl⟩
  | insets now reported =>
    rw [step, deliver]
    split <;> exact ⟨h, rfl⟩
  | frame now => simp [step, frame_eq, notify_of_dropped h, h]

theorem sent_of_dropped {s : Session} (h : s.plugin = none) (events : List SessionEvent) :
    ∀ x ∈ Trace.run step s events, x.2.sent = [] := by
  induction events generalizing s with
  | nil => exact List.forall_mem_nil _
  | cons event events ih =>
    obtain ⟨hplugin, hsent⟩ := step_of_dropped h event
    exact List.forall_mem_cons.2 ⟨hsent, ih hplugin⟩

variable {s : Session} {event : SessionEvent} {first : Nat} {waiting : List (Int × Bool)}

/-- A turn of the loop sends the notices that are due. -/
theorem frame_conserves (hlives : s.plugin.isSome = true) (hq : s.notices.Queued first waiting)
    (now : Int) : ∃ done rest, waiting = done ++ rest ∧
      (s.frame now).1.notices.Queued (first + done.length) rest ∧
      (s.frame now).2 = done.map fun w => notice w.2 := by
  obtain ⟨hdue, hrest⟩ := hq.takeDue now
  rw [frame_eq]
  refine ⟨_, _, List.takeWhile_append_dropWhile.symm, hrest, ?_⟩
  simp only [hdue, notify_of_living hlives, Option.toList_some]
  rw [← List.map_eq_flatMap, List.map_map]
  rfl

/-- The notices that wait before an event, and behind them that of the report that is
    heard, are those that are sent, and behind them those that wait after it. -/
theorem step_conserves (hlives : s.plugin.isSome = true) (hq : s.notices.Queued first waiting)
    (hclock : (waiting ++ (s.heard? event).toList.map posting).Pairwise (·.1 ≤ ·.1))
    (hfew : first + (waiting ++ (s.heard? event).toList.map posting).length < UInt64.size) :
    ∃ done rest, waiting ++ (s.heard? event).toList.map posting = done ++ rest ∧
      (s.step event).1.notices.Queued (first + done.length) rest ∧
      (s.step event).2.sent = done.map fun w => notice w.2 := by
  by_cases hframe : ∃ now, event = .frame now
  · obtain ⟨now, rfl⟩ := hframe
    have hunheard : s.heard? (.frame now) = none := ite_self none
    rw [hunheard, Option.toList_none, List.map_nil, List.append_nil]
    exact frame_conserves hlives hq now
  · -- nothing is sent, and what is heard goes behind what waits
    have hturn : ∀ now, event ≠ .frame now := not_exists.1 hframe
    refine ⟨[], _, rfl, ?_, sent_eq_nil s hturn⟩
    rw [notices_step s hturn]
    generalize s.heard? event = heard at hclock hfew ⊢
    rcases heard with _ | report
    · simpa using hq
    · rw [Option.toList_some, List.map_singleton] at hclock hfew ⊢
      have hlast := (List.pairwise_append.1 hclock).2.2
      exact hq.post (by rw [List.length_append] at hfew; omega)
        (fun w hw => hlast w hw _ (List.mem_singleton_self _)) _

/-- And so do all events of a run that keeps the plugin alive. -/
theorem run_conserves {events : List SessionEvent} (hevents : ∀ event ∈ events, event ≠ .drop)
    (hlives : s.plugin.isSome = true) (hq : s.notices.Queued first waiting)
    (hclock : (waiting ++ (s.awaited events).map posting).Pairwise (·.1 ≤ ·.1))
    (hfew : first + (waiting ++ (s.awaited events).map posting).length < UInt64.size) :
    ∃ done rest, waiting ++ (s.awaited events).map posting = done ++ rest ∧
      (Trace.final step s events).notices.Queued (first + done.length) rest ∧
      ((Trace.run step s events).flatMap fun x => x.2.sent) = done.map (fun w => notice w.2) ∧
      (Trace.final step s events).plugin.isSome = true := by
  induction events generalizing s first waiting with
  | nil =>
    have hnone : s.awaited [] = [] := by simp [awaited, SessionEvent.reports]
    rw [hnone]
    exact ⟨[], waiting, List.append_nil _, hq, rfl, hlives⟩
  | cons event events ih =>
    obtain ⟨hevent, hevents⟩ := List.forall_mem_cons.1 hevents
    rw [awaited_cons s hevent, List.map_append, ← List.append_assoc] at hclock hfew ⊢
    -- the event itself comes before all that is awaited after it
    obtain ⟨done, rest, hdone, hnext, hsent⟩ := step_conserves hlives hq
      (List.pairwise_append.1 hclock).1 (by rw [List.length_append] at hfew; omega)
    rw [hdone, List.append_assoc] at hclock hfew ⊢
    obtain ⟨more, left, hmore, hfinal, hlater, hlast⟩ := ih hevents
      (by rw [isSome_plugin_step s hevent, hlives]) hnext (List.pairwise_append.1 hclock).2.1
      (by rw [List.length_append] at hfew; omega)
    refine ⟨done ++ more, left, ?_, ?_, ?_, hlast⟩
    · rw [hmore, List.append_assoc]
    · rw [List.length_append, ← Nat.add_assoc]
      exact hfinal
    · rw [Trace.run, List.flatMap_cons, hsent, hlater, List.map_append]

end Session

/-! ## A run -/

/-- A session from its start, and what happens to it. -/
structure SessionRun where
  /-- The level of the platform. -/
  level : Nat
  events : List SessionEvent

namespace SessionRun

open Session

variable (r : SessionRun)

/-- The session in the end. -/
def session : Session := Trace.final step (.start r.level) r.events

/-- All that was sent. -/
def sent : List ChannelEffect :=
  (Trace.run step (.start r.level) r.events).flatMap fun x => x.2.sent

/-- The reports of the window since the application first asked for them. -/
def reports : List (Int × WindowInsets) := SessionEvent.reports r.events

/-- The application is told once about each report, in order, and later than the window
    reports. While the plugin is not dropped, and as long as there are not too many
    reports for their numbers and the time does not go back from one to the next:

    * the messages that were sent, and behind them one for each notice that waits, are
      one for each report since the application first asked for them, in order; each
      tells whether the status bar and the navigation bar were both visible;
    * a notice that waits will be sent; it is a message on the channel of the plugin,
      and holds this call.

    In any session nothing is sent but in a turn of the loop; a plugin that stops
    listening leaves all notices as they are; and once the plugin is dropped nothing is
    sent any more. -/
theorem notices_sent_once (hlives : ∀ event ∈ r.events, event ≠ .drop)
    (hclock : r.reports.Pairwise (·.1 ≤ ·.1)) (hfew : r.reports.length < UInt64.size) :
    r.sent ++ r.session.notices.pending.map (fun p => notice p.task) =
      r.reports.map (fun report => notice
        (report.2.isVisible .statusBars && report.2.isVisible .navigationBars)) ∧
    (∀ visible, r.session.notify visible = some (notice visible) ∧ ∃ message,
      notice visible = .sent "flutter/platform" message ∧
        MethodCall.decode? message =
          some ⟨"SystemChrome.systemUIChange", .list [.bool visible]⟩) ∧
    (∀ (s : Session) (event : SessionEvent), (s.step event).2.sent ≠ [] →
      ∃ now, event = .frame now) ∧
    (∀ s : Session, (s.step .destroy).1.notices = s.notices ∧
      ∀ visible, (s.step .destroy).1.notify visible = s.notify visible) ∧
    ∀ (s : Session) (events : List SessionEvent),
      ∀ x ∈ Trace.run step (s.step .drop).1 events, x.2.sent = [] := by
  have hawaited : (start r.level).awaited r.events = r.reports := rfl
  obtain ⟨done, rest, hall, hqueued, hsent, hlast⟩ := run_conserves (s := start r.level) hlives rfl
    TaskQueue.queued_empty
    (by
      rw [hawaited, List.nil_append, List.pairwise_map]
      exact hclock)
    (by rw [hawaited, List.nil_append, List.length_map]; omega)
  rw [hawaited, List.nil_append] at hall
  refine ⟨?_, fun visible => ⟨notify_of_living hlast visible, exists_message_notice visible⟩,
    fun s event hne => ?_,
    fun s => ⟨rfl, fun visible => ?_⟩, fun s events => ?_⟩
  · calc r.sent ++ r.session.notices.pending.map (fun p => notice p.task)
        = done.map (fun w => notice w.2) ++
            (r.session.notices.pending.map (·.task)).map notice := by
          rw [List.map_map]
          exact congrArg (· ++ _) hsent
      _ = (done ++ rest).map fun w => notice w.2 := by
          rw [session, hqueued.map_task, List.map_append, List.map_map]
          rfl
      _ = r.reports.map fun report => notice (barsVisible report.2) := by
          rw [← hall, List.map_map]
          rfl
      _ = _ := by simp only [barsVisible_eq]
  · by_contra hframe
    exact hne (sent_eq_nil s (not_exists.1 hframe))
  · rw [step, destroy, notify, notify, Option.map_map]
    rfl
  · exact sent_of_dropped rfl events

/-- A report before the application asks is not heard, asking again changes nothing, a turn
    before the time of a notice does not send it, and the last notice outlives the
    plugin's listening to its channel. -/
theorem notices_sent_once_two_of_three :
    let env : Surroundings := ⟨none, false, false, .ok none, none, fun _ _ => .ok ()⟩
    let watch : SessionEvent := .plugin (.message env
      (MethodCall.encode ⟨"SystemChrome.setSystemUIChangeListener", .null⟩))
    let both : WindowInsets := ⟨.empty, .bars, false⟩
    let one : WindowInsets := ⟨.empty, .statusBars, false⟩
    let r : SessionRun := ⟨34, [.insets 3 both, watch, .insets 5 both, .frame 4, watch,
      .insets 5 one, .frame 5, .destroy, .insets 7 both]⟩
    r.reports = [(5, both), (5, one), (7, both)] ∧
      r.session.notices.pending.map (·.task) = [true] ∧
      r.sent ++ r.session.notices.pending.map (fun p => notice p.task) =
        [notice true, notice false, notice true] := by
  intro env watch both one r
  have hreports : r.reports = [(5, both), (5, one), (7, both)] := by decide +kernel
  obtain ⟨hsent, -⟩ := r.notices_sent_once (by simp [r, watch]) (by rw [hreports]; decide)
    (by rw [hreports]; decide)
  rw [hreports] at hsent
  have hvisible : [both, one, both].map (fun insets =>
      insets.isVisible .statusBars && insets.isVisible .navigationBars) = [true, false, true] := by
    decide
  exact ⟨hreports, by decide +kernel, hsent.trans (congrArg (List.map notice) hvisible)⟩

end SessionRun

end HostBridge
