import HostBridge.Channel.History
import HostBridge.Proofs.Codec.Calls
import HostBridge.Trace

/-!
# Calls go to the handler that is attached and alive

What a channel does in an event is told by the history of its handlers.

* `Channel.Records` relates a channel to a history. An event carries it on
  (`Records.step`), and so does a row of events (`Records.run`).
* `Channel.dispatch_follows_history`: what follows for every event after a row of events:
  which handler is called, what is answered, and what is sent.
-/

namespace HostBridge

/-! ## A longer history -/

namespace History

variable {σ : Type} (past : List (HandlerDeed σ))

theorem attached?_append (deed : HandlerDeed σ) :
    attached? (past ++ [deed]) = deed.attachment?.getD (attached? past) := by
  rw [attached?, attached?, List.filterMap_append, List.getLast?_append]
  cases hdeed : deed.attachment? <;> simp [hdeed]

variable (behave : σ → MethodCall → Conduct σ)

theorem state?_append (deed : HandlerDeed σ) (id : HandlerId) :
    state? behave (past ++ [deed]) id = deed.stateAfter behave id (state? behave past id) := by
  rw [state?, state?, List.foldl_append, List.foldl_cons, List.foldl_nil]

variable {past behave} in
/-- A handler to which messages go is alive. -/
theorem state?_of_handler? {id : HandlerId} {state : σ}
    (h : handler? behave past = some (id, state)) : state? behave past id = some state := by
  obtain ⟨attached, -, hmap⟩ := Option.bind_eq_some_iff.1 h
  obtain ⟨found, hfound, heq⟩ := Option.map_eq_some_iff.1 hmap
  obtain ⟨rfl, rfl⟩ := Prod.mk.inj heq
  exact hfound

end History

namespace Channel

open History

variable {σ : Type} {behave : σ → MethodCall → Conduct σ} {name : String}
  {past : List (HandlerDeed σ)} {c : Channel σ}

/-- The channel is as its history tells. -/
structure Records (behave : σ → MethodCall → Conduct σ) (name : String)
    (past : List (HandlerDeed σ)) (c : Channel σ) : Prop where
  name : c.name = name
  attached : c.attached = attached? past
  alive (id : HandlerId) : c.alive.lookup id = state? behave past id

namespace Records

theorem start (behave : σ → MethodCall → Conduct σ) (name : String) :
    Records behave name [] (.start name) :=
  ⟨rfl, rfl, fun _ => rfl⟩

/-- A message goes where the history tells. -/
theorem handler?_eq (h : Records behave name past c) :
    c.handler? = History.handler? behave past := by
  rw [Channel.handler?, History.handler?, h.attached]
  cases attached? past with
  | none => rfl
  | some id =>
    rw [Option.bind_eq_bind, Option.bind_some, Option.bind_some, h.alive]
    cases state? behave past id <;> rfl

/-- One more deed, which the channel takes in. -/
theorem deed (h : Records behave name past c) (deed : HandlerDeed σ) {next : Channel σ}
    (hname : next.name = c.name) (hattached : next.attached = deed.attachment?.getD c.attached)
    (halive : ∀ id, next.alive.lookup id = deed.stateAfter behave id (c.alive.lookup id)) :
    Records behave name (past ++ [deed]) next where
  name := hname.trans h.name
  attached := by rw [hattached, h.attached, attached?_append]
  alive id := by rw [halive, h.alive, state?_append]

theorem create (h : Records behave name past c) (id : HandlerId) (state : σ) :
    Records behave name (past ++ [.created id state])
      { c with alive := (id, state) :: c.alive.filter (·.1 ≠ id) } := by
  refine h.deed _ rfl rfl fun k => ?_
  rw [Entries.lookup_cons_eq, Entries.lookup_filter_ne, HandlerDeed.stateAfter]
  grind

theorem drop (h : Records behave name past c) (id : HandlerId) :
    Records behave name (past ++ [.dropped id])
      { c with alive := c.alive.filter (·.1 ≠ id) } :=
  h.deed _ rfl rfl fun k => Entries.lookup_filter_ne c.alive id k

theorem obey (h : Records behave name past c) (command : ChannelCommand) :
    Records behave name (past ++ command.deed?.toList) (c.obey command).1 := by
  cases command with
  | attach handler => exact h.deed _ rfl rfl fun _ => rfl
  | invoke method args => exact (List.append_nil past).symm ▸ h

theorem obeyAll (h : Records behave name past c) (commands : List ChannelCommand) :
    Records behave name (past ++ commands.filterMap ChannelCommand.deed?)
      (c.obeyAll commands).1 := by
  induction commands generalizing past c with
  | nil => exact (List.append_nil past).symm ▸ h
  | cons command commands ih =>
    have hnext := ih (h.obey command)
    rw [List.append_assoc] at hnext
    rw [Channel.obeyAll, List.filterMap_cons]
    cases hdeed : (command.deed? : Option (HandlerDeed σ)) <;> simpa [hdeed] using hnext

/-- The handler that is called changes its state. -/
theorem answer (h : Records behave name past c) {id : HandlerId} {state : σ}
    (hstate : c.alive.lookup id = some state) (call : MethodCall) :
    Records behave name (past ++ [.answered id call]) (c.update id (behave state call).state) := by
  refine h.deed _ rfl rfl fun k => ?_
  rw [update, Entries.lookup_map_update, HandlerDeed.stateAfter]
  split
  · next hid => rw [← hid, hstate, Option.map_some, Option.map_some]
  · rfl

end Records

/-! ## What a channel does -/

variable (c) in
/-- A channel keeps its name. -/
theorem obeyAll_name (commands : List ChannelCommand) : (c.obeyAll commands).1.name = c.name := by
  induction commands generalizing c with
  | nil => rfl
  | cons command commands ih =>
    rw [obeyAll]
    refine (ih (c.obey command).1).trans ?_
    cases command <;> rfl

variable (c) in
/-- What a channel does at a command. -/
theorem obey_effects (command : ChannelCommand) :
    (c.obey command).2 = (command.effect? c.name).toList := by
  rcases command with _ | ⟨method, _ | args⟩ <;> rfl

variable (c) in
theorem obeyAll_effects (commands : List ChannelCommand) :
    (c.obeyAll commands).2 = commands.filterMap (ChannelCommand.effect? c.name) := by
  induction commands generalizing c with
  | nil => rfl
  | cons command commands ih =>
    have hname : (c.obey command).1.name = c.name := by cases command <;> rfl
    rw [obeyAll]
    simp only [obey_effects, ih, hname, List.filterMap_cons]
    cases command.effect? c.name <;> rfl

variable {message : Bytes} {call : MethodCall}

theorem receive_of_garbled (h : MethodCall.decode? message = none) :
    c.receive behave message = (c, [], (CallResult.err "" "unspecified error" .null).encode) := by
  rw [receive, HostBridge.receive]
  simp only [h]
  rfl

theorem receive_of_unhandled (h : MethodCall.decode? message = some call)
    (hhandler : c.handler? = none) : c.receive behave message = (c, [], []) := by
  rw [receive, HostBridge.receive]
  simp only [h, hhandler]
  rfl

/-- What a call comes to at the handler. -/
theorem receive_of_handled {id : HandlerId} {state : σ} (h : MethodCall.decode? message = some call)
    (hhandler : c.handler? = some (id, state)) :
    c.receive behave message =
      let conduct := behave state call
      let obeyed := (c.update id conduct.state).obeyAll conduct.commands
      (obeyed.1, .called id call :: (conduct.commands.filterMap (ChannelCommand.effect? c.name) ++
          (failureOf conduct.outcome).toList.map fun e => .logged (failureText c.name e)),
        (CallResult.ofOutcome conduct.outcome).encode) := by
  rw [receive, HostBridge.receive]
  simp only [h, hhandler, Option.map_some, obeyAll_effects, obeyAll_name]
  rfl

/-- How a call ends decides the reply. -/
theorem encode_ofOutcome (outcome : Except CallError Value) :
    (CallResult.ofOutcome outcome).encode =
      match outcome with
      | .ok value => (CallResult.ok value).encode
      | .error .notImplemented => []
      | .error e => (CallResult.err "" e.message .null).encode := by
  rcases outcome with (_ | _ | _) | value <;> rfl

/-- A channel does not call a handler because it is told something. -/
theorem calls_of_commands (name : String) (commands : List ChannelCommand) :
    (commands.filterMap (ChannelCommand.effect? name)).filterMap ChannelEffect.call? = [] := by
  rw [List.filterMap_filterMap, List.filterMap_eq_nil_iff]
  intro command _
  rcases command with _ | ⟨method, _ | args⟩ <;> rfl

/-- Neither does it in order to log a failure. -/
theorem calls_of_failure (name : String) (failure : Option CallError) :
    (failure.toList.map fun e => ChannelEffect.logged (failureText name e)).filterMap
      ChannelEffect.call? = [] := by
  cases failure <;> rfl

/-! ## One event and many -/

/-- A message with a call for a handler that is attached and alive. -/
theorem Records.step_of_handled (h : Records behave name past c) {id : HandlerId} {state : σ}
    (hcall : MethodCall.decode? message = some call)
    (hhandler : History.handler? behave past = some (id, state)) :
    let conduct := behave state call
    Records behave name
        (past ++ .answered id call :: conduct.commands.filterMap ChannelCommand.deed?)
        (c.step behave (.message message)).1 ∧
      (c.step behave (.message message)).2 =
        (.called id call :: (conduct.commands.filterMap (ChannelCommand.effect? name) ++
            (failureOf conduct.outcome).toList.map fun e => .logged (failureText name e)),
          some (CallResult.ofOutcome conduct.outcome).encode) := by
  intro conduct
  -- the handler answers first, and then the channel obeys it
  have hstate := (h.alive id).trans (state?_of_handler? hhandler)
  have hnext := (h.answer hstate call).obeyAll conduct.commands
  rw [List.append_assoc] at hnext
  rw [Channel.step, receive_of_handled hcall (h.handler?_eq.trans hhandler)]
  exact ⟨hnext, by rw [← h.name]⟩

/-- An event, whatever it is. -/
theorem Records.step (h : Records behave name past c) (event : ChannelEvent σ) :
    Records behave name (past ++ deeds behave past event) (c.step behave event).1 := by
  cases event with
  | create id state => exact h.create id state
  | drop id => exact h.drop id
  | command command => exact h.obey command
  | message message =>
    rw [Channel.step, deeds, History.call?]
    rcases hcall : MethodCall.decode? message with _ | call
    · rw [receive_of_garbled hcall]
      exact (List.append_nil past).symm ▸ h
    · rcases hhandler : History.handler? behave past with _ | ⟨id, state⟩
      · rw [receive_of_unhandled hcall (h.handler?_eq.trans hhandler)]
        exact (List.append_nil past).symm ▸ h
      · exact (h.step_of_handled hcall hhandler).1

/-- The calls that an event makes are those that the history tells. -/
theorem Records.calls_step (h : Records behave name past c) (event : ChannelEvent σ) :
    (c.step behave event).2.1.filterMap ChannelEffect.call? =
      ((History.call? behave past event).map fun (id, _, call) => (id, call)).toList := by
  cases event with
  | message message =>
    rw [History.call?]
    rcases hcall : MethodCall.decode? message with _ | call
    · rw [Channel.step, receive_of_garbled hcall]
      rfl
    · rcases hhandler : History.handler? behave past with _ | ⟨id, state⟩
      · rw [Channel.step, receive_of_unhandled hcall (h.handler?_eq.trans hhandler)]
        rfl
      · have hmade : ChannelEffect.call? (.called id call) = some (id, call) := rfl
        rw [(h.step_of_handled hcall hhandler).2, List.filterMap_cons_some hmade,
          List.filterMap_append, calls_of_commands, calls_of_failure]
        rfl
  | command command =>
    rw [Channel.step]
    simp only [obey_effects]
    rcases command with _ | ⟨method, _ | args⟩ <;> rfl
  | _ => rfl

/-- A row of events. -/
theorem Records.run (h : Records behave name past c) (events : List (ChannelEvent σ)) :
    Records behave name (events.foldl (fun past event => past ++ deeds behave past event) past)
      (Trace.final (Channel.step behave) c events) := by
  induction events generalizing past c with
  | nil => exact h
  | cons event events ih => exact ih (h.step event)

/-- A channel through its life. However its handlers conduct themselves, and whatever row
    of events has gone before, the history of the handlers tells what an event comes to:

    * a handler is called if and only if the event is a message that holds a call, and the
      handler was attached last and is alive; it is called once, with the call;
    * a message that holds no call is answered with an unspecified error, and a call that
      no handler is there for with the empty reply;
    * a call that a handler answers is replied to as it ends. Before the failure is
      logged, if it is worth it, the channel does what the handler commands;
    * to call a method of the other side is to send one message under the name of the
      channel, or to log that its argument cannot be written;
    * from such a message the other side reads the call itself, if the argument comes of
      a JSON tree and is nested at most 126 deep. -/
theorem dispatch_follows_history (behave : σ → MethodCall → Conduct σ) (name : String)
    (events : List (ChannelEvent σ)) :
    let c := Trace.final (Channel.step behave) (.start name) events
    let past := History.ofEvents behave events
    (∀ event, (c.step behave event).2.1.filterMap ChannelEffect.call? =
      ((History.call? behave past event).map fun (id, _, call) => (id, call)).toList) ∧
    (∀ message, MethodCall.decode? message = none → (c.step behave (.message message)).2 =
      ([], some (CallResult.err "" "unspecified error" .null).encode)) ∧
    (∀ message call, MethodCall.decode? message = some call →
      History.handler? behave past = none →
      (c.step behave (.message message)).2 = ([], some [])) ∧
    (∀ message call id state, MethodCall.decode? message = some call →
      History.handler? behave past = some (id, state) →
      (c.step behave (.message message)).2 =
        (.called id call ::
            ((behave state call).commands.filterMap (ChannelCommand.effect? name) ++
              (failureOf (behave state call).outcome).toList.map fun e =>
                .logged (failureText name e)),
          some (match (behave state call).outcome with
            | .ok value => (CallResult.ok value).encode
            | .error .notImplemented => []
            | .error e => (CallResult.err "" e.message .null).encode))) ∧
    (∀ method args, (c.step behave (.command (.invoke method args))).2 =
      ([match args with
        | .ok args => .sent name (MethodCall.encode ⟨method, args⟩)
        | .error e => .logged (encodingFailureText method e)], none)) ∧
    ∀ (method : String) (tree : Json), tree.Proper →
      MethodCall.decode? (MethodCall.encode ⟨method, Value.ofJson tree⟩) =
        if (Value.ofJson tree).depth ≤ 126 then some ⟨method, Value.ofJson tree⟩ else none := by
  intro c past
  have h : Records behave name past c := (Records.start behave name).run events
  refine ⟨h.calls_step, fun message hcall => ?_, fun message call hcall hhandler => ?_,
    fun message call id state hcall hhandler => ?_, fun method args => ?_,
    fun method tree htree => ?_⟩
  · rw [step, receive_of_garbled hcall]
  · rw [step, receive_of_unhandled hcall (h.handler?_eq.trans hhandler)]
  · rw [(h.step_of_handled hcall hhandler).2, encode_ofOutcome]
  · rw [← h.name]
    cases args <;> rfl
  · rw [MethodCall.decode?_encode_eq, Value.finite_canonical_ofJson htree]

/-- Handlers that count their calls. A handler that was dropped is not called although it
    was attached last, and the one before it goes on counting once it is attached again. -/
theorem dispatch_follows_history_counting :
    let behave (count : Nat) (_ : MethodCall) : Conduct Nat :=
      ⟨.ok (.int (Int64.ofNat count)), count + 1, []⟩
    let message := MethodCall.encode ⟨"ping", .null⟩
    let before : List (ChannelEvent Nat) :=
      [.create 0 0, .command (.attach (some 0)), .message message, .create 1 5,
       .command (.attach (some 1)), .drop 1]
    ((Trace.final (Channel.step behave) (.start "echo") before).step behave (.message message)).2 =
        ([], some []) ∧
      ((Trace.final (Channel.step behave) (.start "echo")
          (before ++ [.command (.attach (some 0))])).step behave (.message message)).2 =
        ([.called 0 ⟨"ping", .null⟩], some (CallResult.ok (.int 1)).encode) := by
  intro behave message before
  have hcall : MethodCall.decode? message = some ⟨"ping", .null⟩ := by
    rw [MethodCall.decode?_encode_eq]
    rfl
  obtain ⟨-, -, hunhandled, -⟩ := dispatch_follows_history behave "echo" before
  obtain ⟨-, -, -, hhandled, -⟩ :=
    dispatch_follows_history behave "echo" (before ++ [.command (.attach (some 0))])
  refine ⟨hunhandled _ _ hcall (by decide +kernel), ?_⟩
  exact hhandled _ _ 0 1 hcall (by decide +kernel)

end Channel

end HostBridge
