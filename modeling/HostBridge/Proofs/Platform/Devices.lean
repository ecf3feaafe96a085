import HostBridge.Platform.Life
import HostBridge.Simulation.Device

/-!
# A device as the surroundings of a session

A device keeps the surroundings of a session in memory. As long as its application
does not react to messages, what happens to the device is what happens to the
session: the session afterwards is the same, and what is seen are the effects and
the messages of the session (`Simulation.Device.step_of_event`).
-/

namespace HostBridge

theorem Session.destroy_of_dropped {s : Session} (h : s.plugin = none) : s.destroy = s := by
  obtain ⟨plugin, listening, notices⟩ := s
  obtain rfl : plugin = none := h
  rfl

namespace Simulation

/-- What a step of a device means for its session. Most of the others only change
    what the surroundings will say. -/
def DeviceStep.event? (d : Device) : DeviceStep → Option SessionEvent
  | .message bytes => some (.plugin (.message d.surroundings bytes))
  | .refresh => some (.plugin .refresh)
  | .destroy => some .destroy
  | .drop => some .drop
  | .insets reported => some (.insets Device.clock reported)
  | .frame => some (.frame (Device.clock + 1))
  | .framePast => some (.frame (Device.clock - 1))
  | _ => none

/-- What is seen of an event in a session at a device. -/
def DeviceEvent.ofOutcome (o : SessionOutcome) : List DeviceEvent :=
  o.effects.map .effect ++ o.sent.flatMap ofChannel

namespace Device

/-- The application does not react to messages. -/
def Quiet (d : Device) : Prop := d.reaction = ⟨none, none⟩

variable {d : Device}

/-- The effects of a message change the surroundings, not the session. -/
theorem session_foldl_apply (d : Device) (effects : List Effect) :
    (effects.foldl apply d).session = d.session := by
  induction effects generalizing d with
  | nil => rfl
  | cons effect effects ih =>
    rw [List.foldl_cons, ih]
    cases effect <;> rfl

/-- What the channel of the plugin does is seen, and nothing else happens. -/
theorem carry_of_quiet (h : d.Quiet) (call : ChannelEffect) :
    d.carry call = (d, DeviceEvent.ofChannel call) := by
  have hreact : d.react = (d, []) := by
    obtain ⟨session, delegate, dispatcher, clip, claims, hides, clipError, uriError, reaction⟩ := d
    obtain rfl : reaction = ⟨none, none⟩ := h
    rfl
  cases call with
  | sent channel message =>
    rw [carry, hreact]
    rfl
  | _ => rfl

/-- A notice that is sent. -/
theorem notify_of_quiet (h : d.Quiet) (visible : Bool) (events : List DeviceEvent) :
    notify visible (d, events) =
      (d, events ++ (d.session.notify visible).toList.flatMap DeviceEvent.ofChannel) := by
  rw [notify]
  rcases d.session.notify visible with _ | call
  · rw [Option.toList_none, List.flatMap_nil, List.append_nil]
  · dsimp only
    rw [carry_of_quiet h, Option.toList_some, List.flatMap_singleton]

/-- Notices that are sent one after the other. -/
theorem foldl_notify_of_quiet (h : d.Quiet) (due : List Bool) (events : List DeviceEvent) :
    due.foldl (fun x visible => notify visible x) (d, events) =
      (d, events ++ (due.flatMap fun visible => (d.session.notify visible).toList).flatMap
        DeviceEvent.ofChannel) := by
  induction due generalizing events with
  | nil => simp
  | cons visible due ih =>
    rw [List.foldl_cons, notify_of_quiet h, ih, List.flatMap_cons, List.flatMap_append,
      List.append_assoc]

/-- A turn of the loop. -/
theorem frame_of_quiet (h : d.Quiet) (now : Int) :
    (d.frame now).1.session = (d.session.frame now).1 ∧
      (d.frame now).2.1 = (d.session.frame now).2.flatMap DeviceEvent.ofChannel := by
  have hturn : ({ d with session :=
      { d.session with notices := (d.session.notices.takeDue now).2 } } : Device).Quiet := h
  simp only [frame, TaskQueue.execute]
  rw [foldl_notify_of_quiet hturn, Session.frame_eq]
  exact ⟨rfl, rfl⟩

/-- What happens to a device whose application does not react is what happens to its
    session. -/
theorem step_of_event (h : d.Quiet) {t : DeviceStep} {event : SessionEvent}
    (ht : t.event? d = some event) :
    (d.step t).1.session = (d.session.step event).1 ∧
      (d.step t).2.1 = DeviceEvent.ofOutcome (d.session.step event).2 := by
  cases t with
  | message bytes =>
    obtain rfl := Option.some.inj ht
    simp only [step, Session.step, receive]
    rcases d.session.receive d.surroundings bytes with _ | ⟨session, effects, reply⟩
    · exact ⟨rfl, rfl⟩
    · refine ⟨session_foldl_apply _ effects, ?_⟩
      exact (List.append_nil _).symm
  | refresh =>
    obtain rfl := Option.some.inj ht
    simp only [step, Session.step, refresh]
    rcases d.session.refresh with _ | ⟨session, effects⟩
    · exact ⟨rfl, rfl⟩
    · refine ⟨rfl, ?_⟩
      exact (List.append_nil _).symm
  | destroy =>
    obtain rfl := Option.some.inj ht
    simp only [step, Session.step]
    rcases hp : d.session.plugin with _ | p
    · rw [Session.destroy_of_dropped hp]
      exact ⟨rfl, rfl⟩
    · exact ⟨rfl, rfl⟩
  | drop =>
    obtain rfl := Option.some.inj ht
    exact ⟨rfl, rfl⟩
  | insets insets =>
    obtain rfl := Option.some.inj ht
    exact ⟨rfl, rfl⟩
  | frame =>
    obtain rfl := Option.some.inj ht
    exact frame_of_quiet h _
  | framePast =>
    obtain rfl := Option.some.inj ht
    exact frame_of_quiet h _
  | _ => exact absurd ht (by simp [DeviceStep.event?])

end Device

end Simulation

end HostBridge
