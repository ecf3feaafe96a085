import HostBridge.Platform.Wishes
import HostBridge.Proofs.Platform.Looks

/-!
# What calls mean for a window

A window is told many things; each of them is about the bars that are seen, about
the flags, about one setting, or about none of these. Here is what the calls of a
controller come to in each respect.

* `BarSetting.ofWindow?_foldl`: a setting is what the last call that names it has
  made of it;
* `Controller.bars_styleCalls`, `Controller.flags_styleCalls` and
  `Controller.ofWindow?_styleCalls`: a style;
* `Controller.refresh_eq`: to refresh the bars changes nothing of what is remembered;
* `Controller.causes_perform`: what may be done for a request;
* `Controller.perform_of_other`: requests that are not about the bars;
* `BarsWish.bars_layoutCalls`: bars that are shown and hidden.
-/

namespace HostBridge

/-! ## What calls mean for a window -/

namespace HostCall

/-- The call is about which bars are seen. -/
def isLayout : HostCall → Bool
  | .decorFits _ => true
  | .showInsets _ => true
  | .hideInsets _ => true
  | .barsBehavior _ => true
  | _ => false

/-- The call is about the flags of the window. -/
def isFlags : HostCall → Bool
  | .addFlags _ => true
  | .clearFlags _ => true
  | _ => false

/-- The call is about the bars: it lays them out, prepares the flags for them, or makes a
    setting. -/
def isBars : HostCall → Bool
  | .playClick => false
  | .haptic _ => false
  | .requestOrientation _ => false
  | .describeTask _ => false
  | .listenInsets => false
  | .backPressed => false
  | .finish => false
  | _ => true

end HostCall

namespace HostRecord

/-- What is known about the bars: whether the content keeps clear of them, which are
    shown and which hidden, and how hidden ones may be brought back. -/
def bars (r : HostRecord) : Option Bool × InsetTypes × InsetTypes × Option BarsBehavior :=
  (r.decorFits, r.shown, r.hidden, r.behavior)

/-- The flags that were added and those that were cleared. -/
def flags (r : HostRecord) : UInt32 × UInt32 := (r.added, r.cleared)

/-- What an effect means for a window. -/
def feel (r : HostRecord) : Effect → HostRecord
  | .host call => r.apply call
  | _ => r

@[simp] theorem foldl_feel_map_host (r : HostRecord) (calls : List HostCall) :
    (calls.map Effect.host).foldl feel r = calls.foldl apply r :=
  List.foldl_map

@[simp] theorem foldl_feel_map_fail (r : HostRecord) (logs : List String) :
    (logs.map Effect.fail).foldl feel r = r := by
  induction logs with
  | nil => rfl
  | cons text logs ih => exact ih

theorem bars_apply {call : HostCall} (h : call.isLayout = false) (r : HostRecord) :
    (r.apply call).bars = r.bars := by
  cases call <;> first | rfl | exact absurd h (by simp [HostCall.isLayout])

theorem flags_apply {call : HostCall} (h : call.isFlags = false) (r : HostRecord) :
    (r.apply call).flags = r.flags := by
  cases call <;> first | rfl | exact absurd h (by simp [HostCall.isFlags])

/-- Calls that leave something alone one by one leave it alone together. -/
theorem view_foldl {β : Type} {view : HostRecord → β} {calls : List HostCall}
    (h : ∀ call ∈ calls, ∀ r : HostRecord, view (r.apply call) = view r) (r : HostRecord) :
    view (calls.foldl apply r) = view r := by
  induction calls generalizing r with
  | nil => rfl
  | cons call calls ih =>
    obtain ⟨hcall, hcalls⟩ := List.forall_mem_cons.1 h
    exact (ih hcalls _).trans (hcall r)

end HostRecord

namespace BarSetting

/-- What a call makes of a setting. -/
def ofCall? : BarSetting → HostCall → Option SettingValue
  | .statusIcons, .lightStatusBar light => some (.flag light)
  | .statusColor, .statusColor color => some (.color color)
  | .statusContrast, .statusContrast enforced => some (.flag enforced)
  | .navigationIcons, .lightNavigationBar light => some (.flag light)
  | .navigationColor, .navigationColor color => some (.color color)
  | .dividerColor, .dividerColor color => some (.color color)
  | .navigationContrast, .navigationContrast enforced => some (.flag enforced)
  | _, _ => none

theorem ofWindow?_apply (s : BarSetting) (r : HostRecord) (call : HostCall) :
    s.ofWindow? (r.apply call) = (s.ofCall? call).or (s.ofWindow? r) := by
  cases s <;> cases call <;> rfl

/-- A setting is what the last call that names it has made of it. -/
theorem ofWindow?_foldl (s : BarSetting) (calls : List HostCall) (r : HostRecord) :
    s.ofWindow? (calls.foldl .apply r) =
      (calls.filterMap s.ofCall?).getLast?.or (s.ofWindow? r) := by
  induction calls generalizing r with
  | nil => rfl
  | cons call calls ih =>
    rw [List.foldl_cons, ih, ofWindow?_apply, ← Option.or_assoc]
    rcases hcall : s.ofCall? call with _ | value
    · rw [List.filterMap_cons_none hcall, Option.or_none]
    · rw [List.filterMap_cons_some hcall, List.getLast?_cons]
      cases (calls.filterMap s.ofCall?).getLast? <;> rfl

/-- The platform has the setting. -/
def isAllowed (caps : Capabilities) : BarSetting → Bool
  | .statusIcons => caps.statusBarStyle
  | .statusColor => caps.statusBarStyle
  | .statusContrast => caps.barContrast
  | .navigationIcons => caps.navigationBarStyle
  | .navigationColor => caps.navigationBarStyle
  | .dividerColor => caps.dividerColor
  | .navigationContrast => caps.barContrast

theorem isAllowed_ofLevel (s : BarSetting) (level : Nat) :
    s.isAllowed (.ofLevel level) = decide (s.level ≤ level) := by
  cases s <;> rfl

end BarSetting

/-! ## The calls of a controller -/

namespace Controller

/-- The calls that prepare a window of an old platform for a style. -/
def flagCalls (caps : Capabilities) : List HostCall :=
  if caps.legacyBarFlags then [.addFlags drawsBarBackgrounds, .clearFlags translucentBars] else []

/-- The calls that make the settings of a style. -/
def settingCalls (caps : Capabilities) (style : BarsStyle) : List HostCall :=
  setting caps.statusBarStyle style.statusIcons (fun b => .lightStatusBar (b == .dark)) ++
  setting caps.statusBarStyle style.statusColor .statusColor ++
  setting caps.barContrast style.statusContrast .statusContrast ++
  setting caps.navigationBarStyle style.navigationIcons
    (fun b => .lightNavigationBar (b == .dark)) ++
  setting caps.navigationBarStyle style.navigationColor .navigationColor ++
  setting caps.dividerColor style.dividerColor .dividerColor ++
  setting caps.barContrast style.navigationContrast .navigationContrast

theorem styleCalls_eq (caps : Capabilities) (style : BarsStyle) :
    styleCalls caps style = flagCalls caps ++ settingCalls caps style := by
  simp only [styleCalls, flagCalls, settingCalls, List.append_assoc]

theorem forall_mem_setting {α : Type} {allowed : Bool} {value : Option α} {call : α → HostCall}
    {P : HostCall → Prop} (h : ∀ a, P (call a)) : ∀ c ∈ setting allowed value call, P c := by
  intro c hc
  rw [setting] at hc
  split at hc
  · obtain ⟨a, _, rfl⟩ := Option.map_eq_some_iff.1 (Option.mem_toList.1 hc)
    exact h a
  · exact absurd hc List.not_mem_nil

theorem filterMap_setting {α : Type} (allowed : Bool) (value : Option α) (call : α → HostCall)
    (f : HostCall → Option SettingValue) : (setting allowed value call).filterMap f =
      if allowed then (value.bind fun a => f (call a)).toList else [] := by
  rw [setting]
  split
  · rcases value with _ | a
    · rfl
    · cases h : f (call a) <;> simp [h]
  · rfl

theorem isLayout_settingCalls (caps : Capabilities) (style : BarsStyle) :
    ∀ call ∈ settingCalls caps style, call.isLayout = false ∧ call.isFlags = false := by
  simp only [settingCalls, List.forall_mem_append]
  refine ⟨⟨⟨⟨⟨⟨?_, ?_⟩, ?_⟩, ?_⟩, ?_⟩, ?_⟩, ?_⟩ <;> exact forall_mem_setting fun _ => ⟨rfl, rfl⟩

/-- A style is about the bars. -/
theorem isBars_styleCalls (caps : Capabilities) (style : BarsStyle) :
    ∀ call ∈ styleCalls caps style, call.isBars = true := by
  rw [styleCalls_eq, List.forall_mem_append]
  constructor
  · rw [flagCalls]
    split <;> simp [HostCall.isBars]
  · simp only [settingCalls, List.forall_mem_append]
    refine ⟨⟨⟨⟨⟨⟨?_, ?_⟩, ?_⟩, ?_⟩, ?_⟩, ?_⟩, ?_⟩ <;> exact forall_mem_setting fun _ => rfl

/-- A style makes of a setting what it gives for it, if the platform has the
    setting. -/
theorem filterMap_settingCalls (caps : Capabilities) (style : BarsStyle) (s : BarSetting) :
    (settingCalls caps style).filterMap s.ofCall? =
      if s.isAllowed caps then (s.ofStyle? style).toList else [] := by
  have hmap : ∀ {α : Type} (value : Option α) (f : α → SettingValue),
      (value.bind fun a => some (f a)) = value.map f := fun value f => by cases value <;> rfl
  cases s <;> simp only [settingCalls, List.filterMap_append, filterMap_setting, BarSetting.ofCall?,
    Option.bind_fun_none, Option.toList_none, ite_self, List.nil_append, List.append_nil, hmap,
    BarSetting.isAllowed, BarSetting.ofStyle?] <;> rfl

variable (caps : Capabilities) (style : BarsStyle) (r : HostRecord)

/-- A style does not show or hide bars. -/
theorem bars_styleCalls : ((styleCalls caps style).foldl HostRecord.apply r).bars = r.bars := by
  refine HostRecord.view_foldl (fun call hcall => HostRecord.bars_apply ?_) r
  rw [styleCalls_eq] at hcall
  rcases List.mem_append.1 hcall with hflags | hsettings
  · rw [flagCalls] at hflags
    split at hflags
    · rcases List.mem_cons.1 hflags with rfl | hflags
      · rfl
      · rw [List.mem_singleton.1 hflags]
        rfl
    · exact absurd hflags List.not_mem_nil
  · exact (isLayout_settingCalls caps style call hsettings).1

/-- A style sets the flags that an old platform needs. -/
theorem flags_styleCalls : ((styleCalls caps style).foldl HostRecord.apply r).flags =
    ((flagCalls caps).foldl HostRecord.apply r).flags := by
  rw [styleCalls_eq, List.foldl_append]
  exact HostRecord.view_foldl
    (fun call hcall => HostRecord.flags_apply (isLayout_settingCalls caps style call hcall).2) _

/-- A style makes the settings that it gives, if the platform has them. -/
theorem ofWindow?_styleCalls (s : BarSetting) :
    s.ofWindow? ((styleCalls caps style).foldl HostRecord.apply r) =
      (if s.isAllowed caps then s.ofStyle? style else none).or (s.ofWindow? r) := by
  have hflags : (flagCalls caps).filterMap s.ofCall? = [] := by
    rw [flagCalls]
    split <;> cases s <;> rfl
  rw [BarSetting.ofWindow?_foldl, styleCalls_eq, List.filterMap_append, hflags, List.nil_append,
    filterMap_settingCalls]
  split
  · rcases s.ofStyle? style with _ | value <;> rfl
  · rfl

variable (l : BarsLayout)

theorem flags_layoutCalls : ((layoutCalls l).foldl HostRecord.apply r).flags = r.flags := rfl

theorem ofWindow?_layoutCalls (s : BarSetting) :
    s.ofWindow? ((layoutCalls l).foldl HostRecord.apply r) = s.ofWindow? r := by
  cases s <;> rfl

end Controller

/-! ## Bars that are brought into the state that was asked for last -/

namespace Controller

/-- The calls that bring the bars into the state that was asked for last. -/
def refreshCalls (c : Controller) : List HostCall :=
  layoutCalls c.bars.layout ++ (c.style.map (styleCalls c.capabilities)).getD []

/-- The style that is applied again is remembered already. -/
theorem refresh_eq (c : Controller) : c.refresh = (c, c.refreshCalls) := by
  obtain ⟨capabilities, bars, style⟩ := c
  cases style with
  | none => exact congrArg (Prod.mk _) (List.append_nil _).symm
  | some style => rfl

theorem isBars_refreshCalls (c : Controller) : ∀ call ∈ c.refreshCalls, call.isBars = true := by
  rw [refreshCalls, List.forall_mem_append]
  refine ⟨by simp [layoutCalls, HostCall.isBars], ?_⟩
  rcases c.style with _ | style
  · exact List.forall_mem_nil _
  · exact isBars_styleCalls c.capabilities style

end Controller

theorem Plugin.refresh_eq (p : Plugin) :
    p.refresh = (p, p.controller.refreshCalls.map .host) := by
  rw [refresh, Controller.refresh_eq]

/-! ## What requests cause -/

/-- What may be done for a request. -/
inductive Request.Causes : Request → Effect → Prop
  | click (sound : Sound) : Causes (.playSound sound) (.host .playClick)
  | haptic (kind : Haptic) (feedback : HapticConstant) :
      Causes (.vibrate kind) (.host (.haptic feedback))
  | orientation (orientations : List Orientation) : Causes (.orient orientations)
      (.host (.requestOrientation (.forRequest orientations)))
  | description (switcher : Switcher) (description : TaskDescription) :
      Causes (.describe switcher) (.host (.describeTask description))
  | bars {request : Request} {call : HostCall}
      (about : request.arranges = true ∨ request.style?.isSome = true)
      (isBars : call.isBars = true) : Causes request (.host call)
  | insets : Causes .watchBars (.host .listenInsets)
  | question : Causes .leave .askDelegate
  | back : Causes .leave (.host .backPressed)
  | finish : Causes .leave (.host .finish)
  | look (format : Option ClipFormat) {effect : Effect} (looks : effect.looks = true) :
      Causes (.readClipboard format) effect
  | clip (text : String) : Causes (.writeClipboard text) (.writeClip (.plain "text" text))

namespace Controller

/-- A request causes nothing else. -/
theorem causes_perform (env : Surroundings) (c : Controller) (request : Request) :
    ∀ effect ∈ (c.perform env request).2.1, request.Causes effect := by
  cases request with
  | playSound sound =>
    rw [perform]
    split
    · exact List.forall_mem_singleton.2 (.click sound)
    · exact List.forall_mem_nil _
  | vibrate kind =>
    rw [perform]
    rcases hapticConstant? c.capabilities kind with _ | feedback
    · exact List.forall_mem_nil _
    · exact List.forall_mem_singleton.2 (.haptic kind feedback)
  | orient orientations => exact List.forall_mem_singleton.2 (.orientation orientations)
  | describe switcher =>
    rw [perform]
    rcases TaskDescription.ofSwitcher? c.capabilities.taskDescription switcher with _ | description
    · exact List.forall_mem_nil _
    · exact List.forall_mem_singleton.2 (.description switcher description)
  | showOverlays overlays | enterMode mode | restoreBars =>
    simp only [perform, refresh_eq]
    exact List.forall_mem_map.2 fun call hcall =>
      .bars (.inl rfl) (isBars_refreshCalls _ call hcall)
  | watchBars => exact List.forall_mem_singleton.2 .insets
  | styleBars style =>
    exact List.forall_mem_map.2 fun call hcall =>
      .bars (.inr rfl) (isBars_styleCalls c.capabilities style call hcall)
  | leave =>
    have hfallback : Request.Causes .leave
        (.host (if env.backDispatcher then .backPressed else .finish)) := by
      split
      · exact .back
      · exact .finish
    rw [perform, leave]
    rcases env.delegate with _ | _ | _
    · exact List.forall_mem_singleton.2 hfallback
    · exact List.forall_mem_cons.2 ⟨.question, List.forall_mem_singleton.2 hfallback⟩
    · exact List.forall_mem_singleton.2 .question
  | readClipboard format =>
    exact fun effect heffect => .look format (looks_of_mem_clipboardText env effect heffect)
  | writeClipboard text => exact List.forall_mem_singleton.2 (.clip text)
  | probeClipboard => exact List.forall_mem_nil _

end Controller

/-! ## Requests that are not about the bars -/

/-- Effects that mean nothing for a window one by one mean nothing together. -/
theorem HostRecord.foldl_feel_of_fixed {r : HostRecord} {effects : List Effect}
    (h : ∀ effect ∈ effects, r.feel effect = r) : effects.foldl HostRecord.feel r = r := by
  induction effects with
  | nil => rfl
  | cons effect effects ih =>
    obtain ⟨heffect, heffects⟩ := List.forall_mem_cons.1 h
    rw [List.foldl_cons, heffect, ih heffects]

namespace Request

variable {request : Request}

/-- What a request causes that is not about the bars means nothing for the window. -/
theorem Causes.feel_eq {effect : Effect} (h : request.Causes effect)
    (harranges : request.arranges = false) (hstyle : request.style? = none) (r : HostRecord) :
    r.feel effect = r := by
  cases h with
  | bars about => simp [harranges, hstyle] at about
  | look format looks => cases effect <;> first | rfl | exact absurd looks Bool.false_ne_true
  | _ => rfl

end Request

namespace Controller

variable (env : Surroundings) (r : HostRecord)

/-- A request that is not about the bars leaves the controller and the window as they
    are. -/
theorem perform_of_other {request : Request} (harranges : request.arranges = false)
    (hstyle : request.style? = none) (c : Controller) :
    (c.perform env request).1 = c ∧ (c.perform env request).2.1.foldl HostRecord.feel r = r := by
  constructor
  · cases request with
    | showOverlays overlays => exact absurd harranges (by simp [Request.arranges])
    | enterMode mode => exact absurd harranges (by simp [Request.arranges])
    | restoreBars => exact absurd harranges (by simp [Request.arranges])
    | styleBars style => exact absurd hstyle (by simp [Request.style?])
    | _ => rfl
  · exact HostRecord.foldl_feel_of_fixed fun effect heffect =>
      (causes_perform env c request effect heffect).feel_eq harranges hstyle r

end Controller

/-! ## Requests that arrange the bars -/

namespace InsetTypes

/-- What was shown of the bars before does not matter once all bars are shown or
    hidden. -/
theorem union_diff_ofBars (a b status navigation : Bool) :
    ((ofBars a b).union (ofBars status navigation)).diff (ofBars (!status) (!navigation)) =
      ofBars status navigation := by
  cases a <;> cases b <;> cases status <;> cases navigation <;> rfl

/-- What was hidden of the bars before does not matter either. -/
theorem diff_union_ofBars (a b status navigation : Bool) :
    ((ofBars a b).diff (ofBars status navigation)).union (ofBars (!status) (!navigation)) =
      ofBars (!status) (!navigation) := by
  cases a <;> cases b <;> cases status <;> cases navigation <;> rfl

end InsetTypes

namespace BarsWish

/-- What is done to the bars for a wish. -/
def layout (w : BarsWish) : BarsLayout := ⟨w.shown, w.hidden, w.behavior⟩

theorem layout_ofMode (mode : BarsMode) : (BarsRequest.mode mode).layout = (ofMode mode).layout := by
  cases mode <;> rfl

theorem layout_ofOverlays (overlays : List Overlay) :
    (BarsRequest.ofOverlays overlays).layout = (ofOverlays overlays).layout := by
  have hcontains : ∀ bar, overlays.contains bar = decide (bar ∈ overlays) :=
    fun _ => List.contains_eq_mem ..
  rw [BarsRequest.ofOverlays, ofOverlays, hcontains, hcontains]
  cases decide (Overlay.top ∈ overlays) <;> cases decide (Overlay.bottom ∈ overlays) <;> rfl

/-- A wish says everything about the bars, whichever of them were shown or hidden
    before. -/
theorem bars_layoutCalls (w : BarsWish) {r : HostRecord} {a b c d : Bool}
    (hshown : r.shown = .ofBars a b) (hhidden : r.hidden = .ofBars c d) :
    ((Controller.layoutCalls w.layout).foldl HostRecord.apply r).bars =
      (some false, w.shown, w.hidden, some w.behavior) := by
  have hs : (r.shown.union w.shown).diff w.hidden = w.shown := by
    rw [hshown]
    exact InsetTypes.union_diff_ofBars a b w.status w.navigation
  have hh : (r.hidden.diff w.shown).union w.hidden = w.hidden := by
    rw [hhidden]
    exact InsetTypes.diff_union_ofBars c d w.status w.navigation
  change (some false, (r.shown.union w.shown).diff w.hidden, (r.hidden.diff w.shown).union w.hidden,
    some w.behavior) = _
  rw [hs, hh]

end BarsWish

end HostBridge
