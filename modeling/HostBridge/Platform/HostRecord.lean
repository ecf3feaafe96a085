import HostBridge.Platform.Host

/-!
# What the window was told last

The settings of a window, as the calls that were made to it leave them behind:
for each setting the last call counts, and a bar or a flag is what the last call
that names it has made of it. A setting that no call has touched is open.
-/

namespace HostBridge

/-- The settings of a window after some calls. -/
structure HostRecord where
  /-- Whether the content keeps clear of the system bars by itself. -/
  decorFits : Option Bool := none
  /-- The bars that were shown last. -/
  shown : InsetTypes := .empty
  /-- The bars that were hidden last. -/
  hidden : InsetTypes := .empty
  /-- How hidden bars may be brought back. -/
  behavior : Option BarsBehavior := none
  lightStatusBar : Option Bool := none
  lightNavigationBar : Option Bool := none
  statusColor : Option Color := none
  navigationColor : Option Color := none
  dividerColor : Option Color := none
  statusContrast : Option Bool := none
  navigationContrast : Option Bool := none
  /-- The flags that were added last. -/
  added : UInt32 := 0
  /-- The flags that were cleared last. -/
  cleared : UInt32 := 0
deriving DecidableEq

namespace HostRecord

/-- The settings after one more call. -/
def apply (r : HostRecord) : HostCall → HostRecord
  | .decorFits fits => { r with decorFits := some fits }
  | .showInsets types => { r with shown := r.shown.union types, hidden := r.hidden.diff types }
  | .hideInsets types => { r with shown := r.shown.diff types, hidden := r.hidden.union types }
  | .barsBehavior behavior => { r with behavior := some behavior }
  | .lightStatusBar light => { r with lightStatusBar := some light }
  | .lightNavigationBar light => { r with lightNavigationBar := some light }
  | .statusColor color => { r with statusColor := some color }
  | .navigationColor color => { r with navigationColor := some color }
  | .dividerColor color => { r with dividerColor := some color }
  | .statusContrast enforced => { r with statusContrast := some enforced }
  | .navigationContrast enforced => { r with navigationContrast := some enforced }
  | .addFlags flags => { r with added := r.added ||| flags, cleared := r.cleared &&& ~~~flags }
  | .clearFlags flags => { r with added := r.added &&& ~~~flags, cleared := r.cleared ||| flags }
  | _ => r

/-- The settings that a row of effects leaves behind. -/
def ofEffects (effects : List Effect) : HostRecord :=
  effects.foldl (fun r e => match e with | .host call => r.apply call | _ => r) {}

end HostRecord

end HostBridge
