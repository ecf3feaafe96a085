import HostBridge.Typed.Choice
import HostBridge.Window.InsetTypes

/-!
# System bars

An application asks for a named mode or lists the bars that it wants to see.
`BarsRequest.layout` says what either means for the two bars: which are shown,
which are hidden, and how the user may bring hidden ones back.
-/

namespace HostBridge

/-- A bar that an application can ask for. -/
inductive Overlay
  | top
  | bottom
deriving DecidableEq

namespace Overlay

/-- The names of the bars. -/
def choice : Choice Overlay where
  type := "SystemUiOverlay"
  named := [("SystemUiOverlay.top", .top), ("SystemUiOverlay.bottom", .bottom)]

end Overlay

/-- A named mode of the bars. -/
inductive BarsMode
  /-- Hidden until the screen is touched. -/
  | leanBack
  /-- Hidden until the user swipes. -/
  | immersive
  /-- Hidden, and shown for a moment when the user swipes. -/
  | immersiveSticky
  /-- Shown above the application. -/
  | edgeToEdge
deriving DecidableEq

namespace BarsMode

/-- The names of the modes. -/
def choice : Choice BarsMode where
  type := "SystemUiMode"
  named :=
    [("SystemUiMode.leanBack", .leanBack),
     ("SystemUiMode.immersive", .immersive),
     ("SystemUiMode.immersiveSticky", .immersiveSticky),
     ("SystemUiMode.edgeToEdge", .edgeToEdge)]

end BarsMode

/-- How the user may bring hidden bars back. -/
inductive BarsBehavior
  /-- By a touch. -/
  | touch
  /-- By a swipe. -/
  | swipe
  /-- By a swipe, for a moment. -/
  | transientSwipe
deriving DecidableEq

namespace BarsBehavior

/-- The number by which the platform knows a behavior. -/
def code : BarsBehavior → Nat
  | .touch => 0
  | .swipe => 1
  | .transientSwipe => 2

end BarsBehavior

/-- What an application has asked for. -/
inductive BarsRequest
  /-- A named mode. -/
  | mode (mode : BarsMode)
  /-- The bars it wants to see. -/
  | overlays (top bottom : Bool)
deriving DecidableEq

/-- What is done to the bars. -/
structure BarsLayout where
  /-- The bars that are shown. -/
  shown : InsetTypes
  /-- The bars that are hidden. -/
  hidden : InsetTypes
  /-- How hidden bars may be brought back. -/
  behavior : BarsBehavior
deriving DecidableEq

namespace BarsRequest

/-- The request before any is made. -/
def initial : BarsRequest := .mode .edgeToEdge

/-- The request for a list of bars. -/
def ofOverlays (overlays : List Overlay) : BarsRequest :=
  .overlays (overlays.contains .top) (overlays.contains .bottom)

/-- The bars that a request hides, and how they may be brought back. -/
def hidden : BarsRequest → InsetTypes × BarsBehavior
  | .overlays top bottom =>
    let bars := if top then InsetTypes.bars.diff .statusBars else .bars
    let bars := if bottom then bars.diff .navigationBars else bars
    (bars, .transientSwipe)
  | .mode .edgeToEdge => (.empty, .touch)
  | .mode .immersive => (.bars, .swipe)
  | .mode .immersiveSticky => (.bars, .transientSwipe)
  | .mode .leanBack => (.bars, .touch)

/-- What a request means for the bars. A bar that is not hidden is shown. -/
def layout (r : BarsRequest) : BarsLayout :=
  ⟨InsetTypes.bars.diff r.hidden.1, r.hidden.1, r.hidden.2⟩

end BarsRequest

end HostBridge
