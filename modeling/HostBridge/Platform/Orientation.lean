import HostBridge.Typed.Choice

/-!
# Screen orientation

An application asks for a list of orientations of the device, but a window can
only be given one of nine settings. The orientations that are listed are
gathered as the bits of a mask, and `ScreenOrientation.forRequest` gives the
setting for the mask, if there is one, and otherwise the one that admits only the
first orientation in the list.
-/

namespace HostBridge

/-- How a device is held. -/
inductive Orientation
  | portraitUp
  | portraitDown
  | landscapeLeft
  | landscapeRight
deriving DecidableEq

namespace Orientation

/-- The names of the orientations. -/
def choice : Choice Orientation where
  type := "DeviceOrientation"
  named :=
    [("DeviceOrientation.portraitUp", .portraitUp),
     ("DeviceOrientation.portraitDown", .portraitDown),
     ("DeviceOrientation.landscapeLeft", .landscapeLeft),
     ("DeviceOrientation.landscapeRight", .landscapeRight)]

/-- The bit of an orientation in a mask. -/
def bit : Orientation → UInt8
  | .portraitUp => 0x01
  | .landscapeLeft => 0x02
  | .portraitDown => 0x04
  | .landscapeRight => 0x08

/-- The mask of a list of orientations. -/
def mask (orientations : List Orientation) : UInt8 :=
  orientations.foldl (fun mask o => mask ||| o.bit) 0

end Orientation

/-- The setting of a window. -/
inductive ScreenOrientation
  | unspecified
  | landscape
  | portrait
  /-- Any orientation but the portrait upside down. -/
  | user
  | reverseLandscape
  | reversePortrait
  | userLandscape
  | userPortrait
  | fullUser
deriving DecidableEq

namespace ScreenOrientation

/-- The number by which the platform knows a setting. -/
def code : ScreenOrientation → Int
  | .unspecified => -1
  | .landscape => 0
  | .portrait => 1
  | .user => 2
  | .reverseLandscape => 8
  | .reversePortrait => 9
  | .userLandscape => 11
  | .userPortrait => 12
  | .fullUser => 13

/-- The orientations that a setting admits. -/
def admits : ScreenOrientation → List Orientation
  | .unspecified => []
  | .landscape => [.landscapeLeft]
  | .portrait => [.portraitUp]
  | .user => [.portraitUp, .landscapeLeft, .landscapeRight]
  | .reverseLandscape => [.landscapeRight]
  | .reversePortrait => [.portraitDown]
  | .userLandscape => [.landscapeLeft, .landscapeRight]
  | .userPortrait => [.portraitUp, .portraitDown]
  | .fullUser => [.portraitUp, .portraitDown, .landscapeLeft, .landscapeRight]

/-- The setting that admits only the given orientation. -/
def only : Orientation → ScreenOrientation
  | .portraitUp => .portrait
  | .portraitDown => .reversePortrait
  | .landscapeLeft => .landscape
  | .landscapeRight => .reverseLandscape

/-- The setting for the orientations of a mask, if there is one. -/
def ofMask? : UInt8 → Option ScreenOrientation
  | 0x00 => some .unspecified
  | 0x01 => some .portrait
  | 0x02 => some .landscape
  | 0x04 => some .reversePortrait
  | 0x05 => some .userPortrait
  | 0x08 => some .reverseLandscape
  | 0x0A => some .userLandscape
  | 0x0B => some .user
  | 0x0F => some .fullUser
  | _ => none

/-- The setting for a list of orientations. -/
def forRequest (orientations : List Orientation) : ScreenOrientation :=
  (ofMask? (Orientation.mask orientations)).getD
    ((orientations.head?.map only).getD .portrait)

end ScreenOrientation

end HostBridge
