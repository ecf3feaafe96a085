/-!
# Kinds of insets

What takes space at the edges of a window is of eight known kinds, one bit
each. A set of kinds is a word of 32 bits, which may hold unknown bits too.

The unknown bits of a set always go together: `keys` lists the known bits of a
set one by one and then, if there are any, all unknown bits as one.
-/

namespace HostBridge

/-- A set of kinds of insets. -/
structure InsetTypes where
  /-- One bit for each kind. -/
  bits : UInt32
deriving DecidableEq, Inhabited

namespace InsetTypes

/-- No kind. -/
def empty : InsetTypes := ⟨0⟩

/-- The status bar. -/
def statusBars : InsetTypes := ⟨1⟩

/-- The navigation bar. -/
def navigationBars : InsetTypes := ⟨2⟩

/-- The on-screen keyboard. -/
def keyboard : InsetTypes := ⟨8⟩

/-- The known kinds: status bars, navigation bars, caption bar, keyboard, system
    gestures, mandatory system gestures, tappable elements, display cutout. -/
def known : List UInt32 := [1, 2, 4, 8, 16, 32, 64, 128]

/-- The bits of all known kinds. -/
def knownBits : UInt32 := 0xFF

/-- The kinds of both sets. -/
def union (a b : InsetTypes) : InsetTypes := ⟨a.bits ||| b.bits⟩

/-- The kinds of `a` that are not in `b`. -/
def diff (a b : InsetTypes) : InsetTypes := ⟨a.bits &&& ~~~b.bits⟩

/-- Every kind of `b` is in `a`. -/
def contains (a b : InsetTypes) : Bool := a.bits &&& b.bits == b.bits

/-- Some kind is in both sets. -/
def intersects (a b : InsetTypes) : Bool := a.bits &&& b.bits != 0

/-- The keys of a set: each known bit by itself, and the unknown bits as one. -/
def keys (types : InsetTypes) : List UInt32 :=
  let unknown := types.bits &&& ~~~knownBits
  known.filter (fun bit => types.bits &&& bit != 0) ++ if unknown = 0 then [] else [unknown]

/-- The system bars that the application can show and hide. -/
def bars : InsetTypes := statusBars.union navigationBars

end InsetTypes

end HostBridge
