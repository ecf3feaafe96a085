import HostBridge.Table
import HostBridge.Window.InsetTypes

/-!
# Window insets

A snapshot of what takes space at the edges of a window: the insets of each
kind, the kinds that are visible, and a mark for insets that somebody has dealt
with and that are not to be passed on.

Snapshots are built by edits, of which the last one counts for each key
(`InsetTypes.keys`) and each visible bit. Asked about several kinds at once, a
snapshot answers with the greatest inset at each edge (`insetsOf`), and with
whether all of them are visible (`isVisible`).
-/

namespace HostBridge

/-- The space taken at the four edges. -/
structure Insets where
  left : Int32
  top : Int32
  right : Int32
  bottom : Int32
deriving DecidableEq, Inhabited

namespace Insets

/-- No space at any edge. -/
def none : Insets := ⟨0, 0, 0, 0⟩

/-- The greater space at each edge. -/
def union (a b : Insets) : Insets :=
  ⟨max a.left b.left, max a.top b.top, max a.right b.right, max a.bottom b.bottom⟩

end Insets

/-- A snapshot of the insets of a window. -/
structure WindowInsets where
  /-- The insets under each key. -/
  insets : Table UInt32 Insets
  /-- The kinds that are visible. -/
  visible : InsetTypes
  /-- The insets are not to be passed on. -/
  consumed : Bool
deriving DecidableEq, Inhabited

namespace WindowInsets

/-- One change of a snapshot. -/
inductive Edit
  /-- Sets the insets under every key of `types`. -/
  | insets (types : InsetTypes) (value : Insets)
  /-- Shows or hides all bits of `types`. -/
  | visible (types : InsetTypes) (shown : Bool)
deriving DecidableEq

/-- The snapshot without insets. -/
def empty : WindowInsets := ⟨.empty, .empty, false⟩

/-- The snapshot that stands for insets somebody has dealt with. -/
def handled : WindowInsets := ⟨.empty, .empty, true⟩

/-- The snapshot after one change. -/
def apply (w : WindowInsets) : Edit → WindowInsets
  | .insets types value =>
    { w with insets := types.keys.foldl (fun table key => table.put key value) w.insets }
  | .visible types shown =>
    { w with visible := if shown then w.visible.union types else w.visible.diff types }

/-- The snapshot after the given changes, to be passed on again. -/
def edit (w : WindowInsets) (edits : List Edit) : WindowInsets :=
  edits.foldl apply { w with consumed := false }

/-- The greatest space that the given kinds take at each edge. -/
def insetsOf (w : WindowInsets) (types : InsetTypes) : Insets :=
  (types.keys.filterMap w.insets.get?).foldl Insets.union Insets.none

/-- All given kinds are visible. -/
def isVisible (w : WindowInsets) (types : InsetTypes) : Bool := w.visible.contains types

end WindowInsets

end HostBridge
