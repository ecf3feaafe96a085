import HostBridge.Window.Insets

/-!
# A collection of snapshots

One snapshot of the insets of a window is at hand, to be edited and asked; any
number of earlier ones is kept in slots.
-/

namespace HostBridge

namespace Simulation

/-- The snapshot at hand, and those that are kept. -/
structure Snapshots where
  current : WindowInsets := .empty
  slots : List WindowInsets := []

/-- A step with the snapshots. -/
inductive SnapshotStep
  /-- Puts another snapshot at hand. -/
  | replace (insets : WindowInsets)
  /-- Edits the snapshot at hand. -/
  | edit (edits : List WindowInsets.Edit)
  /-- Asks for the insets of some kinds. -/
  | insets (types : InsetTypes)
  /-- Asks whether all of some kinds are visible. -/
  | visible (types : InsetTypes)
  /-- Keeps the snapshot at hand in a new slot. -/
  | save
  /-- Puts the snapshot of a slot at hand. -/
  | load (slot : Nat)
  /-- Compares the snapshot at hand with the one of a slot. -/
  | compare (slot : Nat)

/-- The answer to a step. -/
inductive SnapshotAnswer
  | snapshot (insets : WindowInsets)
  | insets (insets : Insets)
  | truth (value : Bool)
  | slot (slot : Nat)

namespace Snapshots

/-- Puts a snapshot at hand and shows it. -/
def present (s : Snapshots) (insets : WindowInsets) : Snapshots × SnapshotAnswer :=
  ({ s with current := insets }, .snapshot insets)

/-- The snapshots after a step, and the answer. -/
def step (s : Snapshots) : SnapshotStep → Snapshots × SnapshotAnswer
  | .replace insets => s.present insets
  | .edit edits => s.present (s.current.edit edits)
  | .insets types => (s, .insets (s.current.insetsOf types))
  | .visible types => (s, .truth (s.current.isVisible types))
  | .save => ({ s with slots := s.slots ++ [s.current] }, .slot s.slots.length)
  | .load slot => s.present (s.slots.getD slot s.current)
  | .compare slot => (s, .truth (s.slots[slot]? == some s.current))

end Snapshots

end Simulation

end HostBridge
