import HostBridge.Value

/-!
# The shape of values

* `Value.depth` is how deep lists and maps are nested in what a value holds: 0
  for a scalar, one more than the deepest element for a list or a map. What a
  later write has replaced in a map does not count.
* `Value.finite` is the value with null in place of whatever is no finite
  number, and otherwise unchanged.
* `Value.Same` relates values with the same contents: the same associations in
  every map, whatever the order of the writes, and the same bits in every
  floating-point number.
-/

namespace HostBridge

namespace Value

mutual

/-- How deep lists and maps are nested in all that is written into a value. -/
def nesting : Value → Nat
  | .list elements => 1 + nestingOfElements elements
  | .map writes => 1 + nestingOfWrites writes
  | _ => 0
termination_by structural v => v

/-- The deepest nesting in the elements of a list. -/
def nestingOfElements : List Value → Nat
  | [] => 0
  | v :: vs => max (nesting v) (nestingOfElements vs)
termination_by structural vs => vs

/-- The deepest nesting in what is written into a map. -/
def nestingOfWrites : List (String × Value) → Nat
  | [] => 0
  | (_, v) :: ws => max (nesting v) (nestingOfWrites ws)
termination_by structural ws => ws

end

/-- How deep lists and maps are nested in what a value holds. -/
def depth (v : Value) : Nat := v.canonical.nesting

mutual

/-- The value with null in place of whatever is no finite number. -/
def finite : Value → Value
  | .float x => if x.isFinite then .float x else .null
  | .list elements => .list (finiteElements elements)
  | .map writes => .map (finiteWrites writes)
  | v => v
termination_by structural v => v

/-- The elements of a list with null in place of whatever is no finite
    number. -/
def finiteElements : List Value → List Value
  | [] => []
  | v :: vs => finite v :: finiteElements vs
termination_by structural vs => vs

/-- What is written into a map, with null in place of whatever is no finite
    number. -/
def finiteWrites : List (String × Value) → List (String × Value)
  | [] => []
  | (key, v) :: ws => (key, finite v) :: finiteWrites ws
termination_by structural ws => ws

end

/-- The two values have the same contents. -/
inductive Same : Value → Value → Prop
  /-- A value has its own contents. -/
  | refl (v : Value) : Same v v
  /-- The elements of the lists are the same one by one. -/
  | list {vs ws : List Value} (length_eq : vs.length = ws.length)
      (elements : ∀ (i : Nat) (v w : Value), vs[i]? = some v → ws[i]? = some w → Same v w) :
      Same (.list vs) (.list ws)
  /-- The maps have the same keys, and the same under each key. -/
  | map {vs ws : List (String × Value)}
      (keys : ∀ key, (Entries.last? key vs).isSome = (Entries.last? key ws).isSome)
      (values : ∀ (key : String) (v w : Value),
        Entries.last? key vs = some v → Entries.last? key ws = some w → Same v w) :
      Same (.map vs) (.map ws)

end Value

end HostBridge
