import HostBridge.Window.InsetTypes

/-!
# Bits and keys of sets of kinds

A set of kinds is given by its bits (`InsetTypes.ext_bit`). What it is stored under
are its keys: a known bit is a key of its own, but all unknown bits are one key
together. So a set and a part of it need not have a key in common, if the bits of the
part are unknown. These facts remain:

* sets without a common bit have no common key (`InsetTypes.not_mem_keys`);
* the keys of a known part are keys of the whole (`InsetTypes.mem_keys_of_contains`);
* the keys of a union of known sets are those of both (`InsetTypes.mem_keys_union`);
* what sets with no common key have in common are unknown bits
  (`InsetTypes.unknown_of_disjoint`).
-/

namespace HostBridge

namespace InsetTypes

/-- The bit at position `i` is in the set. -/
def bit (types : InsetTypes) (i : Nat) : Bool := types.bits.toBitVec.getLsbD i

/-- All bits of the set are known. -/
def IsKnown (types : InsetTypes) : Prop := types.bits &&& ~~~knownBits = 0

instance (types : InsetTypes) : Decidable types.IsKnown := inferInstanceAs (Decidable (_ = _))

/-! ## Bits -/

/-- A set is known from its bits. -/
theorem ext_bit {a b : InsetTypes} (h : ∀ i, a.bit i = b.bit i) : a = b := by
  obtain ⟨a⟩ := a
  obtain ⟨b⟩ := b
  rw [InsetTypes.mk.injEq, ← UInt32.toBitVec_inj]
  exact BitVec.eq_of_getLsbD_eq fun i _ => h i

@[simp] theorem bit_empty (i : Nat) : empty.bit i = false := BitVec.getLsbD_zero

theorem eq_empty_iff {types : InsetTypes} : types = empty ↔ ∀ i, types.bit i = false := by
  constructor
  · rintro rfl
    exact bit_empty
  · intro h
    exact ext_bit fun i => (h i).trans (bit_empty i).symm

/-- A set that is not empty has a bit. -/
theorem exists_bit {types : InsetTypes} (h : types ≠ empty) : ∃ i, types.bit i = true := by
  rw [Ne, eq_empty_iff, Classical.not_forall] at h
  obtain ⟨i, hi⟩ := h
  exact ⟨i, Bool.not_eq_false _ ▸ hi⟩

/-- There are no more than 32 bits. -/
theorem bit_of_le (types : InsetTypes) {i : Nat} (h : 32 ≤ i) : types.bit i = false :=
  BitVec.getLsbD_of_ge _ i h

theorem bit_and (a b : InsetTypes) (i : Nat) :
    (⟨a.bits &&& b.bits⟩ : InsetTypes).bit i = (a.bit i && b.bit i) := by
  rw [bit, UInt32.toBitVec_and, BitVec.getLsbD_and, bit, bit]

@[simp] theorem bit_union (a b : InsetTypes) (i : Nat) :
    (a.union b).bit i = (a.bit i || b.bit i) := by
  rw [bit, union, UInt32.toBitVec_or, BitVec.getLsbD_or, bit, bit]

@[simp] theorem bit_diff (a b : InsetTypes) (i : Nat) :
    (a.diff b).bit i = (a.bit i && !b.bit i) := by
  by_cases hi : i < 32
  · simp [bit, diff, hi]
  · rw [bit_of_le _ (Nat.le_of_not_lt hi), bit_of_le a (Nat.le_of_not_lt hi), Bool.false_and]

/-- A set has every kind of another if it has all its bits. -/
theorem contains_iff (a b : InsetTypes) :
    a.contains b = true ↔ ∀ i, b.bit i = true → a.bit i = true := by
  have hsame : a.contains b = true ↔ (⟨a.bits &&& b.bits⟩ : InsetTypes) = b := by
    rw [contains, beq_iff_eq]
    constructor
    · intro h
      rw [h]
    · exact congrArg bits
  rw [hsame]
  constructor
  · intro h i hi
    rw [← h, bit_and, Bool.and_eq_true] at hi
    exact hi.1
  · intro h
    refine ext_bit fun i => ?_
    rw [bit_and]
    cases hb : b.bit i with
    | false => exact Bool.and_false _
    | true => rw [h i hb, Bool.and_true]

/-- A set has every kind of two others if it has every kind of each. -/
theorem contains_union (a b c : InsetTypes) :
    a.contains (b.union c) = (a.contains b && a.contains c) := by
  rw [Bool.eq_iff_iff, Bool.and_eq_true, contains_iff, contains_iff, contains_iff]
  simp [or_imp, forall_and]

/-- Two sets without a common bit. -/
theorem intersects_eq_false_iff {a b : InsetTypes} :
    a.intersects b = false ↔ ∀ i, a.bit i = true → b.bit i = false := by
  have hempty : a.intersects b = false ↔ (⟨a.bits &&& b.bits⟩ : InsetTypes) = empty := by
    rw [intersects, bne_eq_false_iff_eq, empty, InsetTypes.mk.injEq]
  rw [hempty, eq_empty_iff]
  simp only [bit_and, Bool.and_eq_false_imp]

/-- The unknown bits of the set. -/
def unknown (types : InsetTypes) : InsetTypes := ⟨types.bits &&& ~~~knownBits⟩

theorem bit_unknown (types : InsetTypes) (i : Nat) :
    types.unknown.bit i = (types.bit i && decide (8 ≤ i)) := by
  by_cases hi : i < 32
  · have hknown : ∀ j : Fin 32, (~~~knownBits).toBitVec.getLsbD j = decide (8 ≤ j.val) := by decide
    rw [← hknown ⟨i, hi⟩]
    exact bit_and types ⟨~~~knownBits⟩ i
  · rw [bit_of_le _ (Nat.le_of_not_lt hi), bit_of_le types (Nat.le_of_not_lt hi), Bool.false_and]

theorem isKnown_iff {types : InsetTypes} : types.IsKnown ↔ ∀ i, types.bit i = true → i < 8 := by
  have hempty : types.IsKnown ↔ types.unknown = empty := by
    rw [IsKnown, unknown, empty, InsetTypes.mk.injEq]
  rw [hempty, eq_empty_iff]
  simp only [bit_unknown, Bool.and_eq_false_imp, decide_eq_false_iff_not, Nat.not_le]

/-! ## Keys -/

/-- The key of the bit at position `i`, if the bit is known. -/
def single (i : Nat) : UInt32 := ⟨BitVec.twoPow 32 i⟩

theorem known_eq : known = (List.range 8).map single := by decide

theorem and_single (types : InsetTypes) (i : Nat) :
    types.bits &&& single i = if types.bit i = true then single i else 0 := by
  rw [← UInt32.toBitVec_inj, UInt32.toBitVec_and, single, BitVec.and_twoPow, bit]
  split <;> rfl

theorem bit_single {i j : Nat} : (⟨single i⟩ : InsetTypes).bit j = true ↔ i = j ∧ i < 32 := by
  simp [bit, single, BitVec.getLsbD_twoPow, and_comm]

theorem single_ne_zero {i : Nat} (h : i < 32) : single i ≠ 0 := by
  intro hzero
  have hbit : (⟨single i⟩ : InsetTypes).bit i = true := bit_single.2 ⟨rfl, h⟩
  rw [hzero] at hbit
  exact absurd (hbit.symm.trans (bit_empty i)) (by decide)

/-- A key is a known bit of the set, or it is all unknown bits. -/
theorem mem_keys {types : InsetTypes} {key : UInt32} : key ∈ types.keys ↔
    (∃ i < 8, types.bit i = true ∧ single i = key) ∨ key ≠ 0 ∧ types.unknown = ⟨key⟩ := by
  have hsingle : ∀ i, i < 8 → ((types.bits &&& single i != 0) = true ↔ types.bit i = true) := by
    intro i hi
    rw [and_single, bne_iff_ne]
    split
    · next h => exact iff_of_true (single_ne_zero (by omega)) h
    · next h => exact iff_of_false (by simp) h
  rw [keys, List.mem_append, List.mem_filter, known_eq, List.mem_map]
  refine or_congr ?_ ?_
  · constructor
    · rintro ⟨⟨i, hi, rfl⟩, h⟩
      rw [List.mem_range] at hi
      exact ⟨i, hi, (hsingle i hi).1 h, rfl⟩
    · rintro ⟨i, hi, h, rfl⟩
      exact ⟨⟨i, List.mem_range.2 hi, rfl⟩, (hsingle i hi).2 h⟩
  · rw [unknown, InsetTypes.mk.injEq]
    split
    · next h =>
      rw [h]
      exact iff_of_false List.not_mem_nil fun ⟨hne, hzero⟩ => hne hzero.symm
    · next h =>
      rw [List.mem_singleton]
      constructor
      · rintro rfl
        exact ⟨h, rfl⟩
      · rintro ⟨-, rfl⟩
        rfl

/-- The bits of a key are bits of the set. -/
theorem bit_of_mem_keys {types : InsetTypes} {key : UInt32} (h : key ∈ types.keys) {i : Nat}
    (hi : (⟨key⟩ : InsetTypes).bit i = true) : types.bit i = true := by
  rcases mem_keys.1 h with ⟨j, -, hj, rfl⟩ | ⟨-, hunknown⟩
  · obtain ⟨rfl, -⟩ := bit_single.1 hi
    exact hj
  · rw [← hunknown, bit_unknown, Bool.and_eq_true] at hi
    exact hi.1

/-- A key has a bit. -/
theorem exists_bit_of_mem_keys {types : InsetTypes} {key : UInt32} (h : key ∈ types.keys) :
    ∃ i, (⟨key⟩ : InsetTypes).bit i = true := by
  rcases mem_keys.1 h with ⟨j, hj, -, rfl⟩ | ⟨hne, -⟩
  · exact ⟨j, bit_single.2 ⟨rfl, by omega⟩⟩
  · exact exists_bit fun hempty => hne (congrArg bits hempty)

/-- Sets without a common bit have no common key. -/
theorem not_mem_keys {a b : InsetTypes} (h : a.intersects b = false) {key : UInt32}
    (hkey : key ∈ b.keys) : key ∉ a.keys := by
  intro hkey'
  obtain ⟨i, hi⟩ := exists_bit_of_mem_keys hkey
  have hb := intersects_eq_false_iff.1 h i (bit_of_mem_keys hkey' hi)
  exact absurd ((bit_of_mem_keys hkey hi).symm.trans hb) (by decide)

/-- All keys of a known set are known bits of it. -/
theorem mem_keys_of_isKnown {types : InsetTypes} (h : types.IsKnown) {key : UInt32} :
    key ∈ types.keys ↔ ∃ i < 8, types.bit i = true ∧ single i = key := by
  rw [mem_keys]
  refine or_iff_left ?_
  rintro ⟨hne, hunknown⟩
  rw [unknown, h, InsetTypes.mk.injEq] at hunknown
  exact hne hunknown.symm

/-- A known bit of the set is a key. -/
theorem single_mem_keys {types : InsetTypes} {i : Nat} (hi : i < 8) (h : types.bit i = true) :
    single i ∈ types.keys :=
  mem_keys.2 (.inl ⟨i, hi, h, rfl⟩)

/-- The keys of a known part are keys of the whole. -/
theorem mem_keys_of_contains {a b : InsetTypes} (hb : b.IsKnown) (h : a.contains b = true)
    {key : UInt32} (hkey : key ∈ b.keys) : key ∈ a.keys := by
  obtain ⟨i, hi, hbit, rfl⟩ := (mem_keys_of_isKnown hb).1 hkey
  exact single_mem_keys hi ((contains_iff a b).1 h i hbit)

/-- A part of a known set is known. -/
theorem IsKnown.of_contains {a b : InsetTypes} (ha : a.IsKnown) (h : a.contains b = true) :
    b.IsKnown := by
  rw [isKnown_iff] at ha ⊢
  intro i hi
  exact ha i ((contains_iff a b).1 h i hi)

theorem IsKnown.union {a b : InsetTypes} (ha : a.IsKnown) (hb : b.IsKnown) :
    (a.union b).IsKnown := by
  rw [isKnown_iff] at ha hb ⊢
  intro i hi
  rw [bit_union, Bool.or_eq_true] at hi
  exact hi.elim (ha i) (hb i)

/-- The keys of a union of known sets are those of both. -/
theorem mem_keys_union {a b : InsetTypes} (ha : a.IsKnown) (hb : b.IsKnown) {key : UInt32} :
    key ∈ (a.union b).keys ↔ key ∈ a.keys ∨ key ∈ b.keys := by
  rw [mem_keys_of_isKnown (ha.union hb), mem_keys_of_isKnown ha, mem_keys_of_isKnown hb]
  simp only [bit_union, Bool.or_eq_true, or_and_right, and_or_left, exists_or]

/-- A set that is not empty has a key. -/
theorem exists_mem_keys {types : InsetTypes} (h : types ≠ empty) : ∃ key, key ∈ types.keys := by
  by_cases hknown : types.IsKnown
  · obtain ⟨i, hi⟩ := exists_bit h
    exact ⟨single i, single_mem_keys (isKnown_iff.1 hknown i hi) hi⟩
  · exact ⟨types.unknown.bits, mem_keys.2 (.inr ⟨hknown, rfl⟩)⟩

/-- What sets without a common key have in common are unknown bits. -/
theorem unknown_of_disjoint {a b : InsetTypes} (h : ∀ key ∈ a.keys, key ∉ b.keys) {i : Nat}
    (ha : a.bit i = true) (hb : b.bit i = true) : 8 ≤ i := by
  refine Nat.le_of_not_lt fun hi => ?_
  exact h _ (single_mem_keys hi ha) (single_mem_keys hi hb)

end InsetTypes

end HostBridge
