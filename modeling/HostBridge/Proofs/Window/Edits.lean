import HostBridge.Proofs.Table
import HostBridge.Proofs.Window.Kinds
import HostBridge.Window.Insets
import Mathlib.Data.List.Basic
import Mathlib.Order.Bounds.Basic
import Mathlib.Order.MinMax

/-!
# What edits leave behind

A snapshot that is built by edits is known from the last edit of everything: the last
insets under each key (`WindowInsets.written`) and the last word about each visible
bit (`WindowInsets.shown`). Nothing else of the edits is left
(`WindowInsets.edit_eq_iff`).

* `WindowInsets.isGreatest_insetsOf`: at each edge a snapshot answers with the greatest
  of zero and the spaces under the keys that it is asked about;
* `WindowInsets.insetsOf_union`: for known kinds the answers about two sets make up the
  answer about their union;
* `WindowInsets.edit_swap`: two edits can be exchanged if their sets have no common key
  and the edits do not clash. Two edits clash if one shows an unknown bit that the
  other hides: unknown bits are a key only together, but shown and hidden one by one.
-/

namespace HostBridge

/-! ## Edges -/

/-- The edges of a window. -/
inductive Edge
  | left
  | top
  | right
  | bottom
deriving DecidableEq

namespace Insets

/-- The space at an edge. -/
def space (x : Insets) : Edge → ℤ
  | .left => x.left.toInt
  | .top => x.top.toInt
  | .right => x.right.toInt
  | .bottom => x.bottom.toInt

theorem ext_space {a b : Insets} (h : ∀ edge, a.space edge = b.space edge) : a = b := by
  obtain ⟨left, top, right, bottom⟩ := a
  obtain ⟨left', top', right', bottom'⟩ := b
  rw [Insets.mk.injEq]
  exact ⟨Int32.toInt_inj.1 (h .left), Int32.toInt_inj.1 (h .top), Int32.toInt_inj.1 (h .right),
    Int32.toInt_inj.1 (h .bottom)⟩

@[simp] theorem space_none (edge : Edge) : none.space edge = 0 := by
  cases edge <;> rfl

theorem toInt_max (a b : Int32) : (max a b).toInt = max a.toInt b.toInt := by
  have hmax : max a b = if a ≤ b then b else a := rfl
  rw [hmax]
  split
  · next h => exact (max_eq_right (Int32.le_iff_toInt_le.1 h)).symm
  · next h => exact (max_eq_left (Int.le_of_not_le (h ∘ Int32.le_iff_toInt_le.2))).symm

@[simp] theorem space_union (a b : Insets) (edge : Edge) :
    (a.union b).space edge = max (a.space edge) (b.space edge) := by
  cases edge <;> exact toInt_max _ _

/-- Put together, insets are the greatest of them at every edge. -/
theorem isGreatest_foldl_union (acc : Insets) (xs : List Insets) (edge : Edge) :
    IsGreatest {n | n = acc.space edge ∨ ∃ x ∈ xs, x.space edge = n}
      ((xs.foldl union acc).space edge) := by
  induction xs generalizing acc with
  | nil =>
    refine ⟨.inl rfl, ?_⟩
    rintro n (rfl | ⟨x, hx, -⟩)
    · exact le_rfl
    · exact absurd hx List.not_mem_nil
  | cons x xs ih =>
    obtain ⟨hmem, hle⟩ := ih (acc.union x)
    rw [List.foldl_cons]
    constructor
    · rcases hmem with heq | ⟨y, hy, heq⟩
      · rw [space_union] at heq
        rcases max_choice (acc.space edge) (x.space edge) with hmax | hmax
        · exact .inl (heq.trans hmax)
        · exact .inr ⟨x, List.mem_cons_self, (heq.trans hmax).symm⟩
      · exact .inr ⟨y, List.mem_cons_of_mem _ hy, heq⟩
    · have hboth : (acc.union x).space edge ≤ _ := hle (.inl rfl)
      rw [space_union] at hboth
      rintro n (rfl | ⟨y, hy, rfl⟩)
      · exact (le_max_left _ _).trans hboth
      · rcases List.mem_cons.1 hy with rfl | hy
        · exact (le_max_right _ _).trans hboth
        · exact hle (.inr ⟨y, hy, rfl⟩)

end Insets

namespace WindowInsets

/-! ## What a snapshot answers -/

/-- At each edge a snapshot answers with the greatest of zero and the spaces under the
    keys of the set. -/
theorem isGreatest_insetsOf (w : WindowInsets) (types : InsetTypes) (edge : Edge) :
    IsGreatest {n | n = 0 ∨ ∃ key ∈ types.keys, ∃ x, w.insets.get? key = some x ∧
      x.space edge = n} ((w.insetsOf types).space edge) := by
  have hsame : {n | n = 0 ∨ ∃ key ∈ types.keys, ∃ x, w.insets.get? key = some x ∧
      x.space edge = n} = {n | n = Insets.none.space edge ∨
        ∃ x ∈ types.keys.filterMap w.insets.get?, x.space edge = n} := by
    ext n
    simp only [Set.mem_ofPred_eq, Insets.space_none, List.mem_filterMap]
    grind
  rw [hsame]
  exact Insets.isGreatest_foldl_union _ _ edge

/-- The answer is known from what stands under the keys of the set. -/
theorem insetsOf_congr {v w : WindowInsets} {types : InsetTypes}
    (h : ∀ key ∈ types.keys, v.insets.get? key = w.insets.get? key) :
    v.insetsOf types = w.insetsOf types := by
  rw [insetsOf, List.filterMap_congr h, insetsOf]

/-- For known kinds the answers about two sets make up the answer about their
    union. -/
theorem insetsOf_union (w : WindowInsets) {a b : InsetTypes} (ha : a.IsKnown) (hb : b.IsKnown) :
    w.insetsOf (a.union b) = (w.insetsOf a).union (w.insetsOf b) := by
  refine Insets.ext_space fun edge => (w.isGreatest_insetsOf _ edge).unique ?_
  obtain ⟨hmema, hlea⟩ := w.isGreatest_insetsOf a edge
  obtain ⟨hmemb, hleb⟩ := w.isGreatest_insetsOf b edge
  rw [Insets.space_union]
  constructor
  · rcases max_choice ((w.insetsOf a).space edge) ((w.insetsOf b).space edge) with hmax | hmax
    · rw [hmax]
      exact hmema.imp_right fun ⟨key, hkey, hx⟩ =>
        ⟨key, (InsetTypes.mem_keys_union ha hb).2 (.inl hkey), hx⟩
    · rw [hmax]
      exact hmemb.imp_right fun ⟨key, hkey, hx⟩ =>
        ⟨key, (InsetTypes.mem_keys_union ha hb).2 (.inr hkey), hx⟩
  · rintro n (hzero | ⟨key, hkey, hx⟩)
    · exact (hlea (.inl hzero)).trans (le_max_left _ _)
    · rcases (InsetTypes.mem_keys_union ha hb).1 hkey with hkey | hkey
      · exact (hlea (.inr ⟨key, hkey, hx⟩)).trans (le_max_left _ _)
      · exact (hleb (.inr ⟨key, hkey, hx⟩)).trans (le_max_right _ _)

/-- Where the same insets stand under all keys of a set, they are the answer, but
    negative space counts as none. -/
theorem insetsOf_of_forall {w : WindowInsets} {types : InsetTypes} {x : Insets}
    (hne : types ≠ .empty) (h : ∀ key ∈ types.keys, w.insets.get? key = some x) :
    w.insetsOf types = Insets.none.union x := by
  refine Insets.ext_space fun edge => (w.isGreatest_insetsOf _ edge).unique ?_
  obtain ⟨key, hkey⟩ := InsetTypes.exists_mem_keys hne
  rw [Insets.space_union, Insets.space_none]
  constructor
  · rcases max_choice 0 (x.space edge) with hmax | hmax
    · exact .inl hmax
    · exact .inr ⟨key, hkey, x, h key hkey, hmax.symm⟩
  · rintro n (rfl | ⟨key, hkey, y, hy, rfl⟩)
    · exact le_max_left _ _
    · obtain rfl : x = y := Option.some.inj ((h key hkey).symm.trans hy)
      exact le_max_right _ _

/-! ## Single edits -/

namespace Edit

/-- The set that is edited. -/
def types : Edit → InsetTypes
  | .insets types _ => types
  | .visible types _ => types

/-- The insets that are written under a key. -/
def write? (key : UInt32) : Edit → Option Insets
  | .insets types value => if key ∈ types.keys then some value else none
  | .visible _ _ => none

/-- Whether the bit at position `i` is shown, if the edit says so. -/
def show? (i : ℕ) : Edit → Option Bool
  | .insets _ _ => none
  | .visible types shown => if types.bit i = true then some shown else none

/-- One of the edits shows an unknown bit that the other hides. -/
def Clash (e f : Edit) : Prop :=
  ∃ i ≥ 8, ∃ visible, e.show? i = some visible ∧ f.show? i = some (!visible)

/-- Nothing is written under a key that the set does not have. -/
theorem write?_eq_none {e : Edit} {key : UInt32} (h : key ∉ e.types.keys) :
    e.write? key = none := by
  cases e with
  | insets types value => exact if_neg h
  | visible types shown => rfl

/-- What is shown or hidden is in the set. -/
theorem bit_of_show? {e : Edit} {i : ℕ} {visible : Bool} (h : e.show? i = some visible) :
    e.types.bit i = true := by
  cases e with
  | insets types value => cases h
  | visible types shown => exact (Option.ite_none_right_eq_some.1 h).1

/-- At most one of two edits writes under a key if their sets have none in common. -/
theorem write?_of_disjoint {e f : Edit} (h : ∀ key ∈ e.types.keys, key ∉ f.types.keys)
    (key : UInt32) : e.write? key = none ∨ f.write? key = none := by
  by_cases hkey : key ∈ e.types.keys
  · exact .inr (write?_eq_none (h key hkey))
  · exact .inl (write?_eq_none hkey)

/-- Edits of sets without a common key that do not clash say the same about a bit, if
    both say something: what the sets have in common are unknown bits. -/
theorem show?_of_disjoint {e f : Edit} (hkeys : ∀ key ∈ e.types.keys, key ∉ f.types.keys)
    (hclash : ¬e.Clash f) (i : ℕ) :
    e.show? i = none ∨ f.show? i = none ∨ e.show? i = f.show? i := by
  cases he : e.show? i with
  | none => exact .inl rfl
  | some visible =>
    cases hf : f.show? i with
    | none => exact .inr (.inl rfl)
    | some visible' =>
      have hunknown : 8 ≤ i :=
        InsetTypes.unknown_of_disjoint hkeys (bit_of_show? he) (bit_of_show? hf)
      refine .inr (.inr (congrArg some ?_))
      by_contra hne
      have hopposite : visible' = !visible := Bool.eq_not.2 (Ne.symm hne)
      exact hclash ⟨i, hunknown, visible, he, hf.trans (congrArg some hopposite)⟩

end Edit

open Edit

theorem get?_apply (w : WindowInsets) (e : Edit) (key : UInt32) :
    (w.apply e).insets.get? key = (e.write? key).or (w.insets.get? key) := by
  cases e with
  | insets types value =>
    rw [apply, write?, Table.get?_foldl_put]
    split <;> rfl
  | visible types shown => rfl

theorem bit_apply (w : WindowInsets) (e : Edit) (i : ℕ) :
    (w.apply e).visible.bit i = (e.show? i).getD (w.visible.bit i) := by
  cases e with
  | insets types value => rfl
  | visible types shown =>
    rw [apply, show?]
    cases shown <;> cases h : types.bit i <;> simp [h]

@[simp] theorem consumed_apply (w : WindowInsets) (e : Edit) :
    (w.apply e).consumed = w.consumed := by
  cases e <;> rfl

/-! ## Rows of edits -/

/-- The last word of a row of edits about something. -/
def last? {α : Type} (f : Edit → Option α) (edits : List Edit) : Option α :=
  (edits.filterMap f).getLast?

/-- The insets that were last written under a key, or that stood there before. -/
def written (w : WindowInsets) (edits : List Edit) (key : UInt32) : Option Insets :=
  (last? (write? key) edits).or (w.insets.get? key)

/-- The bit at position `i` was last shown, or was visible before. -/
def shown (w : WindowInsets) (edits : List Edit) (i : ℕ) : Bool :=
  (last? (show? i) edits).getD (w.visible.bit i)

section Last

variable {α : Type} (f : Edit → Option α)

theorem last?_append (edits more : List Edit) :
    last? f (edits ++ more) = (last? f more).or (last? f edits) := by
  rw [last?, List.filterMap_append, List.getLast?_append, last?, last?]

theorem last?_singleton (e : Edit) : last? f [e] = f e := by
  rw [last?, List.filterMap_cons]
  cases f e <;> rfl

/-- Two edits can be exchanged if only one of them says something, or both the same. -/
theorem last?_swap {e e' : Edit} (h : f e = none ∨ f e' = none ∨ f e = f e')
    (before after : List Edit) :
    last? f (before ++ e :: e' :: after) = last? f (before ++ e' :: e :: after) := by
  have hsplit : ∀ e e' : Edit, before ++ e :: e' :: after = before ++ ([e] ++ ([e'] ++ after)) :=
    fun _ _ => rfl
  rw [hsplit, hsplit]
  simp only [last?_append, last?_singleton]
  rcases h with h | h | h
  · rw [h, Option.or_none, Option.or_none]
  · rw [h, Option.or_none, Option.or_none]
  · rw [h]

end Last

/-- Under each key stands what was last written there. -/
theorem get?_edit (w : WindowInsets) (edits : List Edit) (key : UInt32) :
    (w.edit edits).insets.get? key = w.written edits key := by
  suffices hfold : ∀ w : WindowInsets, (edits.foldl apply w).insets.get? key =
      (last? (write? key) edits).or (w.insets.get? key) from hfold _
  induction edits with
  | nil => exact fun _ => rfl
  | cons e edits ih =>
    intro w
    rw [List.foldl_cons, ih, get?_apply, ← List.singleton_append, last?_append, last?_singleton,
      Option.or_assoc]

/-- Each bit is as it was last shown or hidden. -/
theorem bit_edit (w : WindowInsets) (edits : List Edit) (i : ℕ) :
    (w.edit edits).visible.bit i = w.shown edits i := by
  suffices hfold : ∀ w : WindowInsets, (edits.foldl apply w).visible.bit i =
      (last? (show? i) edits).getD (w.visible.bit i) from hfold _
  induction edits with
  | nil => exact fun _ => rfl
  | cons e edits ih =>
    intro w
    rw [List.foldl_cons, ih, bit_apply, ← List.singleton_append, last?_append, last?_singleton]
    cases last? (show? i) edits <;> rfl

/-- What is built is to be passed on. -/
theorem consumed_edit (w : WindowInsets) (edits : List Edit) : (w.edit edits).consumed = false := by
  suffices hfold : ∀ w : WindowInsets, (edits.foldl apply w).consumed = w.consumed from hfold _
  induction edits with
  | nil => exact fun _ => rfl
  | cons e edits ih =>
    intro w
    rw [List.foldl_cons, ih, consumed_apply]

/-- Two snapshots that are built are equal if and only if they agree on the last insets
    under every key, absent ones included, and on every visible bit. -/
theorem edit_eq_iff {v w : WindowInsets} {es fs : List Edit} : v.edit es = w.edit fs ↔
    (∀ key, v.written es key = w.written fs key) ∧ ∀ i, v.shown es i = w.shown fs i := by
  constructor
  · intro h
    constructor
    · intro key
      rw [← get?_edit, h, get?_edit]
    · intro i
      rw [← bit_edit, h, bit_edit]
  · rintro ⟨hwritten, hshown⟩
    have hinsets : (v.edit es).insets = (w.edit fs).insets := by
      refine Table.ext_get? fun key => ?_
      rw [get?_edit, hwritten, get?_edit]
    have hvisible : (v.edit es).visible = (w.edit fs).visible := by
      refine InsetTypes.ext_bit fun i => ?_
      rw [bit_edit, hshown, bit_edit]
    have hconsumed : (v.edit es).consumed = (w.edit fs).consumed := by
      rw [consumed_edit, consumed_edit]
    -- a snapshot is its three parts
    generalize v.edit es = a at *
    generalize w.edit fs = b at *
    obtain ⟨insets, visible, consumed⟩ := a
    obtain ⟨insets', visible', consumed'⟩ := b
    exact WindowInsets.mk.injEq .. ▸ ⟨hinsets, hvisible, hconsumed⟩

/-- Two edits can be exchanged if their sets have no common key and they do not clash. -/
theorem edit_swap (w : WindowInsets) {e f : Edit} (hkeys : ∀ key ∈ e.types.keys, key ∉ f.types.keys)
    (hclash : ¬e.Clash f) (before after : List Edit) :
    w.edit (before ++ e :: f :: after) = w.edit (before ++ f :: e :: after) := by
  rw [edit_eq_iff]
  constructor
  · intro key
    have hone : e.write? key = none ∨ f.write? key = none ∨ e.write? key = f.write? key :=
      or_assoc.1 (.inl (write?_of_disjoint hkeys key))
    rw [written, written, last?_swap _ hone]
  · intro i
    rw [shown, shown, last?_swap _ (show?_of_disjoint hkeys hclash i)]

/-- Of two edits that clash, the later one counts. -/
theorem edit_ne_of_clash (w : WindowInsets) {e f : Edit} (h : e.Clash f) (before : List Edit) :
    w.edit (before ++ [e, f]) ≠ w.edit (before ++ [f, e]) := by
  intro heq
  obtain ⟨i, -, visible, he, hf⟩ := h
  have hlast : ∀ e f : Edit, last? (show? i) (before ++ [e, f]) =
      (f.show? i).or ((e.show? i).or (last? (show? i) before)) := by
    intro e f
    rw [← List.singleton_append, ← List.append_assoc, last?_append, last?_append, last?_singleton,
      last?_singleton]
  have hshown := (edit_eq_iff.1 heq).2 i
  rw [shown, shown, hlast, hlast, he, hf, Option.some_or, Option.some_or, Option.getD_some,
    Option.getD_some] at hshown
  exact Bool.not_ne_self visible hshown

/-- After insets are set, they are the answer about every known part of the set. -/
theorem insetsOf_edit_of_contains (w : WindowInsets) (edits : List Edit) {m t : InsetTypes}
    (x : Insets) (ht : t.IsKnown) (hne : t ≠ .empty) (h : m.contains t = true) :
    (w.edit (edits ++ [.insets m x])).insetsOf t = Insets.none.union x := by
  refine insetsOf_of_forall hne fun key hkey => ?_
  rw [get?_edit, written, last?_append, last?_singleton, write?,
    if_pos (InsetTypes.mem_keys_of_contains ht h hkey)]
  rfl

/-- The answers about all other kinds stay as they are. -/
theorem insetsOf_edit_of_disjoint (w : WindowInsets) (edits : List Edit) {m t : InsetTypes}
    (x : Insets) (h : m.intersects t = false) :
    (w.edit (edits ++ [.insets m x])).insetsOf t = (w.edit edits).insetsOf t := by
  refine insetsOf_congr fun key hkey => ?_
  rw [get?_edit, get?_edit, written, written, last?_append, last?_singleton, write?,
    if_neg (InsetTypes.not_mem_keys h hkey), Option.none_or]

theorem isVisible_edit_iff (w : WindowInsets) (edits : List Edit) (types : InsetTypes) :
    (w.edit edits).isVisible types = true ↔
      ∀ i, types.bit i = true → w.shown edits i = true := by
  rw [isVisible, InsetTypes.contains_iff]
  simp only [bit_edit]

/-- What is left behind by edits of any snapshot:

    * at each edge a set is answered by the greatest of zero and the spaces last
      written under its keys;
    * a set is visible if and only if each of its bits was last shown, or was visible
      before and never hidden;
    * a snapshot that is built is to be passed on;
    * two of them are equal if and only if they agree on the last insets under every
      key, absent ones included, and on every visible bit;
    * so edits of sets without a common key can be exchanged, unless one shows an unknown
      bit that the other hides;
    * of those the later one counts;
    * for known kinds the answers about two sets make up the answer about their union;
    * after insets are set, they are the answer about every known part of the set, with
      no space in place of negative space, and the answer about all other sets stays. -/
theorem edits_last_write :
    (∀ (w : WindowInsets) edits (types : InsetTypes) edge,
      IsGreatest {n | n = 0 ∨ ∃ key ∈ types.keys, ∃ x, w.written edits key = some x ∧
        x.space edge = n} (((w.edit edits).insetsOf types).space edge)) ∧
    (∀ (w : WindowInsets) edits (types : InsetTypes), (w.edit edits).isVisible types = true ↔
      ∀ i, types.bit i = true → w.shown edits i = true) ∧
    (∀ (w : WindowInsets) edits, (w.edit edits).consumed = false) ∧
    (∀ (v w : WindowInsets) es fs, v.edit es = w.edit fs ↔
      (∀ key, v.written es key = w.written fs key) ∧ ∀ i, v.shown es i = w.shown fs i) ∧
    (∀ (w : WindowInsets) (e f : Edit), (∀ key ∈ e.types.keys, key ∉ f.types.keys) →
      ¬e.Clash f → ∀ before after,
        w.edit (before ++ e :: f :: after) = w.edit (before ++ f :: e :: after)) ∧
    (∀ (w : WindowInsets) (e f : Edit), e.Clash f → ∀ before,
      w.edit (before ++ [e, f]) ≠ w.edit (before ++ [f, e])) ∧
    (∀ (w : WindowInsets) (a b : InsetTypes), a.IsKnown → b.IsKnown →
      w.insetsOf (a.union b) = (w.insetsOf a).union (w.insetsOf b)) ∧
    (∀ (w : WindowInsets) edits (m t : InsetTypes) x, t.IsKnown → t ≠ .empty →
      m.contains t = true → (w.edit (edits ++ [.insets m x])).insetsOf t = Insets.none.union x) ∧
    ∀ (w : WindowInsets) edits (m t : InsetTypes) x, m.intersects t = false →
      (w.edit (edits ++ [.insets m x])).insetsOf t = (w.edit edits).insetsOf t := by
  refine ⟨?_, isVisible_edit_iff, consumed_edit, ?_, ?_, ?_, ?_, ?_, ?_⟩
  · intro w edits types edge
    simp only [← get?_edit]
    exact isGreatest_insetsOf _ _ _
  · intro v w es fs
    exact edit_eq_iff
  · intro w e f hkeys hclash before after
    exact edit_swap w hkeys hclash before after
  · intro w e f h before
    exact edit_ne_of_clash w h before
  · intro w a b ha hb
    exact insetsOf_union w ha hb
  · intro w edits m t x ht hne h
    exact insetsOf_edit_of_contains w edits x ht hne h
  · intro w edits m t x h
    exact insetsOf_edit_of_disjoint w edits x h

/-- Two edits without a common key that cannot be exchanged: the sets hold different
    unknown bits, so the keys differ, but one of the bits is in both. -/
theorem clash_without_common_key :
    let reveal := Edit.visible ⟨0x300⟩ true
    let hide := Edit.visible ⟨0x100⟩ false
    (∀ key ∈ reveal.types.keys, key ∉ hide.types.keys) ∧
      empty.edit [reveal, hide] ≠ empty.edit [hide, reveal] := by
  intro reveal hide
  have hkeys : reveal.types.keys = [0x300] := by decide
  refine ⟨?_, by decide⟩
  rw [hkeys, List.forall_mem_singleton]
  decide

/-- Edits of known and unknown kinds, some with negative space. -/
theorem edits_last_write_mixed :
    let e := Edit.insets ⟨0x103⟩ ⟨1, -2, 3, 4⟩
    let f := Edit.insets ⟨0x208⟩ ⟨0, 0, 0, 9⟩
    let reveal := Edit.visible ⟨0x300⟩ true
    let hide := Edit.visible ⟨0x100⟩ false
    handled.edit [reveal, e, f] = handled.edit [reveal, f, e] ∧
      handled.edit [e, reveal, hide] ≠ handled.edit [e, hide, reveal] ∧
      (handled.edit [f, e]).insetsOf (InsetTypes.union ⟨1⟩ ⟨8⟩) =
        ((handled.edit [f, e]).insetsOf ⟨1⟩).union ((handled.edit [f, e]).insetsOf ⟨8⟩) ∧
      (handled.edit [f, e]).insetsOf ⟨2⟩ = ⟨1, 0, 3, 4⟩ ∧
      (handled.edit [f, e]).insetsOf ⟨0x208⟩ = ⟨0, 0, 0, 9⟩ := by
  intro e f reveal hide
  obtain ⟨-, -, -, -, hswap, hclash, hunion, hpart, hother⟩ := edits_last_write
  have hkeys : e.types.keys = [1, 2, 0x100] := by decide
  have hdisjoint : ∀ key ∈ e.types.keys, key ∉ f.types.keys := by
    rw [hkeys]
    simp only [List.forall_mem_cons]
    exact ⟨by decide, by decide, by decide, List.forall_mem_nil _⟩
  have hquiet : ¬e.Clash f := by
    rintro ⟨i, -, visible, h, -⟩
    cases h
  refine ⟨hswap _ e f hdisjoint hquiet [reveal] [],
    hclash _ reveal hide ⟨8, le_rfl, true, by decide, by decide⟩ [e], hunion _ _ _ rfl rfl, ?_, ?_⟩
  · exact hpart _ [f] ⟨0x103⟩ ⟨2⟩ _ rfl (by decide) rfl
  · exact (hother _ [f] ⟨0x103⟩ ⟨0x208⟩ _ rfl).trans (by decide)

end WindowInsets

end HostBridge
