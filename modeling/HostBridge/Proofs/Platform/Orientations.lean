import HostBridge.Platform.Orientation

/-!
# Orientations that are asked for

A setting fits a list if it admits exactly the orientations that are listed. The mask of a
list has the bits of these orientations, however long the list is (`Orientation.mask_eq`),
and the table of masks gives the setting that fits, if there is one
(`ScreenOrientation.ofMask?_eq_some_iff`). So a window gets

* the setting that fits what is asked for (`ScreenOrientation.forRequest_of_fits`);
* if none does, the setting for the first orientation in the list
  (`ScreenOrientation.forRequest_of_unfit`).

Only the first orientation and the set of all matter (`ScreenOrientation.forRequest_congr`).
`ScreenOrientation.request_respected` says what this means for the application.
-/

namespace HostBridge

namespace Orientation

/-- What holds of all orientations holds of each of the four. -/
theorem forall_iff {P : Orientation → Prop} : (∀ o, P o) ↔
    P .portraitUp ∧ P .landscapeLeft ∧ P .portraitDown ∧ P .landscapeRight := by
  constructor
  · intro h
    exact ⟨h _, h _, h _, h _⟩
  · rintro ⟨hup, hleft, hdown, hright⟩ o
    cases o <;> assumption

/-- The mask of a set of orientations, given by the orientations that are in it. -/
def maskOf (up left down right : Bool) : UInt8 :=
  (if up then 0x01 else 0) ||| (if left then 0x02 else 0) ||| (if down then 0x04 else 0) |||
    (if right then 0x08 else 0)

/-- To add a bit adds its orientation to the set. -/
theorem maskOf_or_bit (o : Orientation) : ∀ up left down right : Bool,
    maskOf up left down right ||| o.bit =
      maskOf (up || .portraitUp == o) (left || .landscapeLeft == o) (down || .portraitDown == o)
        (right || .landscapeRight == o) := by
  cases o <;> decide

/-- The bits of a list are added to those of a set one after the other. -/
theorem foldl_bit (up left down right : Bool) (orientations : List Orientation) :
    orientations.foldl (fun mask o => mask ||| o.bit) (maskOf up left down right) =
      maskOf (up || orientations.contains .portraitUp)
        (left || orientations.contains .landscapeLeft)
        (down || orientations.contains .portraitDown)
        (right || orientations.contains .landscapeRight) := by
  induction orientations generalizing up left down right with
  | nil => simp
  | cons o orientations ih =>
    rw [List.foldl_cons, maskOf_or_bit, ih]
    simp only [List.contains_cons, Bool.or_assoc]

/-- The mask of a list is the mask of the set of its elements. -/
theorem mask_eq (orientations : List Orientation) : mask orientations =
    maskOf (orientations.contains .portraitUp) (orientations.contains .landscapeLeft)
      (orientations.contains .portraitDown) (orientations.contains .landscapeRight) :=
  foldl_bit false false false false orientations

end Orientation

namespace ScreenOrientation

variable {s : ScreenOrientation} {orientations others : List Orientation} {o : Orientation}

/-- The setting admits exactly the orientations that are listed. -/
def Fits (s : ScreenOrientation) (orientations : List Orientation) : Prop :=
  ∀ o, o ∈ s.admits ↔ o ∈ orientations

theorem fits_congr (h : ∀ o, o ∈ orientations ↔ o ∈ others) :
    s.Fits orientations ↔ s.Fits others :=
  forall_congr' fun o => by rw [h o]

theorem fits_iff : s.Fits orientations ↔
    s.admits.contains .portraitUp = orientations.contains .portraitUp ∧
      s.admits.contains .landscapeLeft = orientations.contains .landscapeLeft ∧
      s.admits.contains .portraitDown = orientations.contains .portraitDown ∧
      s.admits.contains .landscapeRight = orientations.contains .landscapeRight := by
  have heach (o : Orientation) : (o ∈ s.admits ↔ o ∈ orientations) ↔
      s.admits.contains o = orientations.contains o := by
    rw [Bool.eq_iff_iff, List.contains_iff_mem, List.contains_iff_mem]
  simp only [Fits, Orientation.forall_iff, heach]

/-- The table of masks has for the mask of a set the setting that admits exactly this set, and
    for no other mask a setting. -/
theorem ofMask?_maskOf (s : ScreenOrientation) : ∀ up left down right : Bool,
    ofMask? (Orientation.maskOf up left down right) = some s ↔
      s.admits.contains .portraitUp = up ∧ s.admits.contains .landscapeLeft = left ∧
        s.admits.contains .portraitDown = down ∧ s.admits.contains .landscapeRight = right := by
  cases s <;> decide

/-- The setting for the mask of a list is the one that fits the list. -/
theorem ofMask?_eq_some_iff :
    ofMask? (Orientation.mask orientations) = some s ↔ s.Fits orientations := by
  rw [Orientation.mask_eq, ofMask?_maskOf, fits_iff]

theorem forRequest_of_fits (h : s.Fits orientations) : forRequest orientations = s := by
  rw [forRequest, ofMask?_eq_some_iff.2 h, Option.getD_some]

theorem unspecified_fits_nil : unspecified.Fits [] := fun _ => Iff.rfl

theorem only_fits (o : Orientation) : (only o).Fits [o] := by
  cases o <;> exact fun _ => Iff.rfl

theorem only_injective {o p : Orientation} (h : only o = only p) : o = p := by
  have hmem : o ∈ (only p).admits := h ▸ (only_fits o o).2 List.mem_cons_self
  exact List.mem_singleton.1 ((only_fits p o).1 hmem)

/-- Where no setting fits, there is a first orientation, and it decides. -/
theorem forRequest_of_unfit (h : ¬∃ s : ScreenOrientation, s.Fits orientations) :
    ∃ first, orientations.head? = some first ∧ forRequest orientations = only first := by
  have hnone : ofMask? (Orientation.mask orientations) = none :=
    Option.eq_none_iff_forall_ne_some.2 fun s hs => h ⟨s, ofMask?_eq_some_iff.1 hs⟩
  rcases orientations with _ | ⟨first, rest⟩
  · exact absurd ⟨unspecified, unspecified_fits_nil⟩ h
  · refine ⟨first, rfl, ?_⟩
    rw [forRequest, hnone]
    rfl

/-- What a window gets depends on the first orientation and on the set of all. -/
theorem forRequest_congr (hmem : ∀ o, o ∈ orientations ↔ o ∈ others)
    (hhead : orientations.head? = others.head?) : forRequest orientations = forRequest others := by
  by_cases h : ∃ s : ScreenOrientation, s.Fits orientations
  · obtain ⟨s, hs⟩ := h
    rw [forRequest_of_fits hs, forRequest_of_fits ((fits_congr hmem).1 hs)]
  · have h' : ¬∃ s : ScreenOrientation, s.Fits others := by simpa only [fits_congr hmem] using h
    obtain ⟨first, hfirst, heq⟩ := forRequest_of_unfit h
    obtain ⟨other, hother, heq'⟩ := forRequest_of_unfit h'
    obtain rfl : first = other := Option.some.inj (hfirst.symm.trans (hhead.trans hother))
    rw [heq, heq']

/-- Where the same orientations are asked for, the first one counts if and only if no setting
    fits them. -/
theorem forRequest_ne_iff (hmem : ∀ o, o ∈ orientations ↔ o ∈ others) :
    forRequest orientations ≠ forRequest others ↔
      (¬∃ s : ScreenOrientation, s.Fits orientations) ∧ orientations.head? ≠ others.head? := by
  constructor
  · intro hne
    refine ⟨?_, fun hhead => hne (forRequest_congr hmem hhead)⟩
    rintro ⟨s, hs⟩
    exact hne (by rw [forRequest_of_fits hs, forRequest_of_fits ((fits_congr hmem).1 hs)])
  · rintro ⟨hunfit, hhead⟩ heq
    have hunfit' : ¬∃ s : ScreenOrientation, s.Fits others := by
      simpa only [fits_congr hmem] using hunfit
    obtain ⟨first, hfirst, hsetting⟩ := forRequest_of_unfit hunfit
    obtain ⟨other, hother, hsetting'⟩ := forRequest_of_unfit hunfit'
    obtain rfl : first = other := only_injective (hsetting.symm.trans (heq.trans hsetting'))
    exact hhead (hfirst.trans hother.symm)

/-- What is admitted is asked for. -/
theorem mem_of_mem_admits (h : o ∈ (forRequest orientations).admits) : o ∈ orientations := by
  by_cases hfit : ∃ s : ScreenOrientation, s.Fits orientations
  · obtain ⟨s, hs⟩ := hfit
    rw [forRequest_of_fits hs] at h
    exact (hs o).1 h
  · obtain ⟨first, hfirst, heq⟩ := forRequest_of_unfit hfit
    rw [heq, only_fits first o, List.mem_singleton] at h
    exact h ▸ List.mem_of_head? hfirst

/-- The first orientation in a list is admitted. -/
theorem first_mem_admits (h : orientations.head? = some o) :
    o ∈ (forRequest orientations).admits := by
  by_cases hfit : ∃ s : ScreenOrientation, s.Fits orientations
  · obtain ⟨s, hs⟩ := hfit
    rw [forRequest_of_fits hs]
    exact (hs o).2 (List.mem_of_head? h)
  · obtain ⟨first, hfirst, heq⟩ := forRequest_of_unfit hfit
    obtain rfl : first = o := Option.some.inj (hfirst.symm.trans h)
    rw [heq]
    exact (only_fits first first).2 List.mem_cons_self

/-- Nothing is specified if and only if nothing is asked for. -/
theorem forRequest_eq_unspecified_iff :
    forRequest orientations = unspecified ↔ orientations = [] := by
  constructor
  · intro h
    rcases orientations with _ | ⟨first, rest⟩
    · rfl
    · have hfirst : first ∈ (forRequest (first :: rest)).admits := first_mem_admits rfl
      rw [h] at hfirst
      exact absurd hfirst List.not_mem_nil
  · rintro rfl
    exact forRequest_of_fits unspecified_fits_nil

/-- An orientation that comes again changes nothing. -/
theorem forRequest_repeated {before after : List Orientation} (h : o ∈ before) :
    forRequest (before ++ o :: after) = forRequest (before ++ after) := by
  refine forRequest_congr (fun p => ?_) ?_
  · have hrest : p ∈ before ∨ p = o ∨ p ∈ after ↔ p ∈ before ∨ p ∈ after := by
      rw [or_left_comm]
      exact or_iff_right_of_imp fun hp => .inl (hp ▸ h)
    rw [List.mem_append, List.mem_cons, hrest, List.mem_append]
  · rcases before with _ | ⟨first, before⟩
    · exact absurd h List.not_mem_nil
    · rfl

/-- What a window gets respects what was asked for, in a list of whatever length:

    * if some setting admits exactly the orientations in the list, the window gets it, and
      otherwise a setting that admits only the first of them;
    * so the first is always admitted, and nothing that is not in the list;
    * nothing is specified for the empty list, and for no other;
    * an orientation that comes again in the list changes nothing;
    * two lists of the same orientations, in whatever order and however often each comes, get
      different settings if and only if no setting admits exactly these orientations and the
      lists begin with different ones. -/
theorem request_respected :
    (∀ (first : Orientation) (rest : List Orientation),
      ((∃ s : ScreenOrientation, s.Fits (first :: rest)) →
        (forRequest (first :: rest)).Fits (first :: rest)) ∧
      ((¬∃ s : ScreenOrientation, s.Fits (first :: rest)) →
        (forRequest (first :: rest)).Fits [first]) ∧
      first ∈ (forRequest (first :: rest)).admits ∧
      ∀ o ∈ (forRequest (first :: rest)).admits, o ∈ first :: rest) ∧
    (∀ orientations : List Orientation,
      forRequest orientations = .unspecified ↔ orientations = []) ∧
    (∀ (before after : List Orientation), ∀ o ∈ before,
      forRequest (before ++ o :: after) = forRequest (before ++ after)) ∧
    ∀ orientations others : List Orientation, (∀ o, o ∈ orientations ↔ o ∈ others) →
      (forRequest orientations ≠ forRequest others ↔
        (¬∃ s : ScreenOrientation, s.Fits orientations) ∧
          orientations.head? ≠ others.head?) := by
  refine ⟨fun first rest => ⟨?_, fun hunfit => ?_, first_mem_admits rfl,
    fun o => mem_of_mem_admits⟩, fun orientations => forRequest_eq_unspecified_iff,
    fun before after o => forRequest_repeated, fun orientations others => forRequest_ne_iff⟩
  · rintro ⟨s, hs⟩
    exact (forRequest_of_fits hs).symm ▸ hs
  · obtain ⟨other, hother, heq⟩ := forRequest_of_unfit hunfit
    obtain rfl : first = other := Option.some.inj hother
    exact heq ▸ only_fits first

/-- A portrait and a landscape are more than one setting can say, so it matters which of them
    comes first. With the other landscape they are not, and one of them may come again. -/
theorem request_respected_portrait_landscape :
    (forRequest [.portraitUp, .landscapeLeft]).Fits [.portraitUp] ∧
      forRequest [.portraitUp, .landscapeLeft] ≠ forRequest [.landscapeLeft, .portraitUp] ∧
      forRequest [.landscapeLeft, .portraitUp, .landscapeLeft, .landscapeRight] =
        forRequest [.landscapeLeft, .portraitUp, .landscapeRight] ∧
      (forRequest [.landscapeLeft, .portraitUp, .landscapeRight]).Fits
        [.landscapeLeft, .portraitUp, .landscapeRight] := by
  obtain ⟨hserved, -, hrepeated, hreordered⟩ := request_respected
  have hunfit : ¬∃ s : ScreenOrientation, s.Fits [.portraitUp, .landscapeLeft] := by
    rintro ⟨s, hs⟩
    rw [fits_iff] at hs
    cases s <;> exact absurd hs (by decide)
  have huser : user.Fits [.landscapeLeft, .portraitUp, .landscapeRight] := fits_iff.2 (by decide)
  have hsame (o : Orientation) : o ∈ [Orientation.portraitUp, .landscapeLeft] ↔
      o ∈ [Orientation.landscapeLeft, .portraitUp] := (List.Perm.swap _ _ []).mem_iff
  exact ⟨(hserved _ _).2.1 hunfit, (hreordered _ _ hsame).2 ⟨hunfit, by simp⟩,
    hrepeated [.landscapeLeft, .portraitUp] [.landscapeRight] .landscapeLeft (by simp),
    (hserved _ _).1 ⟨user, huser⟩⟩

end ScreenOrientation

end HostBridge
