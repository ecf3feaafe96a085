import HostBridge.Platform.Controller

/-!
# Looks at the clipboard

The clipboard may hold nothing, fail in two ways, or hold a clip whose first item is a text,
an address or something else. Who asks for its text has it read, but no further than the
first item.

* `Surroundings.Look`: the ways in which a look for the text may go;
* `Controller.look_clipboardText`: there are no others;
* `Controller.looks_of_mem_clipboardText`: nothing else is done on any of them.
-/

namespace HostBridge

/-- The effect is part of a look at the clipboard. -/
def Effect.looks : Effect → Bool
  | .readClip => true
  | .openUri _ _ => true
  | .warn _ => true
  | _ => false

namespace Surroundings

/-- The clipboard says that it holds something, and reading it gives a clip with this first
    item. -/
structure FirstItem (env : Surroundings) (item : ClipItem) : Prop where
  hasClip : env.hasClip = true
  clip : ∃ clip, env.clip = .ok (some clip) ∧ clip.items.head? = some item

/-- The ways in which a look for the text may go: what is done, and the text that is found. -/
inductive Look (env : Surroundings) : List Effect → Option String → Prop
  /-- The clipboard says that it holds nothing. -/
  | empty (hasClip : env.hasClip = false) : Look env [] none
  | unread {e : ClipError} (hasClip : env.hasClip = true) (reads : env.clip = .error e) :
      Look env (.readClip :: e.warning?.toList.map .warn) none
  /-- There is no first item, or it is neither a text nor an address. -/
  | other (hasClip : env.hasClip = true) : Look env [.readClip] none
  | text {text : String} (first : env.FirstItem (.text text)) : Look env [.readClip] (some text)
  | opened {uri text : String} (first : env.FirstItem (.uri uri text))
      (opens : env.openUri uri Mime.anyText = .ok ()) :
      Look env [.readClip, .openUri uri Mime.anyText] (some text)
  | unopened {uri text : String} {e : ClipError} (first : env.FirstItem (.uri uri text))
      (opens : env.openUri uri Mime.anyText = .error e) :
      Look env (.readClip :: .openUri uri Mime.anyText :: e.warning?.toList.map .warn) none

/-- Nothing is done but to read, to open and to warn. -/
theorem Look.looks {env : Surroundings} {effects : List Effect} {found : Option String}
    (h : env.Look effects found) : ∀ effect ∈ effects, effect.looks = true := by
  have hwarn (texts : List String) : ∀ effect ∈ texts.map Effect.warn, effect.looks = true :=
    List.forall_mem_map.2 fun _ _ => rfl
  cases h with
  | empty => exact List.forall_mem_nil _
  | unread => exact List.forall_mem_cons.2 ⟨rfl, hwarn _⟩
  | other => exact List.forall_mem_singleton.2 rfl
  | text => exact List.forall_mem_singleton.2 rfl
  | opened => exact List.forall_mem_cons.2 ⟨rfl, List.forall_mem_singleton.2 rfl⟩
  | unopened => exact List.forall_mem_cons.2 ⟨rfl, List.forall_mem_cons.2 ⟨rfl, hwarn _⟩⟩

end Surroundings

namespace Controller

variable {env : Surroundings}

theorem clipboardText_of_error {e : ClipError} (hasClip : env.hasClip = true)
    (reads : env.clip = .error e) :
    clipboardText env = (.readClip :: e.warning?.toList.map .warn, none) := by
  rw [clipboardText, if_pos hasClip, reads]

theorem clipboardText_of_first {item : ClipItem} (h : env.FirstItem item) :
    clipboardText env = (.readClip :: (itemText env item).1, (itemText env item).2) := by
  obtain ⟨hasClip, clip, hclip, hitem⟩ := h
  rw [clipboardText, if_pos hasClip, hclip]
  simp only [hitem]

/-- A look for the text goes one of the ways. -/
theorem look_clipboardText (env : Surroundings) :
    env.Look (clipboardText env).1 (clipboardText env).2 := by
  cases hasClip : env.hasClip with
  | false =>
    rw [clipboardText, hasClip]
    exact .empty hasClip
  | true =>
    -- the clipboard is read: it fails, holds nothing, or holds a clip
    rcases hclip : env.clip with e | _ | clip
    · rw [clipboardText_of_error hasClip hclip]
      exact .unread hasClip hclip
    · rw [clipboardText, if_pos hasClip, hclip]
      exact .other hasClip
    · rcases hitem : clip.items.head? with _ | item
      · rw [clipboardText, if_pos hasClip, hclip]
        simp only [hitem, itemText]
        exact .other hasClip
      · have first : env.FirstItem item := ⟨hasClip, clip, hclip, hitem⟩
        rw [clipboardText_of_first first]
        cases item with
        | text text => exact .text first
        | other => exact .other hasClip
        | uri uri text =>
          rw [itemText]
          rcases hopens : env.openUri uri Mime.anyText with e | ⟨⟨⟩⟩
          · exact .unopened first hopens
          · exact .opened first hopens

/-- To find the text on the clipboard takes looks only. -/
theorem looks_of_mem_clipboardText (env : Surroundings) :
    ∀ effect ∈ (clipboardText env).1, effect.looks = true := (look_clipboardText env).looks

end Controller

end HostBridge
