import HostBridge.Platform.Life

/-!
# A clipboard that keeps what is written to it

The clipboard belongs to the platform. A `ClipService` is one that nobody else
writes to and that reports what was written last. What it reports before
anything is written is open.

* `ClipService.step`: an event at a plugin whose surroundings have this
  clipboard.
-/

namespace HostBridge

/-- A clipboard with states in `κ`. -/
structure ClipService (κ : Type) where
  /-- The clipboard says that it holds something. -/
  hasClip : κ → Bool
  /-- What reading the clipboard gives. -/
  clip : κ → Except ClipError (Option Clip)
  /-- The types of the content of the clipboard, if they are known. -/
  clipTypes : κ → Option (List String)
  /-- The clipboard after something is written to it. -/
  write : Clip → κ → κ
  hasClip_write (clip : Clip) (k : κ) : hasClip (write clip k) = true
  clip_write (written : Clip) (k : κ) : clip (write written k) = .ok (some written)
  clipTypes_write (clip : Clip) (k : κ) : clipTypes (write clip k) = some clip.types

namespace ClipService

/-- A clipboard that is empty at first. -/
def empty : ClipService (Option Clip) where
  hasClip := Option.isSome
  clip := .ok
  clipTypes k := k.map Clip.types
  write clip _ := some clip
  hasClip_write _ _ := rfl
  clip_write _ _ := rfl
  clipTypes_write _ _ := rfl

variable {κ : Type} (service : ClipService κ)

/-- The surroundings with this clipboard. -/
def surround (k : κ) (env : Surroundings) : Surroundings :=
  { env with
    hasClip := service.hasClip k
    clip := service.clip k
    clipTypes := service.clipTypes k }

/-- The event in surroundings with this clipboard. -/
def meet (k : κ) : PluginEvent → PluginEvent
  | .message env message => .message (service.surround k env) message
  | .refresh => .refresh

/-- What an effect does to the clipboard. -/
def feel (k : κ) : Effect → κ
  | .writeClip clip => service.write clip k
  | _ => k

/-- The plugin and the clipboard after an event, the effects, and the reply to a
    message. -/
def step (x : Plugin × κ) (event : PluginEvent) : (Plugin × κ) × List Effect × Option Bytes :=
  let (p, effects, reply) := x.1.step (service.meet x.2 event)
  ((p, effects.foldl service.feel x.2), effects, reply)

end ClipService

end HostBridge
