import HostBridge.Platform.HostRecord
import HostBridge.Proofs.Deferral.Runs
import HostBridge.Proofs.Deferral.Snapshots
import HostBridge.Proofs.Codec.Calls
import HostBridge.Proofs.Codec.Replies
import HostBridge.Proofs.Table
import HostBridge.Simulation.Device
import HostBridge.Simulation.KeyboardView
import HostBridge.Simulation.ScriptedChannel
import HostBridge.Simulation.ScriptedTasks
import HostBridge.Simulation.Snapshots
import HostBridge.Typed.Call
import HostBridge.Value.Offer
import HostBridge.Value.Shape
import HostBridge.Window.InsetView
import HostBridge.Proofs.Deferral.Padding
import HostBridge.Proofs.Deferral.Handling
import HostBridge.Proofs.Deferral.Frames
import HostBridge.Proofs.Window.Edits
import HostBridge.Platform.Life
import HostBridge.Proofs.Platform.Refusals
import HostBridge.Platform.Wishes
import HostBridge.Proofs.Platform.Styles
import HostBridge.Proofs.Platform.HostCalls
import HostBridge.Proofs.Platform.Window
import HostBridge.Proofs.Platform.Devices
import HostBridge.Proofs.Deferral.Watchdog
import HostBridge.Proofs.Platform.Answers
import HostBridge.TaskLoop
import HostBridge.Proofs.Tasks.Loop
import HostBridge.Proofs.Platform.Notices
import HostBridge.Proofs.Codec.Acceptance
import HostBridge.Proofs.Codec.Normal
import HostBridge.Proofs.Codec.Canonical
import HostBridge.Platform.ClipService
import HostBridge.Proofs.Platform.Clipboard
import HostBridge.Proofs.Platform.Restoring
import HostBridge.Channel.History
import HostBridge.Proofs.Channel.Dispatch
import HostBridge.Proofs.Tasks.Turns
import HostBridge.Proofs.Tasks.Scripted
import HostBridge.Proofs.Value.Detour
import HostBridge.Platform.StyleArguments
import HostBridge.Proofs.Typed.Places
import HostBridge.Proofs.Platform.StyleArguments
import HostBridge.Proofs.Platform.StyleMaps
import HostBridge.Proofs.Platform.MimeTypes
import HostBridge.Proofs.Typed.Choices
import HostBridge.Proofs.Platform.Variants
import HostBridge.Proofs.Platform.RoundTrips
import HostBridge.Proofs.Platform.ClipboardReads
import HostBridge.Proofs.Platform.Orientations
import HostBridge.Proofs.Platform.Descriptions
