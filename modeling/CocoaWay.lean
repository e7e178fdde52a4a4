import CocoaWay.Activity.Main
import CocoaWay.Clipboard.Budget
import CocoaWay.CommandCache.Main
import CocoaWay.Control.Frame
import CocoaWay.Control.Main
import CocoaWay.EventSignal.Backpressure
import CocoaWay.FrameGate.Main
import CocoaWay.Gestures.Main
import CocoaWay.GuestClipboard.Settling
import CocoaWay.HostImage.Convergence
import CocoaWay.Images.Grammar
import CocoaWay.Images.Inventory
import CocoaWay.Keyboard.Main
import CocoaWay.Latency.Accounting
import CocoaWay.Launch.Assignment
import CocoaWay.Launch.Main
import CocoaWay.Launch.Stopping
import CocoaWay.Lib.Journal
import CocoaWay.Lib.Options
import CocoaWay.Lib.Split
import CocoaWay.Lib.Traversal
import CocoaWay.Lib.Turns
import CocoaWay.Lifecycle.Main
import CocoaWay.OwnedCleanup.Main
import CocoaWay.Pacing.Main
import CocoaWay.Panel.DisplayConflict
import CocoaWay.Panel.ImageRemoval
import CocoaWay.Panel.ResourceArgs
import CocoaWay.Panel.ResourceEdit
import CocoaWay.Pixels.Cursor
import CocoaWay.Pixels.Snapshot
import CocoaWay.Pixels.Upload
import CocoaWay.PointerInput.Buttons
import CocoaWay.PointerInput.Lock
import CocoaWay.Presentation.Main
import CocoaWay.ProcessOutput.Main
import CocoaWay.ProfileConfig.Main
import CocoaWay.Readiness.Main
import CocoaWay.Redaction.Values
import CocoaWay.Relay.Main
import CocoaWay.RenderBudget.Main
import CocoaWay.Renderer.Main
import CocoaWay.ResearchMcp.Serve
import CocoaWay.Scene.Frames
import CocoaWay.Sessions.Capture
import CocoaWay.Sessions.Editor
import CocoaWay.Sessions.Fields
import CocoaWay.Sessions.HostSocket
import CocoaWay.Sessions.RelayLists
import CocoaWay.Sessions.ServerCommand
import CocoaWay.Sessions.Unchanged
import CocoaWay.Surface.Desktop
import CocoaWay.Surface.Drawing
import CocoaWay.Surface.Geometry
import CocoaWay.Surface.Hits
import CocoaWay.Tasks.Basic
import CocoaWay.Tasks.Main
import CocoaWay.TextureLifetime.Main
import CocoaWay.Audio.Main
import CocoaWay.Calibration.Constraints
import CocoaWay.Calibration.Main
import CocoaWay.Connections.Config
import CocoaWay.Connections.Main
import CocoaWay.Control.Setup
import CocoaWay.Control.Stdio
import CocoaWay.InputProbe.Analyze
import CocoaWay.InputProbe.Main
import CocoaWay.InputProbe.Presentations
import CocoaWay.InputProbe.Reordering
import CocoaWay.InputProbe.Samples
import CocoaWay.ProbeClient.Agreement
import CocoaWay.ProcessOutput.Secrecy
import CocoaWay.ResearchMcp.Children
import CocoaWay.ResearchMcp.Ownership
import CocoaWay.RuntimeCommands.Capture
import CocoaWay.RuntimeCommands.Main
import CocoaWay.TraceAnalysis.Main
