import Grab.Action.Receipts
import Grab.Capture.Damage
import Grab.Codec.Filters
import Grab.Codec.Layout
import Grab.Desktop.InjectionLedger
import Grab.Desktop.InputFacade
import Grab.Desktop.ScratchLeases
import Grab.Desktop.WindowState
import Grab.Events.Demand
import Grab.Events.Flags
import Grab.Frontend.PeerSessions
import Grab.Frontend.WireCodec
import Grab.Graph.Removal
import Grab.Graph.Traversal
import Grab.Input.Gestures
import Grab.Lifecycle.Describe
import Grab.Lifecycle.Published
import Grab.Overlay.Batch
import Grab.Overlay.Broadcast
import Grab.Overlay.EditRegion
import Grab.Overlay.Identity
import Grab.Overlay.Pointer
import Grab.Overlay.TrailDrain
import Grab.Query.Flatten
import Grab.Query.RoundTrip
import Grab.Scheduling.Orderly
import Grab.Scheduling.Wakeups
import Grab.Semantic.Chunking
import Grab.Semantic.NodeIdentity
import Grab.Sequence.Handles
import Grab.Sequence.Overflow
import Grab.Sequence.Player.Drains
import Grab.Sequence.Player.Grace
import Grab.Sequence.Seat.Captures
import Grab.Sequence.Seat.Reports
import Grab.Sequence.Seat.Taps
import Grab.Sequence.Seat.Walks
import Grab.Sequence.Seat.Waypoints
import Grab.Sequence.Splice
import Grab.Session.Liveness
import Grab.Spaces.Generations
import Grab.Storage.ExactlyOnce
import Grab.Storage.NewestFiles
import Grab.Support.Drift
import Grab.Target.Aliases
import Grab.Target.Identity
import Grab.Tree.Admission
import Grab.Tree.Changes
import Grab.Tree.Patch
import Grab.Tree.Publication
import Grab.Tree.Views
