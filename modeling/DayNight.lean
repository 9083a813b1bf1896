import DayNight.Bytes.Lemmas
import DayNight.Channel.Mounted
import DayNight.Channel.Succession
import DayNight.Config.Json
import DayNight.Config.Loading
import DayNight.Controller.Run
import DayNight.Controller.Status
import DayNight.Detection.Walking
import DayNight.Gate.Outlet
import DayNight.Pipeline.Step
import DayNight.Pipeline.Stopping
import DayNight.Proofs.Channel.Backends
import DayNight.Proofs.Channel.Faithful
import DayNight.Proofs.Controller.Hold
import DayNight.Proofs.Gate.History
import DayNight.Proofs.Pipeline.Degraded
import DayNight.Proofs.Record.RoundTrip
import DayNight.Proofs.Slot.Recovery
import DayNight.Rehearsal.Direction
import DayNight.Slot.Traffic
import DayNight.Synthetic.Rig
import DayNight.Proofs.Controller.Handshake
import DayNight.Proofs.Controller.Manual
import DayNight.Proofs.Pipeline.Closing
import DayNight.Proofs.Pipeline.Custody
import DayNight.Proofs.Pipeline.Devices
import DayNight.Proofs.Pipeline.Steps
import DayNight.Proofs.Pipeline.Events
import DayNight.Proofs.Pipeline.Requests
import DayNight.Proofs.Pipeline.Outcome
import DayNight.Proofs.Pipeline.Handover
import DayNight.Proofs.Channel.Numbers
import DayNight.Proofs.Pipeline.Detections
import DayNight.Proofs.Record.Format
import DayNight.Proofs.Channel.Newest
import DayNight.Proofs.Pipeline.Release
import DayNight.Proofs.Pipeline.Waiting
import DayNight.Proofs.Pipeline.Sequences
import DayNight.Channel.Sharing
import DayNight.Proofs.Slot.File
import DayNight.Proofs.Slot.Sharing
import DayNight.Proofs.Brightness.Order
import DayNight.Proofs.Controller.Unattended
import DayNight.Proofs.Controller.Hysteresis
import DayNight.Proofs.Controller.Irrelevance
import DayNight.Proofs.Controller.Retries
import DayNight.Proofs.Controller.Reasons
import DayNight.Proofs.Controller.Degraded
import DayNight.Proofs.Slot.Attaching
import DayNight.Proofs.Slot.Content
import DayNight.Proofs.Channel.Capacity
import DayNight.Proofs.Pipeline.Failures
import DayNight.Proofs.Pipeline.Selection
import DayNight.Proofs.Synthetic.Accounts
import DayNight.Proofs.Synthetic.Probe
import DayNight.Proofs.Luma.Formats
import DayNight.Proofs.Synthetic.Stream
import DayNight.Proofs.Config.Layers
import DayNight.Proofs.Command.Grammar
import DayNight.Proofs.Detection.Walking
import DayNight.Jpeg.Code
import DayNight.Jpeg.Colour
import DayNight.Jpeg.Feed
import DayNight.Jpeg.Picture
