import DeusOs.NodeLink.Agreement
import DeusOs.NodeLink.Timeout
import DeusOs.Kernel.ResetOrder
import DeusOs.Kernel.EventDelivery
import DeusOs.Update.Completion
import DeusOs.Update.Model.Link
import DeusOs.Update.Availability
import DeusOs.Bootloader.Digest
import DeusOs.Asset.Chunking
import DeusOs.Asset.Retransmission
import DeusOs.Asset.TwoSlots
import DeusOs.Rpc.Recovery
import DeusOs.Rpc.Request
import DeusOs.Rpc.Answer
import DeusOs.Rpc.Reassembly
import DeusOs.Display.Present
import DeusOs.AssetLink.Client
import DeusOs.Asset.Durable
import DeusOs.Asset.Atomicity
import DeusOs.Rpc.Method
import DeusOs.Bootloader.Answer
import DeusOs.Kernel.TimedWake
import DeusOs.Asset.Layout
import DeusOs.Usb.Rings
import DeusOs.Usb.Control
import DeusOs.App.Ownership
import DeusOs.App.Events
import DeusOs.Host.Session
import DeusOs.Common.Canvas
import DeusOs.Display.Ui
import DeusOs.Bootloader.Hashing
import DeusOs.Display.Text
import DeusOs.Display.Terminal
import DeusOs.NodeLink.Output
import DeusOs.NodeLink.Runtime
import DeusOs.Rpc.Console
import DeusOs.Usb.DataStage
import DeusOs.Management.Control
import DeusOs.Management.Negotiation
import DeusOs.Console.Wakeup
import DeusOs.Display.Alive
