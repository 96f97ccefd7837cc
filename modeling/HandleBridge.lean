import HandleBridge.FileTree
import HandleBridge.Machine.Lemmas
import HandleBridge.Main
import HandleBridge.Proofs.Moves
import HandleBridge.Script
import HandleBridge.Proofs.Tables
import HandleBridge.Proofs.OwnHandle
import HandleBridge.Proofs.NoDangling
import HandleBridge.Proofs.Delivery
import HandleBridge.Proofs.Notification
import HandleBridge.Proofs.Cascade
import HandleBridge.Proofs.DeleteModes
import HandleBridge.Proofs.Rows
import HandleBridge.Proofs.SimulationReport
import HandleBridge.Proofs.Chronicle
import HandleBridge.Proofs.Trampolines
import HandleBridge.Proofs.Subscriptions
import HandleBridge.Proofs.SignalDelivery
import HandleBridge.Proofs.PartContents
import HandleBridge.Proofs.Pins
import HandleBridge.Proofs.Tracking
import HandleBridge.Proofs.Departure
import HandleBridge.Proofs.Stock
import HandleBridge.Proofs.DeleteQueue
import HandleBridge.Proofs.Binding
import HandleBridge.Proofs.Rebinding
import HandleBridge.Proofs.ConfigText
import HandleBridge.Proofs.FreshHandles
import HandleBridge.Proofs.Replacing
import HandleBridge.Proofs.StaleRequests
import HandleBridge.Proofs.Holders
import HandleBridge.Proofs.Registering
import HandleBridge.Proofs.Concord
import HandleBridge.Proofs.StaleUse
import HandleBridge.Proofs.ReportFrame
import HandleBridge.Proofs.BridgeLife
import HandleBridge.Proofs.DeletedHandlers
import HandleBridge.Proofs.CallStack
import HandleBridge.Proofs.ItemEvents
import HandleBridge.Proofs.Forwarding
