import OxScada.Goose.Termination
import OxScada.Batcher.MerkleRoot
import OxScada.Batcher.Accounting
import OxScada.Batcher.Stranding
import OxScada.Dnp3.Receiver
import OxScada.Dnp3.ArmConsumption
import OxScada.Dnp3.AuthRuns
import OxScada.Dnp3.ConfirmRuns
import OxScada.Resilience.Manager
import OxScada.Anchoring.Numbering
import OxScada.Blueprint.Watchdog
import OxScada.Scaling.ReadBack
import OxScada.Integrity.Pipeline
import OxScada.Contracts.EventAnchor
import OxScada.Edge.LeafConflicts
import OxScada.Peers.Coverage
import OxScada.Scaling.MigrationRuns
import OxScada.Scaling.UpgradeRuns
import OxScada.Sparkplug.Recovery
import OxScada.Dnp3.BufferRuns
import OxScada.Goose.PcapStream
import OxScada.Blueprint.Scan
import OxScada.Dnp3.EventDecoding
import OxScada.Goose.PcapEncode
import OxScada.Goose.Shape
import OxScada.Edge.BatchRoot
import OxScada.Sparkplug.PayloadRoundTrip
import OxScada.Alarms.Restart
import OxScada.Scaling.Historian
import OxScada.Scaling.Fanout
import OxScada.Tuning.GainWrites
import OxScada.Marketplace.Dependencies
import OxScada.Dnp3.BurstDetection
import OxScada.Dnp3.FrameDecoding
import OxScada.Contracts.BountyClaims
import OxScada.Edge.Drains
import OxScada.Integrity.EventHash
import OxScada.Integrity.BatchVerification
import OxScada.Integrity.ProofCache
import OxScada.Edge.QueueReload
import OxScada.Sparkplug.Grammar
import OxScada.Modbus.Saturation
import OxScada.Modbus.Responses
import OxScada.Dnp3.RequestBounds
import OxScada.Dnp3.Class0Decoding
import OxScada.Dnp3.Pulses
import OxScada.Alarms.Forest
import OxScada.Sparkplug.Transitions
import OxScada.Crypto.MerkleTree
