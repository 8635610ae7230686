import SharedGraph.Number.Decimal
import SharedGraph.Number.Numeral
import SharedGraph.SortedMap
import SharedGraph.Text.Base64
import SharedGraph.Text.Sha256
import SharedGraph.ObjectId
import SharedGraph.Serial
import SharedGraph.Data
import SharedGraph.Json.Value
import SharedGraph.Fault
import SharedGraph.Operation
import SharedGraph.Message
import SharedGraph.Update
import SharedGraph.Entries
import SharedGraph.LiveObject
import SharedGraph.InPlace
import SharedGraph.Wire.Reader
import SharedGraph.Wire.Tree
import SharedGraph.Wire.Codec
import SharedGraph.Wire.Decoder
import SharedGraph.Failure
import SharedGraph.Graph.Basic
import SharedGraph.Graph.Collection
import SharedGraph.Graph.Delivery
import SharedGraph.Graph.Snapshot
import SharedGraph.Config
import SharedGraph.Replica
import SharedGraph.Sync
import SharedGraph.Subscriptions
import SharedGraph.Engine
import SharedGraph.Graph.Reading
import SharedGraph.Write
import SharedGraph.Hub
import SharedGraph.Client
import SharedGraph.Text.Unseen
import SharedGraph.Inspection
import SharedGraph.Collector
import SharedGraph.Clock
import SharedGraph.World
import SharedGraph.StressTest
import SharedGraph.Wire.Writable
import SharedGraph.Text.Stamp
import SharedGraph.Alias
import SharedGraph.Main
import SharedGraph.Proofs.Maps
import SharedGraph.Proofs.ExactSums
import SharedGraph.Proofs.Registers
import SharedGraph.Proofs.Objects
import SharedGraph.Proofs.Descriptions
import SharedGraph.Proofs.Handover
import SharedGraph.Proofs.Deliveries
import SharedGraph.Proofs.Interleaving
import SharedGraph.Proofs.Snapshots
import SharedGraph.Proofs.Runs
import SharedGraph.Proofs.Reports
import SharedGraph.Proofs.HubConvergence
import SharedGraph.Proofs.DefinedCounts
import SharedGraph.Proofs.Integrity
import SharedGraph.Proofs.Convergence
import SharedGraph.Proofs.DeliveryReports
import SharedGraph.Proofs.Forgetting
import SharedGraph.Proofs.Logs
import SharedGraph.Proofs.Pages
import SharedGraph.Proofs.Participants
import SharedGraph.Proofs.Provenance
import SharedGraph.Proofs.SnapshotReports
import SharedGraph.Proofs.Visibility
import SharedGraph.Proofs.Acceptance
import SharedGraph.Proofs.RootDeletion
import SharedGraph.Proofs.Minimality
import SharedGraph.Proofs.Refusals
import SharedGraph.Proofs.Redelivery
import SharedGraph.Proofs.Overriding
import SharedGraph.Proofs.Reapplication
import SharedGraph.Proofs.CatchingUp
import SharedGraph.Proofs.RefusedDescriptions
import SharedGraph.Proofs.Listings
import SharedGraph.Proofs.PagedDescriptions
import SharedGraph.Proofs.Interruptions
import SharedGraph.Proofs.Buffering
import SharedGraph.Proofs.Collections
import SharedGraph.Proofs.Numbering
import SharedGraph.Proofs.Acknowledgements
import SharedGraph.Proofs.LastWriter
import SharedGraph.Proofs.Ties
import SharedGraph.Proofs.LiveUpdates
import SharedGraph.Proofs.ByteTexts
import SharedGraph.Proofs.Literals
import SharedGraph.Proofs.Texts
import SharedGraph.Proofs.Records
import SharedGraph.Proofs.RoundTrip
import SharedGraph.Proofs.GracePeriods
import SharedGraph.Proofs.Readers
import SharedGraph.Proofs.Atomicity
import SharedGraph.Proofs.Finality
import SharedGraph.Proofs.Gathering
import SharedGraph.Proofs.Drains
import SharedGraph.Proofs.Listening
import SharedGraph.Proofs.HubPages
import SharedGraph.Proofs.Announcements
import SharedGraph.Proofs.Naming
import SharedGraph.Proofs.Removals
import SharedGraph.Proofs.Differences
