import Courier.Request.Id
import Courier.Request.Lemmas
import Courier.Response.Lemmas
import Courier.Counter.Snapshot
import Courier.Scenario.Run
import Courier.Proofs.Traffic.Suspects
import Courier.Proofs.Call.RetrySafety
import Courier.Proofs.Exchange.Disposition
import Courier.Proofs.Pool.Admission
import Courier.Proofs.Pool.Capacity
import Courier.Proofs.Exchange.Abandonment
import Courier.Proofs.Pool.Lending
import Courier.Proofs.Pool.Queue
import Courier.Proofs.Pool.Shutdown
import Courier.Proofs.Pool.Fleet
import Courier.Proofs.Pool.Refusal
import Courier.Proofs.Request.Signature
import Courier.Proofs.Message.RoundTrip
import Courier.Proofs.Call.Signing
import Courier.Proofs.Frame.Inverse
import Courier.Proofs.Frame.FlatStream
import Courier.Proofs.Message.Envelopes
import Courier.Proofs.Message.Boundary
import Courier.Proofs.Message.FrameTypes
import Courier.Proofs.Exchange.Watched
import Courier.Proofs.Call.Ledger
import Courier.Proofs.Call.Course
import Courier.Proofs.Call.Delivery
import Courier.Proofs.Exchange.Lateness
import Courier.Proofs.Call.Lateness
import Courier.Proofs.Call.Reports
import Courier.Proofs.Pool.IdleOrder
import Courier.Proofs.Call.Negotiation
import Courier.Proofs.Pool.Filing
import Courier.Proofs.Context.Lineage
import Courier.Proofs.Context.Racing
import Courier.Proofs.Pool.Serving
import Courier.Proofs.Pool.OverLimit
import Courier.Proofs.Pool.Reckoning
import Courier.Proofs.Message.Limits
import Courier.Proofs.Pool.Handling
import Courier.Proofs.Pool.Refilling
import Courier.Proofs.Pool.Sweeping
import Courier.Proofs.Request.Issue
import Courier.Proofs.Selector.Target
import Courier.Proofs.Selector.AddressList
import Courier.Proofs.Counter.RoundTrip
import Courier.Proofs.Counter.History
import Courier.Proofs.Frame.Writing
