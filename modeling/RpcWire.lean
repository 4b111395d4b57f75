import RpcWire.Client
import RpcWire.Main
import RpcWire.Proofs.Abandoning
import RpcWire.Proofs.Accounts
import RpcWire.Proofs.Aligning
import RpcWire.Proofs.Alternating
import RpcWire.Proofs.Announcing
import RpcWire.Proofs.Answers
import RpcWire.Proofs.Arrival
import RpcWire.Proofs.Balance
import RpcWire.Proofs.Blocks
import RpcWire.Proofs.Boundaries
import RpcWire.Proofs.Charging
import RpcWire.Proofs.Conversation
import RpcWire.Proofs.Courses
import RpcWire.Proofs.Cuts
import RpcWire.Proofs.Detection
import RpcWire.Proofs.Drawing
import RpcWire.Proofs.Drawing.Values
import RpcWire.Proofs.EnvelopeHead
import RpcWire.Proofs.Enveloping
import RpcWire.Proofs.Exchanging
import RpcWire.Proofs.Expiring
import RpcWire.Proofs.Faultless
import RpcWire.Proofs.Frames
import RpcWire.Proofs.Framing
import RpcWire.Proofs.Groups
import RpcWire.Proofs.Handover
import RpcWire.Proofs.Headcount
import RpcWire.Proofs.Hearing
import RpcWire.Proofs.Indexing
import RpcWire.Proofs.Interleaving
import RpcWire.Proofs.Lasting
import RpcWire.Proofs.Layout
import RpcWire.Proofs.Layout.CodecReading
import RpcWire.Proofs.Layout.CodecState
import RpcWire.Proofs.Layout.CodecWriting
import RpcWire.Proofs.Layout.Depth
import RpcWire.Proofs.Layout.Gathering
import RpcWire.Proofs.Layout.Limits
import RpcWire.Proofs.Layout.Records
import RpcWire.Proofs.Layout.Schemas
import RpcWire.Proofs.Layout.SearchResults
import RpcWire.Proofs.Layout.Skipping
import RpcWire.Proofs.Layout.ValueReading
import RpcWire.Proofs.Layout.ValueWriting
import RpcWire.Proofs.Lending
import RpcWire.Proofs.Letters
import RpcWire.Proofs.Loading
import RpcWire.Proofs.Matching
import RpcWire.Proofs.Metering
import RpcWire.Proofs.Numbers
import RpcWire.Proofs.Occurring
import RpcWire.Proofs.Operations
import RpcWire.Proofs.Outgoing
import RpcWire.Proofs.Paging
import RpcWire.Proofs.Parcels
import RpcWire.Proofs.Parts
import RpcWire.Proofs.Pieces
import RpcWire.Proofs.Pooling
import RpcWire.Proofs.Queueing
import RpcWire.Proofs.Receiving
import RpcWire.Proofs.Recurring
import RpcWire.Proofs.Recycling
import RpcWire.Proofs.Refusing
import RpcWire.Proofs.Replying
import RpcWire.Proofs.Resetting
import RpcWire.Proofs.Retrying
import RpcWire.Proofs.Returning
import RpcWire.Proofs.Reusing
import RpcWire.Proofs.Sending
import RpcWire.Proofs.Serving
import RpcWire.Proofs.Sizes
import RpcWire.Proofs.Snapshots
import RpcWire.Proofs.Steps
import RpcWire.Proofs.Supply
import RpcWire.Proofs.Taking
import RpcWire.Proofs.Tracking
import RpcWire.Proofs.Tracking.Channels
import RpcWire.Proofs.Tracking.Codecs
import RpcWire.Proofs.Tracking.Endpoints
import RpcWire.Proofs.Tracking.Sessions
import RpcWire.Proofs.Tracking.Values
import RpcWire.Proofs.Truncation
import RpcWire.Proofs.Truncation.Input
import RpcWire.Proofs.Unread
import RpcWire.Proofs.Visiting
import RpcWire.Proofs.Wearing
import RpcWire.Proofs.Widths
import RpcWire.Proofs.Wrapping
