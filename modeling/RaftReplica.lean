import RaftReplica.Bytes
import RaftReplica.Cluster.Basic
import RaftReplica.Event.Basic
import RaftReplica.Event.Loop
import RaftReplica.Event.Recorder
import RaftReplica.Event.Summary
import RaftReplica.Failure
import RaftReplica.Health
import RaftReplica.Json.Scan
import RaftReplica.Json.Text
import RaftReplica.Log
import RaftReplica.Logging
import RaftReplica.Message
import RaftReplica.Number.Binary64
import RaftReplica.Number.Radix
import RaftReplica.Number.Shortest
import RaftReplica.Number.Word
import RaftReplica.Options
import RaftReplica.Peer.Address
import RaftReplica.Peer.Basic
import RaftReplica.Peer.Broadcast
import RaftReplica.Peer.Call
import RaftReplica.Peer.Directory
import RaftReplica.Peer.Roster
import RaftReplica.Pipe
import RaftReplica.Progress
import RaftReplica.Proofs.Arithmetic.Election
import RaftReplica.Proofs.Arithmetic.Handlers
import RaftReplica.Proofs.Arithmetic.Log
import RaftReplica.Proofs.Arithmetic.Progress
import RaftReplica.Proofs.Arithmetic.Safety
import RaftReplica.Proofs.Cluster.Acknowledgement
import RaftReplica.Proofs.Cluster.Commitment
import RaftReplica.Proofs.Cluster.Election
import RaftReplica.Proofs.Cluster.LogMatching
import RaftReplica.Proofs.Cluster.Messages
import RaftReplica.Proofs.Cluster.Play
import RaftReplica.Proofs.Cluster.Receipts
import RaftReplica.Proofs.Cluster.Retention
import RaftReplica.Proofs.Cluster.Run
import RaftReplica.Proofs.Cluster.StateMachineSafety
import RaftReplica.Proofs.Cluster.Step
import RaftReplica.Proofs.Event.Delivery
import RaftReplica.Proofs.Event.Drain
import RaftReplica.Proofs.Event.Interleaving
import RaftReplica.Proofs.Event.Pipe
import RaftReplica.Proofs.Event.Regroup
import RaftReplica.Proofs.Json.Number
import RaftReplica.Proofs.Json.Text
import RaftReplica.Proofs.Log.Append
import RaftReplica.Proofs.Log.Merge
import RaftReplica.Proofs.Log.Splice
import RaftReplica.Proofs.Number.Binary64
import RaftReplica.Proofs.Number.Radix
import RaftReplica.Proofs.Number.Rounding
import RaftReplica.Proofs.Peer.Broadcast
import RaftReplica.Proofs.Peer.Connection
import RaftReplica.Proofs.Peer.Roster
import RaftReplica.Proofs.Quorum.Algebra
import RaftReplica.Proofs.Quorum.CommitIndex
import RaftReplica.Proofs.Quorum.Majority
import RaftReplica.Proofs.Random.Uniform
import RaftReplica.Proofs.Replica.Answers
import RaftReplica.Proofs.Replica.Batching
import RaftReplica.Proofs.Replica.Becomes
import RaftReplica.Proofs.Replica.Bookkeeping
import RaftReplica.Proofs.Replica.Bootstrap
import RaftReplica.Proofs.Replica.CatchUp
import RaftReplica.Proofs.Replica.Change
import RaftReplica.Proofs.Replica.Coherence
import RaftReplica.Proofs.Replica.CommitStream
import RaftReplica.Proofs.Replica.Discipline
import RaftReplica.Proofs.Replica.Groups
import RaftReplica.Proofs.Replica.Holders
import RaftReplica.Proofs.Replica.Life
import RaftReplica.Proofs.Replica.LogChanges
import RaftReplica.Proofs.Replica.Mandate
import RaftReplica.Proofs.Replica.News
import RaftReplica.Proofs.Replica.Office
import RaftReplica.Proofs.Replica.Onward
import RaftReplica.Proofs.Replica.Outcome
import RaftReplica.Proofs.Replica.Progress
import RaftReplica.Proofs.Replica.Reach
import RaftReplica.Proofs.Replica.Replication
import RaftReplica.Proofs.Replica.Standing
import RaftReplica.Proofs.Replica.Term
import RaftReplica.Proofs.Replica.Turn
import RaftReplica.Proofs.Replica.Votes
import RaftReplica.Proofs.Sequence.Checkpoint
import RaftReplica.Proofs.Text.Form
import RaftReplica.Proofs.Time.Course
import RaftReplica.Proofs.Time.Delay
import RaftReplica.Proofs.Time.ElectionDelay
import RaftReplica.Proofs.Time.Rounds
import RaftReplica.Proofs.Time.Scaling
import RaftReplica.Proofs.Wire.Codec
import RaftReplica.Proofs.Wire.Rearrange
import RaftReplica.Proofs.Wire.Record
import RaftReplica.Proofs.Wire.Varint
import RaftReplica.Quorum.Basic
import RaftReplica.Quorum.Election
import RaftReplica.Random.ChaCha
import RaftReplica.Random.Normal
import RaftReplica.Random.Uniform
import RaftReplica.Random.WordSource
import RaftReplica.Random.Ziggurat
import RaftReplica.Replica.Basic
import RaftReplica.Replica.Effects
import RaftReplica.Replica.Handle
import RaftReplica.Replica.Lifecycle
import RaftReplica.Replica.Replication
import RaftReplica.Replica.Served
import RaftReplica.Role
import RaftReplica.Sequence
import RaftReplica.Service.Basic
import RaftReplica.Service.Shutdown
import RaftReplica.Simulation.Basic
import RaftReplica.Simulation.Drive
import RaftReplica.Simulation.Settle
import RaftReplica.Status
import RaftReplica.Text.Hex
import RaftReplica.Text.Invisible
import RaftReplica.Text.Percent
import RaftReplica.Text.Quoted
import RaftReplica.Text.Utf8
import RaftReplica.Time.Clock
import RaftReplica.Time.Duration
import RaftReplica.Time.Forwarder
import RaftReplica.Time.Interval
import RaftReplica.Time.Rig
import RaftReplica.Time.Tick
import RaftReplica.Time.Ticker
import RaftReplica.Time.Timer
import RaftReplica.Wire.Codec
import RaftReplica.Wire.Record
import RaftReplica.Wire.Varint
import RaftReplica.Proofs.Sequence.Binary
import RaftReplica.Proofs.Quorum.Tally
import RaftReplica.Proofs.Replica.Tenure
import RaftReplica.Proofs.Replica.Replies
import RaftReplica.Proofs.Replica.Stopping
