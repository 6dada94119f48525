import Hivemind.Message
import Hivemind.StateMachine
import Hivemind.Apply
import Hivemind.Disk
import Hivemind.Candidate
import Hivemind.Replica
import Hivemind.Scheduler
import Hivemind.Commit
import Hivemind.Selection
import Hivemind.ViewChange
import Hivemind.Normal
import Hivemind.Repair
import Hivemind.Flush
import Hivemind.Process
import Hivemind.Recover
import Hivemind.Requests
import Hivemind.Cluster
import Hivemind.Sample
import Hivemind.Journal
import Hivemind.HashChain
import Hivemind.Install
import Hivemind.Transition
import Hivemind.Sane
import Hivemind.Reach
import Hivemind.ReachView
import Hivemind.ReachNormal
import Hivemind.ReachRepair
import Hivemind.ReachFlush
import Hivemind.ReachCall
import Hivemind.Execution
import Hivemind.Live
import Hivemind.Ticks
import Hivemind.Solid
import Hivemind.Fold
import Hivemind.Durable
import Hivemind.Net
import Hivemind.Installs
import Hivemind.Recovery
import Hivemind.Answers
import Hivemind.Lineage
import Hivemind.Once
import Hivemind.Promise
import Hivemind.Stamps
import Hivemind.Whole
import Hivemind.Orbit
import Hivemind.Ids
import Hivemind.Tables
import Hivemind.Capacity
import Hivemind.Slots
import Hivemind.Placement
import Hivemind.Switches
import Hivemind.Wire
import Hivemind.Stepped
import Hivemind.ApiWire
import Hivemind.ClusterState
import Hivemind.Gossip
import Hivemind.Peers
import Hivemind.OwnVotes
import Hivemind.WorkerPanics
import Hivemind.WorkerLife
import Hivemind.WorkerCustody
import Hivemind.Batch
import Hivemind.Scaling
import Hivemind.Stops
import Hivemind.PendingStops
import Hivemind.Ready
import Hivemind.Overflow
import Hivemind.MostRecent
import Hivemind.Births
import Hivemind.Links
import Hivemind.Fifo
import Hivemind.Streams
import Hivemind.WorkerStream
