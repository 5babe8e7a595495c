import Edr.Query.Exact
import Edr.Worker
import Edr.Rollup.Settled
import Edr.Rollup.Barrier
import Edr.Layout.Sessions
import Edr.Detection.Aggregates
import Edr.Detection.Lifecycle
import Edr.Risk.Page
import Edr.Agents.Run
import Edr.Migrations
import Edr.Rollup.Backfill
import Edr.Rollup.Poison
import Edr.Query.Detail
import Edr.Restore.Race
import Edr.Detection.Window
import Edr.Risk.State
import Edr.Rollup.TopLists
import Edr.Failure.Replay
import Edr.Deadlock
import Edr.Buffer.Failing
import Edr.Detection.Isolation
import Edr.Collector
import Edr.Packet.Stream
import Edr.Dns
import Edr.Packet.Encoding
import Edr.Overview.Store
import Edr.Topology
