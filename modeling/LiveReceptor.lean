import LiveReceptor.Library.Keyed
import LiveReceptor.Library.RobinHoodMap
import LiveReceptor.Library.Runs
import LiveReceptor.Shared.Framing.Chunking
import LiveReceptor.Shared.Framing.Skipping
import LiveReceptor.Shared.AsioSocketWriteHelper
import LiveReceptor.Supervisor.AmqpBuffering
import LiveReceptor.Supervisor.RoomLimit
import LiveReceptor.Supervisor.RoomList
import LiveReceptor.Supervisor.Licence
import LiveReceptor.Supervisor.Deduplication
import LiveReceptor.Supervisor.Disconnect
import LiveReceptor.Supervisor.CommandLog
import LiveReceptor.Supervisor.Idle
import LiveReceptor.Worker.Orphans
import LiveReceptor.Worker.Generations
import LiveReceptor.Worker.BiliJsonSafety
import LiveReceptor.Worker.PacketParser
import LiveReceptor.Worker.JoinRoomPacket
import LiveReceptor.Worker.NestedInflation
import LiveReceptor.Worker.Reopening
import LiveReceptor.Worker.SerialRefinement
import LiveReceptor.Agreement.Quiescence
import LiveReceptor.Agreement.ControlChannel
import LiveReceptor.Agreement.DataChannel
import LiveReceptor.Agreement.CrossRoom
import LiveReceptor.Agreement.AuthCode
import LiveReceptor.Supervisor.Oscillation
import LiveReceptor.Supervisor.RoomFloor
import LiveReceptor.Supervisor.ErasedRecords
import LiveReceptor.Supervisor.Penalties
import LiveReceptor.Supervisor.Timeouts
import LiveReceptor.Supervisor.MaxTasksPerRoom
import LiveReceptor.Supervisor.DeduplicateStore
import LiveReceptor.Worker.Reconnect
import LiveReceptor.Worker.BilibiliConnectionPlainTcp
import LiveReceptor.Supervisor.RoomListUpdater
import LiveReceptor.Supervisor.Listening
import LiveReceptor.Supervisor.WideAccesses
import LiveReceptor.Supervisor.RoomTable
import LiveReceptor.Worker.BilibiliLiveConfig
import LiveReceptor.Worker.FieldFidelity
import LiveReceptor.Worker.MessageIsolation
import LiveReceptor.Supervisor.Coverage
import LiveReceptor.Supervisor.EventualCoverage
import LiveReceptor.Supervisor.AmqpReconnect
import LiveReceptor.Agreement.ExactlyOnce
import LiveReceptor.Agreement.Arrival
import LiveReceptor.Agreement.Bursts
import LiveReceptor.Worker.Retrying
import LiveReceptor.Agreement.RoutingKeys
import LiveReceptor.Worker.Attending
import LiveReceptor.Supervisor.Popularity
import LiveReceptor.Supervisor.HashTables
import LiveReceptor.Supervisor.HashOverflow
