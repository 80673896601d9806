import Cwist.Http2.TableSync
import Cwist.Http2.Deferral
import Cwist.Http2.StreamTable
import Cwist.Http2.RequestAccess
import Cwist.Http2.Budget
import Cwist.Http2.Pacing
import Cwist.Seq.Hostile
import Cwist.Quic.Credit
import Cwist.Seq.Auth
import Cwist.Grpc.Deadline
import Cwist.Http.HeaderLimit
import Cwist.Http.Readers
import Cwist.Ws.Mirror
import Cwist.Ws.Park
import Cwist.Graphql.Subscriptions
import Cwist.Grpc.Server.Paths
import Cwist.Grpc.Server.Conduct
import Cwist.Grpc.ProtobufRoundTrip
import Cwist.Http2.RequestRules
import Cwist.Redis.Commands
import Cwist.Redis.Frames
import Cwist.Jobs.Deliveries
import Cwist.Jobs.SchedulerRuns
import Cwist.Io.QueueConserves
import Cwist.App.RouterClone
import Cwist.App.Chain
import Cwist.App.BdrServe
import Cwist.App.RateLimitBound
import Cwist.App.StaticPathExact
import Cwist.App.StaticAnswers
import Cwist.Core.Arena
