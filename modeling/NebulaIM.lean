import NebulaIM.Protocol.Previews
import NebulaIM.Gateway.RouterRuns
import NebulaIM.Gateway.Replies
import NebulaIM.Gateway.RateLimits
import NebulaIM.Gateway.Buffers
import NebulaIM.Message.Acks
import NebulaIM.Message.History
import NebulaIM.Push.Consumer
import NebulaIM.Push.Blocking
import NebulaIM.Push.Retries
import NebulaIM.Message.Idempotency
import NebulaIM.Message.Ids
import NebulaIM.Message.Events
import NebulaIM.Outbox.Delivery
import NebulaIM.Outbox.Retries
import NebulaIM.Push.Recalls
import NebulaIM.Relation.History
import NebulaIM.Device.Kicks
import NebulaIM.User.Failures
import NebulaIM.Device.Revocation
import NebulaIM.Chat.Unread
import NebulaIM.Chat.ReadMarks
import NebulaIM.Chat.GroupSends
import NebulaIM.Chat.Replays
import NebulaIM.Chat.Copies
import NebulaIM.Chat.Receiving
import NebulaIM.Limits.GatewayClient
import NebulaIM.Limits.RateLimiter
import NebulaIM.Trace.Exporter
import NebulaIM.Trace.Context
import NebulaIM.Net.Buffer
import NebulaIM.User.Passwords
import NebulaIM.Relation.Conversations
import NebulaIM.Backend.ConnectionPool
import NebulaIM.Net.EventLoop
import NebulaIM.Async.RpcExecutor
