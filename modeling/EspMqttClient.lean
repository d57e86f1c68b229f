import EspMqttClient.Data.CursorList
import EspMqttClient.Data.Buffer
import EspMqttClient.Data.Coalesce
import EspMqttClient.Data.Decoder
import EspMqttClient.Data.Thins
import EspMqttClient.Config
import EspMqttClient.Outbox.Basic
import EspMqttClient.Outbox.Equiv.Refinement
import EspMqttClient.Packets.Codec
import EspMqttClient.Packets.Packet
import EspMqttClient.Packets.Grammar
import EspMqttClient.Packets.Parser
import EspMqttClient.Packets.Stream
import EspMqttClient.Packets.Equiv.ParserCalls
import EspMqttClient.Packets.Equiv.ParserSplit
import EspMqttClient.Packets.Equiv.Codec
import EspMqttClient.Packets.Equiv.ParserRuns
import EspMqttClient.Packets.Equiv.Framing
import EspMqttClient.Packets.Equiv.PacketBytes
import EspMqttClient.Packets.Equiv.Grammar
import EspMqttClient.Packets.Equiv.Lists
import EspMqttClient.Packets.Equiv.Limits
import EspMqttClient.Packets.Equiv.Connect
import EspMqttClient.Packets.Equiv.RoundTrip
import EspMqttClient.Packets.Equiv.Slices
import EspMqttClient.Packets.Equiv.Publish
import EspMqttClient.Packets.Equiv.LongTopic
import EspMqttClient.MqttClient.Basic
import EspMqttClient.MqttClient.Queue
import EspMqttClient.MqttClient.Api
import EspMqttClient.MqttClient.Handlers
import EspMqttClient.MqttClient.Loop
import EspMqttClient.MqttClient.History
import EspMqttClient.Packets.Equiv.ParserReports
import EspMqttClient.Packets.Equiv.Midway
import EspMqttClient.Packets.Equiv.Legal
import EspMqttClient.Packets.Equiv.Recovery
import EspMqttClient.Packets.Equiv.Progress
import EspMqttClient.Packets.Equiv.Suback
import EspMqttClient.MqttClient.Equiv.Steps
import EspMqttClient.MqttClient.Equiv.Moves
import EspMqttClient.Packets.Equiv.Built
import EspMqttClient.Packets.Equiv.Window
import EspMqttClient.Packets.Equiv.Bounds
import EspMqttClient.Packets.Equiv.Chunked
import EspMqttClient.Packets.Equiv.Room
import EspMqttClient.Packets.Equiv.Offers
import EspMqttClient.Data.Trace
import EspMqttClient.MqttClient.Async
import EspMqttClient.MqttClient.Equiv.History
import EspMqttClient.MqttClient.Equiv.Cycles
import EspMqttClient.MqttClient.Equiv.Flow
import EspMqttClient.MqttClient.Equiv.Queued
import EspMqttClient.MqttClient.Equiv.Clearing
import EspMqttClient.MqttClient.Equiv.Farewell
import EspMqttClient.MqttClient.Equiv.Once
import EspMqttClient.MqttClient.Equiv.Order
import EspMqttClient.MqttClient.Equiv.Frames
import EspMqttClient.MqttClient.Equiv.Resume
import EspMqttClient.MqttClient.Equiv.Greeting
import EspMqttClient.MqttClient.Equiv.Handled
import EspMqttClient.MqttClient.Equiv.Acks
import EspMqttClient.MqttClient.Equiv.Requests
import EspMqttClient.MqttClient.Equiv.Deals
import EspMqttClient.MqttClient.Equiv.Tally
import EspMqttClient.MqttClient.Equiv.Unanswered
import EspMqttClient.MqttClient.Equiv.Numbers
import EspMqttClient.MqttClient.Equiv.Deliveries
import EspMqttClient.MqttClient.Equiv.Receipt
import EspMqttClient.MqttClient.Equiv.Rounds
import EspMqttClient.MqttClient.Equiv.Subscribed
import EspMqttClient.MqttClient.Equiv.Drain
import EspMqttClient.MqttClient.Equiv.Lifecycle
import EspMqttClient.MqttClient.Equiv.Reasons
import EspMqttClient.MqttClient.Equiv.Incoming
import EspMqttClient.MqttClient.Equiv.Async
import EspMqttClient.MqttClient.Equiv.Loss
import EspMqttClient.MqttClient.Equiv.Pings
import EspMqttClient.MqttClient.Equiv.Clock
import EspMqttClient.Transport.Basic
import EspMqttClient.MqttClient.AsyncTransport
import EspMqttClient.MqttClient.Equiv.Failures
import EspMqttClient.MqttClient.Equiv.Segments
import EspMqttClient.Outbox.Equiv.Previous
import EspMqttClient.Packets.Checked
import EspMqttClient.Packets.Equiv.Accesses
import EspMqttClient.Packets.Equiv.RemainingLength
import EspMqttClient.Data.Stretches
import EspMqttClient.Data.Arena
import EspMqttClient.MemoryPool.Variable
import EspMqttClient.MemoryPool.Equiv.Variable
import EspMqttClient.MemoryPool.Equiv.VariableRuns
import EspMqttClient.MemoryPool.Fixed
import EspMqttClient.MemoryPool.Equiv.Fixed
import EspMqttClient.Outbox.Pooled
import EspMqttClient.Outbox.Equiv.Pooled
import EspMqttClient.Transport.Posix
import EspMqttClient.MqttClient.PosixTransport
import EspMqttClient.MqttClient.Equiv.Inner
import EspMqttClient.MqttClient.Equiv.Posix
import EspMqttClient.MqttClient.Guarded
import EspMqttClient.MqttClient.Equiv.Guarded
import EspMqttClient.Data.Handshake
import EspMqttClient.MqttClient.Equiv.Sent
import EspMqttClient.MqttClient.Equiv.Arrivals
import EspMqttClient.Data.Window
import EspMqttClient.MqttClient.Equiv.Due
import EspMqttClient.MqttClient.Equiv.ChunkedSends
import EspMqttClient.Data.Queueing
import EspMqttClient.Packets.Equiv.ServerPacket
import EspMqttClient.MqttClient.Equiv.Reception
import EspMqttClient.MqttClient.Equiv.InTouch
import EspMqttClient.MqttClient.Equiv.ExactlyOnce
