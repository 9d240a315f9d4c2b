import ChuMicro.Lib.Scan
import ChuMicro.Lib.Bytes
import ChuMicro.Mqtt.Decoder
import ChuMicro.Mqtt.DecoderStream
import ChuMicro.Mqtt.DecoderProgress
import ChuMicro.Msgpack.Pure
import ChuMicro.Msgpack.RoundTrip
import ChuMicro.Lib.Prog
import ChuMicro.Timing
import ChuMicro.Websockets.Wire
import ChuMicro.Websockets.FrameStream
import ChuMicro.Websockets.Session
import ChuMicro.Websockets.Reassembly
import ChuMicro.Websockets.Traversal
import ChuMicro.Websockets.Delivery
import ChuMicro.Mqtt.Client
import ChuMicro.Mqtt.ClientSteps
import ChuMicro.Mqtt.ClientSpecs
import ChuMicro.Mqtt.ClientRuns
import ChuMicro.Mqtt.ClientQueue
import ChuMicro.Mqtt.ClientFraming
import ChuMicro.Http.Headers
import ChuMicro.HttpServer.RequestParser
import ChuMicro.HttpServer.RequestStream
import ChuMicro.Requests.Wire
import ChuMicro.Lib.LocalMachine
import ChuMicro.Http.RequestRoundTrip
import ChuMicro.Requests.ResponseStream
import ChuMicro.HttpServer.Response
import ChuMicro.Http.ResponseRoundTrip
import ChuMicro.HttpServer.Streaming
import ChuMicro.HttpServer.StreamFraming
import ChuMicro.HttpServer.StreamRuns
import ChuMicro.Http.StreamRoundTrip
import ChuMicro.Runner.PollSet
import ChuMicro.Runner.PollSync
import ChuMicro.Websockets.Handshake
import ChuMicro.Kvstore.Littlefs
import ChuMicro.Kvstore.Store
import ChuMicro.Requests.Url
import ChuMicro.Requests.Client
import ChuMicro.Requests.ClientRuns
import ChuMicro.Requests.ResponseOutcome
import ChuMicro.Buttons.Capture
import ChuMicro.Buttons.CaptureRuns
import ChuMicro.Buttons.Gestures
import ChuMicro.Buttons.GestureRuns
import ChuMicro.HttpServer.Connection
import ChuMicro.HttpServer.Server
import ChuMicro.HttpServer.ServerRuns
import ChuMicro.Requests.StreamWindow
import ChuMicro.Requests.StreamRuns
import ChuMicro.Runner.TaskRuns
import ChuMicro.Wifi.Service
import ChuMicro.Wifi.Supervision
import ChuMicro.Lib.Base128
import ChuMicro.Mqtt.PublishRoundTrip
import ChuMicro.Websockets.Violations
import ChuMicro.Websockets.Raising
import ChuMicro.Lib.Lines
import ChuMicro.Websockets.HandshakeRoundTrip
import ChuMicro.Lib.Ieee754Exact
import ChuMicro.Msgpack.Canonical
import ChuMicro.Lib.Utf8
import ChuMicro.Repl.Utf8Stream
import ChuMicro.Deploy.DevicesYaml
import ChuMicro.Deploy.Registry
import ChuMicro.PytestDevice.RuntimeConfig
import ChuMicro.Workspace.TemplateApply
import ChuMicro.Workspace.TemplateHistory
import ChuMicro.Workspace.Dependencies
import ChuMicro.Lib.Search
import ChuMicro.Workspace.Resolvers
import ChuMicro.Workspace.ResolversAgree
import ChuMicro.Lib.LinePattern
import ChuMicro.Lib.TextLines
import ChuMicro.PytestDevice.ResultParser
import ChuMicro.Lib.Cadence
import ChuMicro.Timing.Rate
import ChuMicro.Timing.Schedules
import ChuMicro.Requests.RedirectOrigin
import ChuMicro.Websockets.HandshakeBound
import ChuMicro.Msgpack.WireForm
import ChuMicro.Http.FramingNumbers
import ChuMicro.Kvstore.Backends
import ChuMicro.Kvstore.Commit
import ChuMicro.Runner.Generators
import ChuMicro.Runner.GeneratorRuns
import ChuMicro.Timing.Deadlines
import ChuMicro.Websockets.Client
import ChuMicro.Websockets.DeadlineRuns
import ChuMicro.Mqtt.DeadlineRuns
import ChuMicro.Knobs.Analog
import ChuMicro.Knobs.Encoder
import ChuMicro.Kvstore.NvmFraming
import ChuMicro.Mqtt.TopicMatches
import ChuMicro.HttpServer.Routing
import ChuMicro.Ntp.Client
import ChuMicro.Sockets.Generators
import ChuMicro.Ntp.ClientRuns
import ChuMicro.Buttons.Deadlines
import ChuMicro.Buttons.Overflow
import ChuMicro.Lib.Regex
import ChuMicro.Repl.LineEndings
import ChuMicro.Repl.Patterns
import ChuMicro.Repl.Follow
import ChuMicro.Repl.PatternLineEndings
import ChuMicro.Repl.FollowLineEndings
import ChuMicro.Deploy.Atomicity
import ChuMicro.Lib.Nested
import ChuMicro.Workspace.Flatten
import ChuMicro.Timing.Nearest
import ChuMicro.Workspace.MarkerRuns
import ChuMicro.Deploy.SerialWrites
import ChuMicro.Workspace.DeviceCommands
import ChuMicro.Deploy.Bootstrap
import ChuMicro.Lib.Worklist
import ChuMicro.Workspace.BootScan
import ChuMicro.Deploy.BootstrapFaithful
import ChuMicro.Deploy.ImportGraph
import ChuMicro.Workspace.BootShim
import ChuMicro.PytestDevice.Verdicts
import ChuMicro.Workspace.Merge
