import Daxson.Auth.Agreement
import Daxson.Auth.Aligned
import Daxson.Auth.Calls
import Daxson.Auth.Exact
import Daxson.Auth.Label
import Daxson.Auth.Network
import Daxson.Auth.Proofs
import Daxson.Auth.Refusal
import Daxson.Auth.Replay
import Daxson.Auth.Skew
import Daxson.Auth.Spec
import Daxson.Bcl.AfterClose
import Daxson.Bcl.Delivery
import Daxson.Bcl.Echo
import Daxson.Bcl.Failures
import Daxson.Bcl.Fragment
import Daxson.Bcl.Holes
import Daxson.Bcl.Limits
import Daxson.Bcl.Nesting
import Daxson.Bcl.Pacer
import Daxson.Bcl.Peer
import Daxson.Bcl.Progress
import Daxson.Bcl.Proofs
import Daxson.Bcl.Rtt
import Daxson.Bcl.Shaping
import Daxson.Bcl.Sizes
import Daxson.Bcl.Spec
import Daxson.Bcl.Suppress
import Daxson.Bcl.Writer
import Daxson.Cmd.Connect
import Daxson.Cmd.Import
import Daxson.Cmd.Issue
import Daxson.Cmd.KeyRing
import Daxson.Cmd.Keys
import Daxson.Cmd.Limit
import Daxson.Cmd.Membership
import Daxson.Cmd.Serve
import Daxson.Config
import Daxson.Config.Profile
import Daxson.Connect.Chain
import Daxson.Connect.Codec
import Daxson.Connect.Copies
import Daxson.Connect.Proofs
import Daxson.Crypto
import Daxson.Dashboard
import Daxson.Go
import Daxson.Identity
import Daxson.Invite.Issue
import Daxson.Invite.Link
import Daxson.Invite.RoundTrip
import Daxson.Invite.Wire
import Daxson.Json.Proofs
import Daxson.Json.Spec
import Daxson.Lib.Base64
import Daxson.Lib.BigEndian
import Daxson.Lib.Bisect
import Daxson.Lib.Buffer
import Daxson.Lib.Buffered
import Daxson.Lib.Crew
import Daxson.Lib.Grow
import Daxson.Lib.Keyed
import Daxson.Lib.Machine
import Daxson.Lib.Pipe
import Daxson.Lib.Reader
import Daxson.Lib.Recognise
import Daxson.Lib.Refine
import Daxson.Lib.Sha256
import Daxson.Mux.Close
import Daxson.Mux.Relay
import Daxson.Net
import Daxson.Protocol.Frame
import Daxson.Protocol.Stream
import Daxson.Protocol.StreamOpen
import Daxson.Protocol.Truncation
import Daxson.Protocol.Writer
import Daxson.Proxy.Http
import Daxson.Proxy.Replies
import Daxson.Proxy.Socks5
import Daxson.Registry.Accounting
import Daxson.Registry.Crash
import Daxson.Registry.Directory
import Daxson.Registry.Failure
import Daxson.Registry.OneEntry
import Daxson.Registry.Proofs
import Daxson.Registry.Redeem
import Daxson.Registry.Revocation
import Daxson.Registry.Shared
import Daxson.Registry.ShortID
import Daxson.Registry.Spec
import Daxson.Registry.Standing
import Daxson.Relay.Accounts
import Daxson.Relay.Process
import Daxson.Relay.Upstream
import Daxson.Telemetry
import Daxson.Tunnel.Backoff
import Daxson.Tunnel.Classified
import Daxson.Tunnel.Client
import Daxson.Tunnel.Enrolment
import Daxson.Tunnel.Gauge
import Daxson.Tunnel.Leaks
import Daxson.Tunnel.Run
import Daxson.Tunnel.Server
import Daxson.Tunnel.ServerProofs
import Daxson.Tunnel.Serving
import Daxson.Tunnel.ServingProofs
import Daxson.Yaml
