import Daxson.Go

/-! # The configuration checks -/

namespace Daxson.Config

inductive Mode where
  | client
  | server
  | relay
  | other (text : Bytes)
  deriving DecidableEq, Repr

structure ProxyConfig where
  socks5 : Bytes := []
  http : Bytes := []
  deriving DecidableEq, Repr

structure TLSConfig where
  certFile : Bytes := []
  keyFile : Bytes := []
  serverName : Bytes := []
  fingerprint : Bytes := []
  insecureSkipVerify : Bool := false
  nextProtos : List Bytes := []
  deriving DecidableEq, Repr

structure AuthConfig where
  psk : Bytes := []
  deriving DecidableEq, Repr

/-- A struct around a `time.Duration`, in nanoseconds. -/
structure Duration where
  duration : Int64 := 0
  deriving DecidableEq, Repr

structure ObfsConfig where
  enabled : Bool := false
  personality : Bytes := []
  maxPadding : Int64 := 0
  writeJitterMax : Int64 := 0
  keepaliveInterval : Duration := {}
  keepaliveJitter : Duration := {}
  deriving DecidableEq, Repr

structure MuxConfig where
  maxStreams : Int64 := 0
  maxFrameSize : Int64 := 0
  receiveBuffer : Int64 := 0
  deriving DecidableEq, Repr

structure TransportCfg where
  obfs : ObfsConfig := {}
  mux : MuxConfig := {}
  deriving DecidableEq, Repr

structure ReconnectCfg where
  enabled : Bool := false
  /-- Negative is without end. -/
  maxRetries : Int64 := 0
  baseDelay : Duration := {}
  maxDelay : Duration := {}
  /-- A `float64`, by its bits. -/
  multiplier : UInt64 := 0
  deriving DecidableEq, Repr

structure TunnelConfig where
  addr : Bytes := []
  auth : AuthConfig := {}
  tls : TLSConfig := {}
  transport : TransportCfg := {}
  reconnect : ReconnectCfg := {}
  deriving DecidableEq, Repr

structure ServerConfig where
  tls : TLSConfig := {}
  auth : AuthConfig := {}
  probeUpstream : Bytes := []
  identityKey : Bytes := []
  deriving DecidableEq, Repr

structure UpstreamConfig where
  addr : Bytes := []
  auth : AuthConfig := {}
  deriving DecidableEq, Repr

end Daxson.Config

structure Daxson.Config where
  mode : Daxson.Config.Mode
  proxy : Daxson.Config.ProxyConfig := {}
  tunnel : Daxson.Config.TunnelConfig := {}
  server : Daxson.Config.ServerConfig := {}
  upstream : Daxson.Config.UpstreamConfig := {}
  deriving DecidableEq, Repr

namespace Daxson.Config

def defaults : Config where
  mode := .other []
  proxy := { socks5 := ascii "127.0.0.1:1080", http := ascii "127.0.0.1:8080" }
  tunnel :=
    { tls := { fingerprint := ascii "chrome", nextProtos := [ascii "h2", ascii "http/1.1"] }
      transport :=
        { obfs :=
            { enabled := true, maxPadding := 256, writeJitterMax := 8
              keepaliveInterval := ⟨60000000000⟩, keepaliveJitter := ⟨15000000000⟩ }
          mux := { maxStreams := 512, maxFrameSize := 32768, receiveBuffer := 4 * 1024 * 1024 } }
      reconnect :=
        { enabled := true, maxRetries := -1, baseDelay := ⟨1000000000⟩, maxDelay := ⟨60000000000⟩
          multiplier := 0x4000000000000000 } }
  server := { tls := { nextProtos := [ascii "h2", ascii "http/1.1"] } }

def validate (c : Config) : Option GoError :=
  match c.mode with
  | .client =>
    if c.tunnel.addr.isEmpty then some (.new "client mode requires tunnel.addr" [])
    else if c.tunnel.auth.psk.isEmpty then some (.new "client mode requires tunnel.auth.psk" [])
    else if c.tunnel.auth.psk.length < 16 then
      some (.new "tunnel.auth.psk must be at least 16 characters" [])
    else none
  | .server =>
    if c.server.tls.certFile.isEmpty || c.server.tls.keyFile.isEmpty then
      some (.new "server mode requires server.tls.cert and server.tls.key" [])
    else if c.server.auth.psk.isEmpty && c.server.identityKey.isEmpty then
      some (.new "server mode requires server.auth.psk or server.identity_key" [])
    else none
  | .relay =>
    if c.server.tls.certFile.isEmpty || c.server.tls.keyFile.isEmpty then
      some (.new "relay mode requires server.tls.cert and server.tls.key" [])
    else if c.upstream.addr.isEmpty then some (.new "relay mode requires upstream.addr" [])
    else if c.server.auth.psk.isEmpty || c.upstream.auth.psk.isEmpty then
      some (.new "relay mode requires server.auth.psk and upstream.auth.psk" [])
    else none
  | .other text => some (.new "unknown mode: %q (must be client, server, or relay)" [text])

end Daxson.Config
