import Daxson.Config
import Daxson.Yaml.Codec

/-! # Client profiles

A `Duration` has a decoder of its own, which wants a string, and no encoder.
-/

namespace Daxson.Config

open Yaml (GoType Library Node)

structure ClientProfile where
  version : Int64 := 0
  name : Bytes := []
  server : Bytes := []
  serverKey : Bytes := []
  deviceKey : Bytes := []
  tls : TLSConfig := {}
  transport : TransportCfg := {}
  proxy : ProxyConfig := {}
  reconnect : ReconnectCfg := {}
  deriving DecidableEq

def clientProfileDefaults : ClientProfile where
  version := 1
  tls := { fingerprint := ascii "chrome", nextProtos := [ascii "h2", ascii "http/1.1"] }
  transport :=
    { obfs := { enabled := true, personality := ascii "browser" }
      mux := { maxFrameSize := 32768, receiveBuffer := 4 * 1024 * 1024 } }
  proxy := { socks5 := ascii "127.0.0.1:1080", http := ascii "127.0.0.1:8080" }
  reconnect :=
    { enabled := true, maxRetries := -1, baseDelay := ⟨1000000000⟩, maxDelay := ⟨60000000000⟩
      multiplier := 0x4000000000000000 }

/-! ## The types -/

variable {Doc : Type} (lib : Library Doc)

def Duration.unmarshalYAML (value : Node) : Except GoError Duration :=
  match lib.decode .string value [] with
  | .error e => .error e
  | .ok s =>
    match lib.parseDuration s with
    | .error e => .error (.wrap "config: invalid duration %q: %w" [s] e)
    | .ok dur => .ok ⟨dur⟩

/-- A struct with one field, named after the type that it embeds. -/
def Duration.type : GoType Duration :=
  .struct "config.Duration" (.cons "duration" false .duration Duration.duration (fun _ x => ⟨x⟩) .nil)
    (some (Duration.unmarshalYAML lib))

def TLSConfig.type : GoType TLSConfig :=
  .struct "config.TLSConfig"
    (.cons "cert" false .string TLSConfig.certFile (fun c x => { c with certFile := x }) <|
      .cons "key" false .string TLSConfig.keyFile (fun c x => { c with keyFile := x }) <|
      .cons "server_name" false .string TLSConfig.serverName (fun c x => { c with serverName := x }) <|
      .cons "fingerprint" false .string TLSConfig.fingerprint (fun c x => { c with fingerprint := x }) <|
      .cons "insecure_skip_verify" false .bool TLSConfig.insecureSkipVerify
        (fun c x => { c with insecureSkipVerify := x }) <|
      .cons "next_protos" false (.slice "[]string" .string []) TLSConfig.nextProtos
        (fun c x => { c with nextProtos := x }) .nil)
    none

def ObfsConfig.type : GoType ObfsConfig :=
  .struct "config.ObfsConfig"
    (.cons "enabled" false .bool ObfsConfig.enabled (fun c x => { c with enabled := x }) <|
      .cons "personality" false .string ObfsConfig.personality (fun c x => { c with personality := x }) <|
      .cons "max_padding" false .int ObfsConfig.maxPadding (fun c x => { c with maxPadding := x }) <|
      .cons "write_jitter_max_ms" false .int ObfsConfig.writeJitterMax (fun c x => { c with writeJitterMax := x }) <|
      .cons "keepalive_interval" false (Duration.type lib) ObfsConfig.keepaliveInterval
        (fun c x => { c with keepaliveInterval := x }) <|
      .cons "keepalive_jitter" false (Duration.type lib) ObfsConfig.keepaliveJitter
        (fun c x => { c with keepaliveJitter := x }) .nil)
    none

def MuxConfig.type : GoType MuxConfig :=
  .struct "config.MuxConfig"
    (.cons "max_streams" false .int MuxConfig.maxStreams (fun c x => { c with maxStreams := x }) <|
      .cons "max_frame_size" false .int MuxConfig.maxFrameSize (fun c x => { c with maxFrameSize := x }) <|
      .cons "receive_buffer" false .int MuxConfig.receiveBuffer (fun c x => { c with receiveBuffer := x }) .nil)
    none

def TransportCfg.type : GoType TransportCfg :=
  .struct "config.TransportCfg"
    (.cons "obfs" false (ObfsConfig.type lib) TransportCfg.obfs (fun c x => { c with obfs := x }) <|
      .cons "mux" false MuxConfig.type TransportCfg.mux (fun c x => { c with mux := x }) .nil)
    none

def ProxyConfig.type : GoType ProxyConfig :=
  .struct "config.ProxyConfig"
    (.cons "socks5" false .string ProxyConfig.socks5 (fun c x => { c with socks5 := x }) <|
      .cons "http" false .string ProxyConfig.http (fun c x => { c with http := x }) .nil)
    none

def ReconnectCfg.type : GoType ReconnectCfg :=
  .struct "config.ReconnectCfg"
    (.cons "enabled" false .bool ReconnectCfg.enabled (fun c x => { c with enabled := x }) <|
      .cons "max_retries" false .int ReconnectCfg.maxRetries (fun c x => { c with maxRetries := x }) <|
      .cons "base_delay" false (Duration.type lib) ReconnectCfg.baseDelay (fun c x => { c with baseDelay := x }) <|
      .cons "max_delay" false (Duration.type lib) ReconnectCfg.maxDelay (fun c x => { c with maxDelay := x }) <|
      .cons "multiplier" false .float ReconnectCfg.multiplier (fun c x => { c with multiplier := x }) .nil)
    none

def ClientProfile.type : GoType ClientProfile :=
  .struct "config.ClientProfile"
    (.cons "version" false .int ClientProfile.version (fun p x => { p with version := x }) <|
      .cons "name" true .string ClientProfile.name (fun p x => { p with name := x }) <|
      .cons "server" false .string ClientProfile.server (fun p x => { p with server := x }) <|
      .cons "server_key" true (.slice "[]uint8" .byte 0) ClientProfile.serverKey
        (fun p x => { p with serverKey := x }) <|
      .cons "device_key" true .string ClientProfile.deviceKey (fun p x => { p with deviceKey := x }) <|
      .cons "tls" false TLSConfig.type ClientProfile.tls (fun p x => { p with tls := x }) <|
      .cons "transport" false (TransportCfg.type lib) ClientProfile.transport (fun p x => { p with transport := x }) <|
      .cons "proxy" false ProxyConfig.type ClientProfile.proxy (fun p x => { p with proxy := x }) <|
      .cons "reconnect" false (ReconnectCfg.type lib) ClientProfile.reconnect
        (fun p x => { p with reconnect := x }) .nil)
    none

/-! ## Saving and loading -/

def validateClientProfile (p : ClientProfile) : Option GoError :=
  if p.server = [] then some (.new "profile: server address is required" []) else none

abbrev Files (Doc : Type) := Bytes → Option Doc

structure SaveEnv (Doc : Type) where
  mkdir : Option SysError := none
  write : Option SysError := none
  /-- What a failed write leaves behind. -/
  left : Option Doc := none

def saveClientProfile (env : SaveEnv Doc) (p : ClientProfile) (path : Bytes) (fs : Files Doc) :
    Option GoError × Files Doc :=
  match env.mkdir with
  | some e => (some (.wrap "profile: mkdir: %w" [] (.sys e)), fs)
  | none =>
    match lib.marshal (ClientProfile.type lib) p with
    | .error e => (some (.wrap "profile: marshal: %w" [] e), fs)
    | .ok data =>
      match env.write with
      | some e => (some (.sys e), Function.update fs path env.left)
      | none => (none, Function.update fs path (some data))

def loadClientProfile (readErr : Option SysError) (path : Bytes) (fs : Files Doc) : Except GoError ClientProfile :=
  match readErr, fs path with
  | some e, _ => .error (.wrap "profile: read %s: %w" [path] (.sys e))
  | none, none => .error (.wrap "profile: read %s: %w" [path] (.sys (.other "no such file or directory")))
  | none, some data =>
    match lib.unmarshal (ClientProfile.type lib) data clientProfileDefaults with
    | .error e => .error (.wrap "profile: parse %s: %w" [path] e)
    | .ok p =>
      match validateClientProfile p with
      | some e => .error e
      | none => .ok p

variable {lib}

theorem saveClientProfile_ok {env : SaveEnv Doc} {p : ClientProfile} {path : Bytes} {fs : Files Doc}
    (h : (saveClientProfile lib env p path fs).1 = none) :
    ∃ data, lib.marshal (ClientProfile.type lib) p = .ok data ∧
      (saveClientProfile lib env p path fs).2 path = some data := by
  unfold saveClientProfile at h ⊢
  split at h
  · cases h
  · split at h
    · cases h
    · rename_i data hdata
      split at h
      · cases h
      · exact ⟨data, hdata, Function.update_self path _ fs⟩

theorem duration_failures (hlib : lib.Documented) (d : Duration) :
    (Duration.type lib).failures ((Duration.type lib).node lib.durationString d) ≠ [] := by
  obtain ⟨e, he⟩ := hlib.decode_string [(ascii "duration", .scalar (.str (lib.durationString d.duration)))] []
  have hcall : Duration.unmarshalYAML lib (.map [(ascii "duration", .scalar (.str (lib.durationString d.duration)))]) =
      .error e := by
    unfold Duration.unmarshalYAML
    rw [he]
  have hfail : (Duration.type lib).failures ((Duration.type lib).node lib.durationString d) = [e] := by
    change Yaml.callFailure (Duration.unmarshalYAML lib) (.map [(ascii "duration", .scalar _)]) = [e]
    unfold Yaml.callFailure
    dsimp only
    rw [hcall]
  rw [hfail]
  exact List.cons_ne_nil e []

theorem reconnect_failures (hlib : lib.Documented) (c : ReconnectCfg) :
    (ReconnectCfg.type lib).failures ((ReconnectCfg.type lib).node lib.durationString c) ≠ [] := by
  refine Yaml.struct_failures
    (?_ : (ascii "base_delay", (Duration.type lib).node lib.durationString c.baseDelay) ∈ _) ?_
  · iterate 2 apply Yaml.mem_pairs_rest
    exact Yaml.mem_pairs_head
  · exact duration_failures hlib c.baseDelay

theorem profile_failures (hlib : lib.Documented) (p : ClientProfile) :
    (ClientProfile.type lib).failures ((ClientProfile.type lib).node lib.durationString p) ≠ [] := by
  refine Yaml.struct_failures
    (?_ : (ascii "reconnect", (ReconnectCfg.type lib).node lib.durationString p.reconnect) ∈ _) ?_
  · iterate 8 apply Yaml.mem_pairs_rest
    exact Yaml.mem_pairs_head
  · exact reconnect_failures hlib p.reconnect

theorem load_marshalled (hlib : lib.Documented) {p : ClientProfile} {path : Bytes} {fs : Files Doc} {data : Doc}
    (hdata : lib.marshal (ClientProfile.type lib) p = .ok data) (h : fs path = some data) :
    ∃ e, loadClientProfile lib none path fs = .error (.wrap "profile: parse %s: %w" [path] e) := by
  obtain ⟨e, he⟩ := hlib.unmarshal_calls (ClientProfile.type lib) data _ clientProfileDefaults
    (hlib.marshal_tree _ p data hdata) (profile_failures hlib p)
  refine ⟨e, ?_⟩
  unfold loadClientProfile
  rw [h]
  dsimp only
  rw [he]

theorem saved_profile_unreadable (hlib : lib.Documented) (env : SaveEnv Doc) (p : ClientProfile) (path : Bytes)
    (fs fs' : Files Doc) (hsave : saveClientProfile lib env p path fs = (none, fs')) :
    ∃ e, loadClientProfile lib none path fs' = .error (.wrap "profile: parse %s: %w" [path] e) := by
  obtain ⟨data, hdata, hfile⟩ := saveClientProfile_ok (congrArg Prod.fst hsave)
  rw [hsave] at hfile
  exact load_marshalled hlib hdata hfile

theorem saved_profile_unreadable_defaults :
    ∃ fs e, saveClientProfile (Yaml.codec default) {} clientProfileDefaults (ascii "default.yaml") (fun _ => none) =
        (none, fs) ∧
      loadClientProfile (Yaml.codec default) none (ascii "default.yaml") fs =
        .error (.wrap "profile: parse %s: %w" [ascii "default.yaml"] e) := by
  obtain ⟨e, he⟩ := saved_profile_unreadable (Yaml.codec_documented default) {} clientProfileDefaults
    (ascii "default.yaml") (fun _ => none) _ rfl
  exact ⟨_, e, rfl, he⟩

/-- The defaults with a server, as `daxson import` saves them: there is a mismatch for each of the four durations. -/
theorem imported_profile_lost :
    let p : ClientProfile := { clientProfileDefaults with server := ascii "vpn:443" }
    p.server ≠ [] ∧ ∀ path fs, (saveClientProfile (Yaml.codec default) {} p path fs).1 = none ∧
      loadClientProfile (Yaml.codec default) none path (saveClientProfile (Yaml.codec default) {} p path fs).2 =
        .error (.wrap "profile: parse %s: %w" [path]
          (.new "yaml: unmarshal errors:\n  %s" (List.replicate 4 (ascii "cannot unmarshal !!map into string")))) := by
  intro p
  refine ⟨by decide, fun path fs => ⟨rfl, ?_⟩⟩
  have hfile : (saveClientProfile (Yaml.codec default) {} p path fs).2 path =
      some ((ClientProfile.type (Yaml.codec default)).node Yaml.secondsString p) := Function.update_self path _ fs
  have hread : (Yaml.codec default).unmarshal (ClientProfile.type (Yaml.codec default))
      ((ClientProfile.type (Yaml.codec default)).node Yaml.secondsString p) clientProfileDefaults =
      .error (.new "yaml: unmarshal errors:\n  %s"
        (List.replicate 4 (ascii "cannot unmarshal !!map into string"))) := by
    decide +kernel
  unfold loadClientProfile
  rw [hfile]
  dsimp only
  rw [hread]

end Daxson.Config
