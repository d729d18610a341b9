import Daxson.Cmd.Import
import Daxson.Net
import Daxson.Tunnel.Client
import Mathlib.Data.List.TakeWhile

/-! # `daxson connect`

`runConnect` passes nil for the metrics of its client and proxies.
-/

open Lib.Machine

namespace Daxson.Cmd

open Config Invite Tunnel

def buildLegacyConfig (p : ClientProfile) : Config :=
  { defaults with
    mode := .client
    tunnel :=
      { addr := p.server, auth := { psk := ascii "unused-device-auth" }, tls := p.tls, transport := p.transport
        reconnect := p.reconnect }
    proxy := p.proxy }

/-! ## Metrics -/

/-- The client and the proxies as `runConnect` makes them. -/
def runConnect (profile : ClientProfile) (socks5Override httpOverride : Bytes) : ClientProcess :=
  let proxy : ProxyConfig :=
    { socks5 := if socks5Override ≠ [] then socks5Override else profile.proxy.socks5
      http := if httpOverride ≠ [] then httpOverride else profile.proxy.http }
  let cfg := buildLegacyConfig { profile with proxy := proxy }
  { reconnect := cfg.tunnel.reconnect
    met := .nil
    socks5 := { addr := proxy.socks5, met := .nil }
    http := { addr := proxy.http, met := .nil } }

/-- A run of `daxson connect` has not panicked exactly while nothing was recorded. -/
theorem connect_unpanicked_iff (profile : ClientProfile) (socks5Override httpOverride : Bytes) (as : List Act)
    (t : ClientProcess) (hrun : run ClientProcess.step (runConnect profile socks5Override httpOverride) as = some t) :
    t.panicked = false ↔
      AllSteps ClientProcess.step ClientProcess.Silent (runConnect profile socks5Override httpOverride) as := by
  refine run_nil_iff as _ t rfl ⟨rfl, fun k => ?_⟩ hrun
  cases k <;> rfl

theorem connect_unpanicked_iff_interrupted :
    ∃ t, run ClientProcess.step (runConnect clientProfileDefaults [] [])
      [.signal, .connectFailed, .commandReturns] = some t ∧
      (t.panicked = false ↔ AllSteps ClientProcess.step ClientProcess.Silent (runConnect clientProfileDefaults [] [])
        [.signal, .connectFailed, .commandReturns]) :=
  ⟨_, rfl, connect_unpanicked_iff clientProfileDefaults [] [] _ _ rfl⟩

theorem first_dial_panics :
    (run ClientProcess.step (runConnect clientProfileDefaults [] []) [.connected]).map ClientProcess.panicked =
      some true ∧
      (run ClientProcess.step (runConnect clientProfileDefaults [] []) [.connectFailed]).map ClientProcess.panicked =
        some true := by
  decide +kernel

/-! ## Server names -/

/-- The transport of `Client.connect`. -/
def connectTransport (cfg : Config) : ClientTransport :=
  newClientTransport cfg.tunnel.tls.serverName cfg.tunnel.tls.fingerprint cfg.tunnel.tls.nextProtos
    cfg.tunnel.tls.insecureSkipVerify

theorem extractHostname_append (front : Bytes) {back : Bytes} (h : 58 ∉ back) :
    extractHostname (front ++ 58 :: back) = front := by
  have hback : back.reverse.dropWhile (· != 58) = [] := by
    rw [List.dropWhile_eq_nil_iff]
    intro c hc
    have hne : c ≠ 58 := by
      rintro rfl
      exact h (List.mem_reverse.mp hc)
    simpa using hne
  unfold extractHostname
  rw [List.reverse_append, List.reverse_cons, List.append_assoc, List.dropWhile_append, hback]
  simp

theorem extractHostname_of_mem (front : Bytes) {back : Bytes} (h : 58 ∈ back) :
    ∃ more, extractHostname (front ++ 58 :: back) = front ++ 58 :: more := by
  obtain ⟨as, bs, heq, hnot⟩ := List.eq_append_cons_of_mem (List.mem_reverse.mpr h)
  have hback : back = bs.reverse ++ 58 :: as.reverse := by
    rw [← List.reverse_reverse back, heq]
    simp
  refine ⟨bs.reverse, ?_⟩
  rw [hback, ← List.cons_append, ← List.append_assoc]
  exact extractHostname_append _ (by simpa using hnot)

theorem extractHostname_joinHostPort (host port : Bytes) :
    extractHostname (Net.joinHostPort host port) = host ↔ 58 ∉ host ∧ 58 ∉ port := by
  unfold Net.joinHostPort
  split_ifs with hhost
  · -- the brackets are left on the name
    have hjoin : ascii "[" ++ host ++ ascii "]:" ++ port = (91 :: host ++ [93]) ++ 58 :: port := by simp [ascii]
    rw [hjoin]
    have hlonger : extractHostname ((91 :: host ++ [93]) ++ 58 :: port) ≠ host := by
      intro heq
      have hlen := congrArg List.length heq
      by_cases hport : 58 ∈ port
      · obtain ⟨more, hmore⟩ := extractHostname_of_mem (91 :: host ++ [93]) hport
        rw [hmore] at hlen
        simp at hlen
        omega
      · rw [extractHostname_append _ hport] at hlen
        simp at hlen
        omega
    exact iff_of_false hlonger fun h => h.1 hhost
  · have hjoin : host ++ ascii ":" ++ port = host ++ 58 :: port := by simp [ascii]
    rw [hjoin]
    by_cases hport : 58 ∈ port
    · obtain ⟨more, hmore⟩ := extractHostname_of_mem host hport
      rw [hmore]
      simp [hport]
    · rw [extractHostname_append _ hport]
      simp [hhost, hport]

/-- A profile that was imported names no server. -/
theorem server_names_iff {Doc : Type} (cr : Crypto) (lib : Yaml.Library Doc) (env : ImportEnv Doc)
    (link profileName deviceLabel : Bytes) (noVerify : Bool) (fs : Files Doc)
    (hok : (runImport cr lib env link profileName deviceLabel noVerify fs).err = none) :
    ∃ p tr data, decode link = .ok p ∧
      let r := runImport cr lib env link profileName deviceLabel noVerify fs
      let saved := importProfile profileName env.keyPath p
      let connectName := (connectTransport (buildLegacyConfig saved)).serverName
      r.dialed = some (tr, p.server) ∧
      lib.marshal (ClientProfile.type lib) saved = .ok data ∧ r.files (env.profilePath profileName) = some data ∧
      (connectName = tr.serverName ↔ extractHostname p.server = []) ∧
      ∀ host port, p.server = Net.joinHostPort host port →
        (tr.serverName = host ↔ 58 ∉ host ∧ 58 ∉ port) ∧ (connectName = host ↔ host = []) := by
  rcases runImport_cases cr lib env link profileName deviceLabel noVerify fs
    with ⟨e, hrun⟩ | ⟨p, kp, label, haccept, hrun⟩
  · rw [hrun] at hok
    cases hok
  · obtain ⟨hdialed, -, hsaved⟩ := register_spec lib env p kp profileName label fs
    rw [hrun] at hok ⊢
    obtain ⟨-, data, hdata, hfile⟩ := hsaved hok
    refine ⟨p, importTransport p, data, (acceptLink_inv haccept).1, hdialed, hdata, hfile, ?_, ?_⟩
    · exact eq_comm
    · intro host port hserver
      refine ⟨?_, eq_comm⟩
      rw [← extractHostname_joinHostPort, ← hserver]
      rfl

theorem server_names_iff_unsigned :
    ∃ p tr data, decode unsignedPayload.encode = .ok p ∧
      let r := runImport hashCrypto (Yaml.codec default) welcomingEnv unsignedPayload.encode (ascii "work")
        [] false fun _ => none
      let saved := importProfile (ascii "work") welcomingEnv.keyPath p
      let connectName := (connectTransport (buildLegacyConfig saved)).serverName
      r.dialed = some (tr, p.server) ∧
      (Yaml.codec default).marshal (ClientProfile.type (Yaml.codec default)) saved = .ok data ∧
      r.files (welcomingEnv.profilePath (ascii "work")) = some data ∧
      (connectName = tr.serverName ↔ extractHostname p.server = []) ∧
      ∀ host port, p.server = Net.joinHostPort host port →
        (tr.serverName = host ↔ 58 ∉ host ∧ 58 ∉ port) ∧ (connectName = host ↔ host = []) := by
  apply server_names_iff
  have hdecode : decode unsignedPayload.encode = .ok unsignedPayload := by
    rw [decode_encode]
    rfl
  simp only [runImport, acceptLink, hdecode]
  rfl

/-- Registered as `vpn`, connected as nobody; and an IPv6 literal keeps its brackets. -/
theorem server_names_differ :
    let r := runImport hashCrypto (Yaml.codec default) welcomingEnv unsignedPayload.encode (ascii "work")
      [] false fun _ => none
    let saved := importProfile (ascii "work") welcomingEnv.keyPath unsignedPayload
    r.err = none ∧ unsignedPayload.server = Net.joinHostPort (ascii "vpn") (ascii "443") ∧
      r.dialed.map (·.1.serverName) = some (ascii "vpn") ∧
      (connectTransport (buildLegacyConfig saved)).serverName = [] ∧
      extractHostname (Net.joinHostPort (ascii "::1") (ascii "443")) = ascii "[::1]" := by
  have hdecode : decode unsignedPayload.encode = .ok unsignedPayload := by
    rw [decode_encode]
    rfl
  simp only [runImport, acceptLink, hdecode]
  exact ⟨rfl, rfl, rfl, rfl, rfl⟩

end Daxson.Cmd
