import Daxson.Auth.Proofs
import Daxson.Registry.Proofs

/-! # The registry call of a connection

A dispatch makes one call on the registry, or none.
-/

namespace Daxson.Auth

open Invite Registry

/-- The call of a bootstrap request. -/
def bootstrapCall (env : ServerEnv) (q : BootstrapRequest) : Op :=
  .bootstrap env.now env.save q.token.val q.devicePub.val (nullTrimBytes q.label.val)

/-- What becomes of the registry `r`, beside the result of the dispatch. -/
inductive Called (cr : Crypto) (env : ServerEnv) (r : Registry) (stream : Bytes) :
    Except GoError ServerAuthResult → Registry → Prop
  | none {res : Except GoError ServerAuthResult} (hmode : ∀ x, res = .ok x → x.mode = .hmac) :
      Called cr env r stream res r
  | authorize {res : Except GoError ServerAuthResult} (pub : Bytes) (hmode : ∀ x, res = .ok x → x.mode = .device) :
      Called cr env r stream res (r.exec cr (.authorizeDevice env.now env.save pub)).2
  | bootstrap {res : Except GoError ServerAuthResult} (q : BootstrapRequest)
      (hq : unmarshalBootstrapRequest (stream.take bootstrapRequestSize) = .ok q)
      (hok : ∀ x, res = .ok x → x.devicePub = some q.devicePub.val ∧
        (r.exec cr (bootstrapCall env q)).1 = .bootstrap bootstrapStatusOK none) :
      Called cr env r stream res (r.exec cr (bootstrapCall env q)).2

section

variable {cr : Crypto} {env : ServerEnv} {r : Registry} {stream : Bytes}

theorem Called.refused {e : GoError} : Called cr env r stream (.error e) r := by
  apply Called.none
  intro x hx
  cases hx

theorem deviceServerHandshake_called (vb : Bytes) (c : NetConn) :
    Called cr env r stream (deviceServerHandshake cr env vb r c).1 (deviceServerHandshake cr env vb r c).2.2 := by
  unfold deviceServerHandshake
  generalize readFull (deviceAuthRequestSize - 1) c.rx = got
  obtain ⟨_ | remaining, rx⟩ := got
  · exact .refused
  · unfold deviceAnswer
    dsimp only
    cases unmarshalDeviceAuthRequest (vb ++ remaining) with
    | error e => exact .refused
    | ok q =>
      dsimp only
      split_ifs
      · exact .refused
      · exact .refused
      · refine .authorize q.pubKey.val fun x hx => ?_
        cases hx
      · refine .authorize q.pubKey.val fun x hx => ?_
        obtain rfl := Except.ok.inj hx
        rfl

theorem bootstrapAnswer_called (c : NetConn) :
    Called cr env r stream (bootstrapAnswer cr env (stream.take bootstrapRequestSize) r c).1
      (bootstrapAnswer cr env (stream.take bootstrapRequestSize) r c).2.2 := by
  unfold bootstrapAnswer
  cases hq : unmarshalBootstrapRequest (stream.take bootstrapRequestSize) with
  | error e => exact .refused
  | ok q =>
    have hcall := fun res => @Called.bootstrap cr env r stream res q hq
    unfold bootstrapCall Registry.exec at hcall
    dsimp only at hcall ⊢
    generalize r.bootstrap cr env.now env.save q.token.val q.devicePub.val (nullTrimBytes q.label.val) = b at hcall ⊢
    obtain ⟨⟨status, _ | e⟩, r'⟩ := b
    · dsimp only
      split_ifs with hstatus
      · refine hcall _ fun x hx => ?_
        cases hx
      · refine hcall _ fun x hx => ?_
        obtain rfl := Except.ok.inj hx
        obtain rfl : status = bootstrapStatusOK := by simpa using hstatus
        exact ⟨rfl, rfl⟩
    · refine hcall _ fun x hx => ?_
      cases hx

theorem bootstrapServerHandshake_called {c : NetConn} {t : Bytes} (hin : c.rx.content = t) :
    Called cr env r (msgTypeBootstrap :: t) (bootstrapServerHandshake cr env [msgTypeBootstrap] r c).1
      (bootstrapServerHandshake cr env [msgTypeBootstrap] r c).2.2 := by
  unfold bootstrapServerHandshake
  by_cases hlen : bootstrapRequestSize ≤ (msgTypeBootstrap :: t).length
  · obtain ⟨rx, heq, -⟩ := readFull_rest (bootstrapRequestSize - 1) hin hlen
    rw [heq]
    exact bootstrapAnswer_called _
  · obtain ⟨e, rx, heq, -⟩ := readFull_short (bootstrapRequestSize - 1) c.rx
      (by rw [hin]; simp [bootstrapRequestSize] at hlen ⊢; omega)
    rw [heq]
    exact .refused

end

theorem serverDispatch_called (cr : Crypto) (hs : Handshaker) (env : ServerEnv) (r : Registry) (c : NetConn) :
    ∃ r', (serverDispatch cr env hs (some r) c).2.2 = some r' ∧
      Called cr env r c.rx.content (serverDispatch cr env hs (some r) c).1 r' := by
  unfold serverDispatch
  cases hb : c.rx.content with
  | nil =>
    obtain ⟨e, rx, heq, -⟩ := readFull_short 1 c.rx (by simp [hb])
    rw [heq]
    exact ⟨r, rfl, .refused⟩
  | cons v t =>
    obtain ⟨rx, heq, hrest⟩ := readFull_first hb
    rw [heq]
    dsimp only
    rw [List.headD_cons]
    split_ifs with h1 h2 h3
    · generalize hs.serverHandshake cr env { c with rx := rx.prepend [v] } = out
      obtain ⟨_ | sid, c'⟩ := out
      · exact ⟨r, rfl, .refused⟩
      · refine ⟨r, rfl, .none fun x hx => ?_⟩
        obtain rfl := Except.ok.inj hx
        rfl
    · exact ⟨_, rfl, deviceServerHandshake_called [v] _⟩
    · subst h3
      exact ⟨_, rfl, bootstrapServerHandshake_called hrest⟩
    · exact ⟨r, rfl, .refused⟩

theorem serverDispatch_bootstrap {cr : Crypto} {hs : Handshaker} {env : ServerEnv} {r : Registry} {c : NetConn}
    {res : ServerAuthResult} (h : (serverDispatch cr env hs (some r) c).1 = .ok res) (hmode : res.mode = .bootstrap) :
    ∃ q, unmarshalBootstrapRequest (c.rx.content.take bootstrapRequestSize) = .ok q ∧
      res.devicePub = some q.devicePub.val ∧ (r.exec cr (bootstrapCall env q)).1 = .bootstrap bootstrapStatusOK none ∧
      (serverDispatch cr env hs (some r) c).2.2 = some (r.exec cr (bootstrapCall env q)).2 := by
  obtain ⟨r', hreg, hcalled⟩ := serverDispatch_called cr hs env r c
  rw [h] at hcalled
  rw [hreg]
  cases hcalled with
  | none hm =>
    rw [hm res rfl] at hmode
    cases hmode
  | authorize pub hm =>
    rw [hm res rfl] at hmode
    cases hmode
  | bootstrap q hq hok =>
    obtain ⟨hpub, hreply⟩ := hok res rfl
    exact ⟨q, hq, hpub, hreply, rfl⟩

end Daxson.Auth
