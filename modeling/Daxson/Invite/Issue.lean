import Daxson.Auth.Spec
import Daxson.Invite.RoundTrip
import Daxson.Registry.ShortID

/-! # Issuing an invite

What `daxson invite create` and the dashboard have in common.
-/

namespace Daxson.Invite

open Auth Registry

/-- The clock, the random source and the disk while an invite is made. -/
structure IssueEnv where
  now : Time
  save : SaveOutcome := .ok
  draw : Except SysError (ByteArr 32)

/-- The fields that both issuers copy from the record. -/
def recordPayload (server : Bytes) (rec : InviteRecord) : Payload where
  version := 1
  server := server
  token := some rec.token
  label := rec.label
  maxUses := Int64.ofInt rec.maxUses
  expiresAt := Int64.ofInt rec.expiresAt

/-- `ServerKey` and `Sig`, by the server's key pair. -/
def signedBy (cr : Crypto) (serverKey : KeyPair) (payload : Payload) : Payload :=
  { payload with serverKey := some serverKey.publicKey.val }.sign cr serverKey.privateKey

theorem createInvite_ok {cr : Crypto} {env : IssueEnv} {label : Bytes} {maxUses ttl : Int} {reg reg' : Registry}
    {rec : InviteRecord} (h : reg.createInvite cr env.now env.save env.draw label maxUses ttl = (.ok rec, reg')) :
    ∃ tok : ByteArr 32, env.draw = .ok tok ∧ rec = newInvite cr env.now tok.val label maxUses ttl ∧
      reg'.data = { reg.data with invites := reg.data.invites ++ [rec] } := by
  unfold Registry.createInvite at h
  split at h
  · cases h
  · rename_i tok hdraw
    dsimp only at h
    split at h
    · cases h
    · rename_i r' hsave
      simp only [Prod.mk.injEq, Except.ok.injEq] at h
      obtain ⟨rfl, rfl⟩ := h
      have hdata := save_data env.save
        { reg with data :=
          { reg.data with invites := reg.data.invites ++ [newInvite cr env.now tok.val label maxUses ttl] } }
      rw [hsave] at hdata
      exact ⟨tok, hdraw, rfl, hdata⟩

def firstIssue : IssueEnv := { now := 0, draw := .ok (copyArr 32 [5]) }

end Daxson.Invite
