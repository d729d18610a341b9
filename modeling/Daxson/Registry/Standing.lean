import Daxson.Registry.Directory
import Daxson.Registry.Revocation

/-! # A registration lasts -/

open Lib.Grow Lib.Refine

namespace Daxson.Registry

open Invite

/-- The key is known and not revoked, and would be after a restart. -/
def Book.Enrolled (b : Book) (pub : Bytes) : Prop :=
  b.live.devices pub = some false ∧ b.stored.devices pub = some false

/-- A call that could revoke the key. -/
def Op.Revokes (cr : Crypto) (pub : Bytes) (op : Op) : Prop := ∃ o, op = .revokeDevice o (shortDeviceID cr pub)

theorem enrolled_commit {b : Book} {pub : Bytes} (h : b.Enrolled pub) (o : SaveOutcome) {d : Directory}
    (hd : d.devices pub = some false) : (b.commit o d).Enrolled pub := by
  refine ⟨hd, ?_⟩
  unfold Book.commit
  split_ifs
  · exact hd
  · exact h.2

theorem enrolled_does {cr : Crypto} {b b' : Book} {op : Op} {reply : Reply} {pub : Bytes} (hop : ¬ op.Revokes cr pub)
    (hdoes : b.Does cr op reply b') (h : b.Enrolled pub) : b'.Enrolled pub := by
  cases hdoes with
  | unread | unknown | refused | invalid | expired | used | undrawn | noInvite | noDevice => exact h
  | reloaded => exact ⟨h.2, h.2⟩
  | authorized | issued | inviteRevoked => exact enrolled_commit h _ h.1
  | @registered _ _ _ key =>
    apply enrolled_commit h
    by_cases hkey : pub = key
    · subst hkey
      simp [Directory.register, h.1]
    · simp [Directory.register, Function.update_of_ne hkey, h.1]
  | deviceRevoked key _ _ hid =>
    apply enrolled_commit h
    have hkey : pub ≠ key := by
      rintro rfl
      exact hop ⟨_, by rw [hid]⟩
    simp [Directory.revokeDevice, Function.update_of_ne hkey, h.1]

theorem enrolled_execAll {cr : Crypto} {ops : List Op} {r : Registry} {pub : Bytes} (hprepared : Prepared cr ops r)
    (hops : ∀ op ∈ ops, ¬ op.Revokes cr pub) (h : r.book.Enrolled pub) : (r.execAll cr ops).book.Enrolled pub := by
  have hstep : ∀ b op reply b', ¬ Op.Revokes cr pub op → Book.Does cr b op reply b' → b.Enrolled pub →
      b'.Enrolled pub :=
    fun _ _ _ _ hop hdoes h => enrolled_does hop hdoes h
  exact Runs.invariant hstep (book_runs hprepared) (fun _ hx => hops _ (fst_mem_of_trace hx)) h

theorem authorizeDevice_eq (now : Time) (o : SaveOutcome) (pub : Bytes) (r : Registry) :
    (r.authorizeDevice now o pub).1 =
      ((r.book.live.devices pub).elim authStatusUnknown fun revoked =>
        if revoked then authStatusRevoked else authStatusOK) := by
  change _ = (r.data.directory.devices pub).elim _ _
  rw [directory_devices]
  unfold authorizeDevice
  cases firstMatch (fun x : Device => bytesEqual x.pubKey pub) r.data.devices with
  | none => rfl
  | some m =>
    dsimp only [Option.map_some, Option.elim_some]
    split_ifs <;> rfl

theorem enrolled_bootstrap {cr : Crypto} {r : Registry} {now : Time} {o : SaveOutcome} {token pub label : Bytes}
    {ops : List Op} (h : Prepared cr (.bootstrap now o token pub label :: ops) r)
    (hreply : (r.exec cr (.bootstrap now o token pub label)).1 = .bootstrap bootstrapStatusOK none)
    (hrev : r.book.live.devices pub ≠ some true) :
    (r.exec cr (.bootstrap now o token pub label)).2.book.Enrolled pub := by
  have hdoes := exec_does h
  rw [hreply] at hdoes
  generalize hstatus : bootstrapStatusOK = status at hdoes
  generalize r.book = b at hdoes hrev
  generalize (r.exec cr (.bootstrap now o token pub label)).2.book = b' at hdoes ⊢
  cases hdoes with
  | invalid | expired | used => exact absurd hstatus (by decide)
  | registered v err htoken hv hexp hleft herr =>
    obtain rfl := herr.mp rfl
    have hknown : (b.live.register token v pub).devices pub = some false := by
      cases hpub : b.live.devices pub with
      | none => simp [Directory.register, hpub]
      | some revoked =>
        cases revoked with
        | true => exact absurd hpub hrev
        | false => simp [Directory.register, hpub]
    exact ⟨hknown, hknown⟩

/-- **A registration lasts** until somebody revokes its ID. -/
theorem registration_lasts (cr : Crypto) (path : Bytes) (tmp : Option FileContent) (before after : List Op) (now : Time)
    (o : SaveOutcome) (token pub label : Bytes)
    (hdraws : ((before ++ .bootstrap now o token pub label :: after).filterMap Op.drawn).Nodup)
    (hrev : ∀ t o, (((fresh path tmp).execAll cr before).authorizeDevice t o pub).1 ≠ authStatusRevoked)
    (hreply : (((fresh path tmp).execAll cr before).exec cr (.bootstrap now o token pub label)).1 =
      .bootstrap bootstrapStatusOK none)
    (hafter : ∀ op ∈ after, ¬ op.Revokes cr pub) (t : Time) (o' : SaveOutcome) :
    (((fresh path tmp).execAll cr (before ++ .bootstrap now o token pub label :: after)).authorizeDevice t o' pub).1 =
      authStatusOK := by
  have hprepared := prepared_execAll (prepared_fresh cr path tmp hdraws)
  have hknown : ((fresh path tmp).execAll cr before).book.live.devices pub ≠ some true := by
    intro htrue
    apply hrev t o'
    rw [authorizeDevice_eq, htrue]
    rfl
  have henrolled := enrolled_execAll (prepared_exec hprepared) hafter (enrolled_bootstrap hprepared hreply hknown)
  rw [execAll_append]
  refine (authorizeDevice_eq t o' pub _).trans ?_
  rw [show (((fresh path tmp).execAll cr before).execAll cr _).book.live.devices pub = some false from henrolled.1]
  rfl

def guestToken : ByteArr 32 := copyArr 32 (List.replicate 32 7)

def guestKey : Bytes := List.replicate 32 1

/-- The next invite is not written, a restart follows, and another device is looked for and not found. -/
def eventfulWeek : List Op :=
  [.createInvite 1 (.mkdirFails (.other "read-only file system")) (.ok ⟨List.replicate 32 8, rfl⟩) [] 1 0, .load none,
    .revokeDevice .ok (ascii "abcdef"), .revokeInvite .ok [], .load (some (.other "permission denied"))]

theorem eventfulWeek_spares {cr : Crypto} {pub : Bytes} (hid : ascii "abcdef" ≠ shortDeviceID cr pub) :
    ∀ op ∈ eventfulWeek, ¬ op.Revokes cr pub := by
  intro op hop
  simp only [eventfulWeek, List.mem_cons, List.not_mem_nil, or_false] at hop
  rintro ⟨o, rfl⟩
  rcases hop with h | h | h | h | h
  · cases h
  · cases h
  · exact hid (Op.revokeDevice.inj h).2.symm
  · cases h
  · cases h

theorem registration_lasts_eventful_week :
    (((fresh [] none).execAll hashCrypto ([.createInvite 0 .ok (.ok guestToken) [] 1 0] ++
      .bootstrap 0 .ok guestToken.val guestKey [] :: eventfulWeek)).authorizeDevice 9 .ok guestKey).1 =
        authStatusOK := by
  refine registration_lasts hashCrypto [] none _ eventfulWeek 0 .ok guestToken.val guestKey [] ?_ ?_ ?_ ?_ 9 .ok
  · decide +kernel
  · exact fun _ _ => (by decide : authStatusUnknown ≠ authStatusRevoked)
  · rfl
  · exact eventfulWeek_spares (by decide +kernel)

end Daxson.Registry
