import Daxson.Auth.Calls
import Daxson.Dashboard
import Daxson.Registry.Accounting
import Daxson.Registry.Standing
import Daxson.Tunnel.Enrolment

/-! # The process of `daxson serve`

The tunnel server and the dashboard share one registry.
-/

open Lib.Grow Lib.Keyed Lib.Refine

namespace Daxson.Cmd

open Auth Dashboard Invite Registry Tunnel
open Protocol (protocolVersion)

/-- What reaches the process. Each takes the lock of the registry for one call at most, so the order of those
calls is the only interleaving that matters to it. -/
inductive Incoming where
  | connection (env : ServerEnv) (p : ProbeEnv) (c : NetConn)
  | request (env : IssueEnv) (req : Request)

inductive Answer where
  | fate (f : ConnFate)
  | response (resp : Response)

def handle (cr : Crypto) (cfg : Config) (serverKey : KeyPair) (reg : Registry) : Incoming → Answer × Registry
  | .connection env p c =>
    let handled := handleConn cr env p (newServer cr cfg (some reg)) c
    (.fate handled.fate, handled.reg.getD reg)
  | .request env req =>
    let served := serve cr env (some serverKey) req reg
    (.response served.resp, served.reg)

def handleAll (cr : Crypto) (cfg : Config) (serverKey : KeyPair) (incoming : List Incoming) (reg : Registry) :
    Registry :=
  incoming.foldl (fun reg i => (handle cr cfg serverKey reg i).2) reg

/-! ## The calls -/

/-- The call of the dashboard's `createInvite`. -/
def createCall (env : IssueEnv) (body : InviteBody) : Op :=
  .createInvite env.now env.save env.draw (if body.label = [] then ascii "invite" else body.label)
    (if body.maxUses ≤ 0 then 1 else body.maxUses).toInt
    ((if body.expiresHours ≤ 0 then 24 else body.expiresHours) * hour).toInt

/-- The invite that a request makes: a POST with a body that decodes, from anybody. -/
def Incoming.issued (cr : Crypto) : Incoming → Option InviteRecord
  | .request env ⟨.post, path, .ok body⟩ => if path = invitesPath then (createCall env body).invite cr else none
  | _ => none

/-- The connection brings a bootstrap request. -/
def Incoming.Bootstraps (i : Incoming) (q : BootstrapRequest) : Prop :=
  ∃ env p c, i = .connection env p c ∧ unmarshalBootstrapRequest (c.rx.content.take bootstrapRequestSize) = .ok q

/-- What becomes of the registry. -/
inductive Reaches (cr : Crypto) (r : Registry) : Incoming → Registry → Prop where
  | none {i : Incoming} (hissued : i.issued cr = none) : Reaches cr r i r
  | authorize (env : ServerEnv) (p : ProbeEnv) (c : NetConn) (pub : Bytes) :
      Reaches cr r (.connection env p c) (r.exec cr (.authorizeDevice env.now env.save pub)).2
  | bootstrap (env : ServerEnv) (p : ProbeEnv) (c : NetConn) (q : BootstrapRequest)
      (hq : unmarshalBootstrapRequest (c.rx.content.take bootstrapRequestSize) = .ok q) :
      Reaches cr r (.connection env p c)
        (r.exec cr (bootstrapCall env q)).2
  | create (env : IssueEnv) (body : InviteBody) :
      Reaches cr r (.request env ⟨.post, invitesPath, .ok body⟩) (r.exec cr (createCall env body)).2

theorem serverDispatch_reaches (cr : Crypto) (hs : Handshaker) (env : ServerEnv) (p : ProbeEnv) (r : Registry)
    (c : NetConn) : ∃ r', (serverDispatch cr env hs (some r) c).2.2 = some r' ∧
    Reaches cr r (.connection env p c) r' := by
  obtain ⟨r', hreg, hcalled⟩ := serverDispatch_called cr hs env r c
  refine ⟨r', hreg, ?_⟩
  cases hcalled with
  | none => exact .none rfl
  | authorize pub => exact .authorize env p c pub
  | bootstrap q hq => exact .bootstrap env p c q hq

section Request

theorem foldl_longer_matches {H : Type} {path : Bytes} {mux : List (Bytes × H)} {best : Option (Bytes × H)}
    {entry : Bytes × H} (h : mux.foldl (longer path) best = some entry) :
    best = some entry ∨ entry ∈ mux ∧ patternMatches entry.1 path = true := by
  induction mux generalizing best with
  | nil => exact .inl h
  | cons e mux ih =>
    rcases ih h with hbest | ⟨hmem, hmatch⟩
    · unfold longer at hbest
      split_ifs at hbest with hlonger
      · obtain rfl := Option.some.inj hbest
        simp only [Bool.and_eq_true] at hlonger
        exact .inr ⟨List.mem_cons_self, hlonger.1⟩
      · exact .inl hbest
    · exact .inr ⟨List.mem_cons_of_mem e hmem, hmatch⟩

theorem route_api {path : Bytes} {h : Dashboard.Handler} (hroute : ServeMux.handler routes path = some h)
    (hui : h ≠ .ui) :
    (path, h) ∈ apiRoutes := by
  obtain ⟨⟨pattern, h'⟩, hfold, rfl⟩ := Option.map_eq_some_iff.mp hroute
  rcases foldl_longer_matches hfold with hnone | ⟨hmem, hmatch⟩
  · cases hnone
  · have hsingle : ∀ entry ∈ apiRoutes, entry.1.getLast? ≠ some slash := by decide +kernel
    rcases List.mem_cons.mp hmem with heq | hmem
    · cases heq
      exact absurd rfl hui
    · unfold patternMatches at hmatch
      rw [if_neg (hsingle _ hmem), beq_iff_eq] at hmatch
      rw [← hmatch]
      exact hmem

variable {cr : Crypto} {env : IssueEnv} {serverKey : Option KeyPair} {req : Request} {r : Registry}

theorem trimmed_self (p : Bytes) : trimSlashes (trimPrefix p p) = [] := by simp [trimPrefix, trimSlashes]

theorem issued_elsewhere (h : req.path ≠ invitesPath) : (Incoming.request env req).issued cr = none := by
  obtain ⟨method, path, body⟩ := req
  cases method with
  | post =>
    cases body with
    | error e => rfl
    | ok body => exact if_neg h
  | get | delete | other => rfl

theorem createInvite_exec (serverKey : Option KeyPair) (body : InviteBody) :
    (Dashboard.createInvite cr env serverKey (.ok body) r).2 = (r.exec cr (createCall env body)).2 := by
  unfold Dashboard.createInvite createCall Registry.exec
  dsimp only
  generalize r.createInvite cr env.now env.save env.draw _ _ _ = out
  obtain ⟨_ | rec, r'⟩ := out <;> rfl

theorem handleInvites_reaches (hpath : req.path = invitesPath) :
    Reaches cr r (.request env req) (handleInvites cr env serverKey req r).reg ∧
      (handleInvites cr env serverKey req r).resp ≠ .revoked := by
  obtain ⟨method, path, body⟩ := req
  obtain rfl : path = invitesPath := hpath
  unfold handleInvites
  dsimp only
  rw [trimmed_self]
  cases method with
  | get | delete | other => exact ⟨.none rfl, by simp [methodNotAllowed]⟩
  | post =>
    rw [if_neg (by simp), if_pos ⟨rfl, rfl⟩]
    cases body with
    | error e => exact ⟨.none rfl, by simp [Dashboard.createInvite]⟩
    | ok body =>
      have hreaches : Reaches cr r (.request env ⟨.post, invitesPath, .ok body⟩) _ := .create env body
      rw [← createInvite_exec serverKey body] at hreaches
      generalize Dashboard.createInvite cr env serverKey (.ok body) r = out at hreaches ⊢
      obtain ⟨_ | resp, r'⟩ := out
      · exact ⟨hreaches, by simp⟩
      · exact ⟨hreaches, by simp⟩

theorem handleDevices_keeps (hpath : req.path = devicesPath) :
    (handleDevices env req r).reg = r ∧ (handleDevices env req r).resp ≠ .revoked := by
  unfold handleDevices
  rw [hpath, trimmed_self]
  dsimp only
  split_ifs with hget hdelete
  · exact ⟨rfl, by simp⟩
  · exact absurd rfl hdelete.2
  · exact ⟨rfl, by simp [methodNotAllowed]⟩

theorem serve_elsewhere (cr : Crypto) (env : IssueEnv) (serverKey : Option KeyPair) (r : Registry)
    (hpath : req.path ≠ invitesPath) :
    (serve cr env serverKey req r).reg = r ∧ (serve cr env serverKey req r).resp ≠ .revoked := by
  unfold serve
  split
  · unfold handleRoot
    split_ifs <;> exact ⟨rfl, by simp⟩
  · rename_i hroute
    exact handleDevices_keeps (by simpa [apiRoutes] using route_api hroute (by decide))
  · rename_i hroute
    exact absurd (by simpa [apiRoutes] using route_api hroute (by decide)) hpath
  · unfold handleGet
    split_ifs <;> exact ⟨rfl, by simp [methodNotAllowed]⟩
  · exact ⟨rfl, by simp⟩

/-- The branches that revoke are never reached. -/
theorem serve_reaches (cr : Crypto) (env : IssueEnv) (serverKey : Option KeyPair) (req : Request) (r : Registry) :
    Reaches cr r (.request env req) (serve cr env serverKey req r).reg ∧
    (serve cr env serverKey req r).resp ≠ .revoked := by
  by_cases hpath : req.path = invitesPath
  · have hroute : ServeMux.handler routes req.path = some .invites := by
      rw [hpath]
      decide +kernel
    unfold serve
    rw [hroute]
    exact handleInvites_reaches hpath
  · obtain ⟨hreg, hresp⟩ := serve_elsewhere cr env serverKey r hpath
    rw [hreg]
    exact ⟨.none (issued_elsewhere hpath), hresp⟩

end Request

theorem handle_reaches (cr : Crypto) (cfg : Config) (serverKey : KeyPair) (r : Registry) (i : Incoming) :
    Reaches cr r i (handle cr cfg serverKey r i).2 ∧ (handle cr cfg serverKey r i).1 ≠ .response .revoked := by
  cases i with
  | connection env p c =>
    obtain ⟨r', hreg, hreaches⟩ := serverDispatch_reaches cr (new cr cfg.server.auth.psk) env p r c
    refine ⟨?_, by simp [handle]⟩
    unfold handle
    dsimp only
    rw [handleConn_reg]
    unfold newServer
    rw [hreg]
    exact hreaches
  | request env req =>
    obtain ⟨hreaches, hresp⟩ := serve_reaches cr env (some serverKey) req r
    exact ⟨hreaches, by simpa [handle] using hresp⟩

/-! ## The registry of the process -/

/-- A device entry, but for when it was last seen. -/
def entry (x : Device) : Device := { x with lastSeenAt := 0 }

/-- An invite, but for how often it has been used. -/
def terms (inv : InviteRecord) : InviteRecord := { inv with uses := 0 }

def totalUses (d : StoreData) : Int := (d.invites.map (·.uses)).sum

/-- Between `r` and `r'` entries were added and none was revoked, changed or removed: a device for each use of an invite
that the registry has and has not revoked, and an invite for each POST that makes one. -/
structure Since (cr : Crypto) (r : Registry) (incoming : List Incoming) (r' : Registry) : Prop where
  devices : ∃ added : List Device, r'.data.devices.map entry = (r.data.devices ++ added).map entry ∧
    totalUses r'.data = totalUses r.data + added.length ∧
    ∀ x ∈ added, x.revoked = false ∧ ∃ i ∈ incoming, ∃ q, i.Bootstraps q ∧ x.pubKey = q.devicePub.val ∧
      ∃ inv ∈ r'.data.invites, inv.token = q.token.val ∧ inv.revoked = false
  invites : r'.data.invites.map terms = (r.data.invites ++ incoming.filterMap (·.issued cr)).map terms

section Since

variable {cr : Crypto} {r r' r'' : Registry} {i : Incoming} {is js : List Incoming}

theorem Since.still (h : Since cr r is r') {inv : InviteRecord} (hinv : inv ∈ r.data.invites) :
    ∃ inv' ∈ r'.data.invites, inv'.token = inv.token ∧ inv'.revoked = inv.revoked := by
  have hmem : terms inv ∈ r'.data.invites.map terms := by
    rw [h.invites]
    exact List.mem_map_of_mem (List.mem_append_left _ hinv)
  obtain ⟨inv', hinv', heq⟩ := List.mem_map.mp hmem
  have htoken := congrArg InviteRecord.token heq
  have hrevoked := congrArg InviteRecord.revoked heq
  exact ⟨inv', hinv', htoken, hrevoked⟩

theorem since_trans (h : Since cr r is r') (h' : Since cr r' js r'') : Since cr r (is ++ js) r'' := by
  obtain ⟨added, hdevices, huses, hadded⟩ := h.devices
  obtain ⟨added', hdevices', huses', hadded'⟩ := h'.devices
  constructor
  · refine ⟨added ++ added', ?_, ?_, ?_⟩
    · rw [hdevices', List.map_append, hdevices]
      simp
    · rw [huses', huses, List.length_append]
      push_cast
      ring
    · intro x hx
      rcases List.mem_append.mp hx with hx | hx
      · obtain ⟨hrev, i, hi, q, hq, hpub, inv, hinv, htoken, hlive⟩ := hadded x hx
        obtain ⟨inv', hinv', htoken', hlive'⟩ := h'.still hinv
        exact ⟨hrev, i, List.mem_append_left _ hi, q, hq, hpub, inv', hinv', htoken'.trans htoken, hlive'.trans hlive⟩
      · obtain ⟨hrev, i, hi, hrest⟩ := hadded' x hx
        exact ⟨hrev, i, List.mem_append_right _ hi, hrest⟩
  · rw [h'.invites, List.map_append, h.invites]
    simp

theorem since_of_data (hdevices : r'.data.devices.map entry = r.data.devices.map entry)
    (hinvites : r'.data.invites = r.data.invites) (hissued : i.issued cr = none) : Since cr r [i] r' := by
  constructor
  · refine ⟨[], by simpa using hdevices, ?_, by simp⟩
    unfold totalUses
    rw [hinvites]
    simp
  · simp [hinvites, hissued]

theorem since_plan {op : Op} (hload : ∀ e, op ≠ .load e) (hnone : plan cr op r.data = none → Since cr r [i] r)
    (hsome : ∀ d r', plan cr op r.data = some d → r'.data = d → Since cr r [i] r') :
    Since cr r [i] (r.exec cr op).2 := by
  rw [exec_eq_plan cr op r hload]
  cases hp : plan cr op r.data with
  | none => exact hnone hp
  | some d => exact hsome d _ hp (save_data _ _)

theorem redeemable_live {now : Time} {token : Bytes} {d : StoreData} {k : Nat} {found : InviteRecord}
    (h : redeemable now token d = some (k, found)) : found.revoked = false := by
  unfold redeemable at h
  split at h
  · cases h
  · rename_i k' found' hm
    split_ifs at h
    obtain ⟨rfl, rfl⟩ := Prod.mk.inj (Option.some.inj h)
    have hp := firstMatch_pos hm
    simp only [Bool.and_eq_true, Bool.not_eq_true'] at hp
    exact hp.1

theorem since_bootstrap {now : Time} {o : SaveOutcome} {q : BootstrapRequest} {label : Bytes} {d : StoreData}
    (hp : plan cr (.bootstrap now o q.token.val q.devicePub.val label) r.data = some d) (hd : r'.data = d)
    (hi : i.Bootstraps q) (hissued : i.issued cr = none) : Since cr r [i] r' := by
  cases plan_inv hp with
  | @bootstrap _ _ _ _ _ k found hr =>
    obtain ⟨hk, -, htoken⟩ := redeemable_spec hr
    have hlt : k < r.data.invites.length := (List.getElem?_eq_some_iff.mp hk).1
    have hmem : { found with uses := found.uses + 1 } ∈ r'.data.invites := by
      rw [hd]
      apply List.mem_of_getElem? (i := k)
      simp [hk]
    constructor
    · refine ⟨[newDevice cr now q.devicePub.val label], by rw [hd], ?_, ?_⟩
      · unfold totalUses
        rw [hd]
        exact sum_uses_modify _ k _ 1 hlt fun _ => rfl
      · intro x hx
        obtain rfl := List.mem_singleton.mp hx
        have hlive := redeemable_live hr
        exact ⟨rfl, i, List.mem_singleton_self i, q, hi, rfl, _, hmem, htoken, hlive⟩
    · rw [hd]
      have hterms := map_modify terms (fun inv : InviteRecord => { inv with uses := inv.uses + 1 }) (fun _ => rfl)
        r.data.invites k
      simpa [hissued] using hterms

theorem createCall_unused {env : IssueEnv} {body : InviteBody} {inv : InviteRecord}
    (h : (createCall env body).invite cr = some inv) : inv.uses = 0 := by
  unfold createCall Op.invite at h
  cases hdraw : env.draw with
  | error e =>
    rw [hdraw] at h
    cases h
  | ok tok =>
    rw [hdraw] at h
    obtain rfl := Option.some.inj h
    rfl

theorem plan_createCall (env : IssueEnv) (body : InviteBody) (d : StoreData) :
    plan cr (createCall env body) d =
      ((createCall env body).invite cr).map fun inv => { d with invites := d.invites ++ [inv] } := by
  unfold createCall plan Op.invite
  cases env.draw <;> rfl

theorem since_create (env : IssueEnv) (body : InviteBody) :
    Since cr r [.request env ⟨.post, invitesPath, .ok body⟩] (r.exec cr (createCall env body)).2 := by
  have hissued : (Incoming.request env ⟨.post, invitesPath, .ok body⟩).issued cr = (createCall env body).invite cr := by
    simp [Incoming.issued]
  apply since_plan (by simp [createCall])
  · intro hnone
    rw [plan_createCall, Option.map_eq_none_iff] at hnone
    exact since_of_data rfl rfl (hissued.trans hnone)
  · intro d r' hp hd
    rw [plan_createCall] at hp
    obtain ⟨inv, hinv, rfl⟩ := Option.map_eq_some_iff.mp hp
    constructor
    · refine ⟨[], by simp [hd], ?_, by simp⟩
      unfold totalUses
      rw [hd]
      simp [createCall_unused hinv]
    · simp [hd, hissued, hinv]

theorem since_step (h : Reaches cr r i r') : Since cr r [i] r' := by
  cases h with
  | none hissued => exact since_of_data rfl rfl hissued
  | authorize env p c pub =>
    apply since_plan (by simp)
    · exact fun _ => since_of_data rfl rfl rfl
    · intro d r' hp hd
      cases plan_inv hp with
      | authorizeDevice =>
        refine since_of_data ?_ (by rw [hd]) rfl
        rw [hd]
        exact map_modify entry (fun x : Device => { x with lastSeenAt := env.now }) (fun _ => rfl) _ _
  | bootstrap env p c q hq =>
    apply since_plan (by simp [bootstrapCall])
    · exact fun _ => since_of_data rfl rfl rfl
    · exact fun d r' hp hd => since_bootstrap hp hd ⟨env, p, c, rfl, hq⟩ rfl
  | create env body => exact since_create env body

end Since

theorem since_handleAll (cr : Crypto) (cfg : Config) (serverKey : KeyPair) (incoming : List Incoming) (r : Registry) :
    Since cr r incoming (handleAll cr cfg serverKey incoming r) := by
  induction incoming generalizing r with
  | nil => exact ⟨⟨[], by simp [handleAll], by simp [handleAll], by simp⟩, by simp [handleAll]⟩
  | cons i incoming ih => exact since_trans (since_step (handle_reaches cr cfg serverKey r i).1) (ih _)

theorem Since.standing {cr : Crypto} {r r' : Registry} {incoming : List Incoming} (h : Since cr r incoming r')
    {pub : Bytes} {revoked : Bool} (hpub : r.book.live.devices pub = some revoked) :
    r'.book.live.devices pub = some revoked := by
  obtain ⟨added, hdevices, -⟩ := h.devices
  have hview : ∀ l : List Device, view (·.pubKey) (·.revoked) (l.map entry) = view (·.pubKey) (·.revoked) l :=
    view_map entry (fun _ => rfl) (fun _ => rfl)
  change view (·.pubKey) (·.revoked) r'.data.devices pub = _
  rw [← hview, hdevices, hview]
  obtain ⟨x, hx, hrev⟩ := Option.map_eq_some_iff.mp hpub
  unfold view
  rw [List.find?_append, hx]
  exact congrArg some hrev

/-- **`daxson serve` takes nobody's access away.** -/
theorem serve_only_adds (cr : Crypto) (cfg : Config) (serverKey : KeyPair) (incoming : List Incoming) (r : Registry) :
    Since cr r incoming (handleAll cr cfg serverKey incoming r) ∧
      (∀ x ∈ trace (handle cr cfg serverKey) r incoming, x.2 ≠ .response .revoked) ∧
      ∀ pub t t' o o', (r.authorizeDevice t o pub).1 ≠ authStatusUnknown →
        ((handleAll cr cfg serverKey incoming r).authorizeDevice t' o' pub).1 = (r.authorizeDevice t o pub).1 := by
  have hsince := since_handleAll cr cfg serverKey incoming r
  refine ⟨hsince, ?_, ?_⟩
  · apply And.right
    apply trace_invariant (P := fun _ => True) (Q := (· ≠ Answer.response .revoked))
    · exact fun s i _ _ => ⟨trivial, (handle_reaches cr cfg serverKey s i).2⟩
    · exact fun _ _ => trivial
    · trivial
  · intro pub t t' o o' hknown
    rw [authorizeDevice_eq] at hknown
    rw [authorizeDevice_eq, authorizeDevice_eq]
    cases hpub : r.book.live.devices pub with
    | none =>
      rw [hpub] at hknown
      exact absurd rfl hknown
    | some revoked => rw [hsince.standing hpub]

end Daxson.Cmd
