import Daxson.Invite.Issue

/-! # The dashboard -/

namespace Daxson.Dashboard

open Auth Invite Registry

/-! ## ServeMux -/

section ServeMux

variable {H : Type}

def slash : UInt8 := 0x2F

/-- A pattern that ends in a slash stands for the whole tree below it, any other for one path. -/
def patternMatches (pattern path : Bytes) : Bool :=
  if pattern.getLast? = some slash then pattern.isPrefixOf path else pattern == path

def longer (path : Bytes) (best : Option (Bytes × H)) (entry : Bytes × H) : Option (Bytes × H) :=
  if patternMatches entry.1 path && best.all fun b => b.1.length < entry.1.length then some entry else best

/-- `ServeMux.Handler`: the longest pattern that matches. -/
def ServeMux.handler (mux : List (Bytes × H)) (path : Bytes) : Option H :=
  (mux.foldl (longer path) none).map Prod.snd

theorem foldl_longer_of_no_match {path : Bytes} {mux : List (Bytes × H)}
    (h : ∀ entry ∈ mux, patternMatches entry.1 path = false) (best : Option (Bytes × H)) :
    mux.foldl (longer path) best = best := by
  induction mux with
  | nil => rfl
  | cons entry mux ih =>
    rw [List.foldl_cons]
    have hstay : longer path best entry = best := by simp [longer, h entry (by simp)]
    rw [hstay]
    exact ih fun e he => h e (List.mem_cons_of_mem _ he)

theorem handler_root {path : Bytes} {single : List (Bytes × H)} (root : H)
    (hsingle : ∀ entry ∈ single, entry.1.getLast? ≠ some slash) (hpath : [slash] <+: path)
    (hno : ∀ entry ∈ single, entry.1 ≠ path) : ServeMux.handler (([slash], root) :: single) path = some root := by
  have hroot : patternMatches [slash] path = true := by simpa [patternMatches] using hpath
  have hother : ∀ entry ∈ single, patternMatches entry.1 path = false := by
    intro entry he
    simp [patternMatches, hsingle entry he, hno entry he]
  unfold ServeMux.handler
  rw [List.foldl_cons]
  have hfirst : longer path none ([slash], root) = some ([slash], root) := by simp [longer, hroot]
  rw [hfirst, foldl_longer_of_no_match hother]
  rfl

end ServeMux

/-! ## The handlers -/

structure InviteBody where
  label : Bytes := []
  maxUses : Int64 := 0
  expiresHours : Int64 := 0
  deriving DecidableEq, Repr

structure CreateResp where
  tokenID : Bytes
  label : Bytes
  /-- Empty where the server has no key. -/
  link : Bytes
  deriving DecidableEq, Repr

def hour : Int64 := 3600000000000

/-- `createInvite` with the decoded body. An error comes with its HTTP status. -/
def createInvite (cr : Crypto) (env : IssueEnv) (serverKey : Option KeyPair)
    (body : Except GoError InviteBody) (reg : Registry) : Except (Nat × GoError) CreateResp × Registry :=
  match body with
  | .error e => (.error (400, .wrap "invalid JSON: %w" [] e), reg)
  | .ok body =>
    let label := if body.label = [] then ascii "invite" else body.label
    let hours := if body.expiresHours ≤ 0 then 24 else body.expiresHours
    let maxUses := if body.maxUses ≤ 0 then 1 else body.maxUses
    -- The product wraps.
    let ttl := hours * hour
    match reg.createInvite cr env.now env.save env.draw label maxUses.toInt ttl.toInt with
    | (.error e, reg) => (.error (500, e), reg)
    | (.ok rec, reg) =>
      let link :=
        match serverKey with
        | none => []
        | some key => (signedBy cr key (recordPayload [] rec)).encode
      (.ok ⟨rec.tokenID, rec.label, link⟩, reg)

inductive Method where
  | get
  | post
  | delete
  | other (name : Bytes)
  deriving DecidableEq, Repr

structure Request where
  method : Method
  /-- `r.URL.Path`. -/
  path : Bytes
  /-- What the JSON decoder makes of the body. -/
  body : Except GoError InviteBody := .ok {}

inductive Handler where
  | ui
  | status
  | sessions
  | devices
  | invites
  | transportStats
  | probes
  deriving DecidableEq, Repr

inductive Response where
  | html
  | notFound
  | err (code : Nat) (msg : GoError)
  /-- What the handler reads from the telemetry collector and the counters. -/
  | snapshot (h : Handler)
  | devices (list : List Device)
  | invites (list : List InviteRecord)
  | created (resp : CreateResp)
  | revoked
  deriving DecidableEq

/-- What a request leaves behind: the answer, the registry, and the call that changed it. -/
structure Served where
  resp : Response
  reg : Registry
  call : Option Op := none

def methodNotAllowed : Response := .err 405 (.new "method not allowed" [])

def trimPrefix (s pre : Bytes) : Bytes := if pre.isPrefixOf s then s.drop pre.length else s

/-- `strings.Trim` with the cutset `/`. -/
def trimSlashes (s : Bytes) : Bytes :=
  ((s.dropWhile (· == slash)).reverse.dropWhile (· == slash)).reverse

def devicesPath : Bytes := ascii "/api/v1/devices"
def invitesPath : Bytes := ascii "/api/v1/invites"

def handleRoot (req : Request) (reg : Registry) : Served :=
  if req.path = [slash] then { resp := .html, reg := reg } else { resp := .notFound, reg := reg }

/-- `handleStatus`, `handleSessions`, `handleTransportStats` and `handleProbes`. -/
def handleGet (h : Handler) (req : Request) (reg : Registry) : Served :=
  if req.method = .get then { resp := .snapshot h, reg := reg } else { resp := methodNotAllowed, reg := reg }

/-- The answer to a revocation, whose error is always taken for an unknown ID. -/
def revocation (op : Op) (res : Option GoError × Registry) : Served where
  resp :=
    match res.1 with
    | some e => .err 404 e
    | none => .revoked
  reg := res.2
  call := some op

def handleDevices (env : IssueEnv) (req : Request) (reg : Registry) : Served :=
  let path := trimSlashes (trimPrefix req.path devicesPath)
  if req.method = .get ∧ path = [] then { resp := .devices reg.data.devices, reg := reg }
  else if req.method = .delete ∧ path ≠ [] then
    revocation (.revokeDevice env.save path) (reg.revokeDevice env.save path)
  else { resp := methodNotAllowed, reg := reg }

def handleInvites (cr : Crypto) (env : IssueEnv) (serverKey : Option KeyPair) (req : Request) (reg : Registry) :
    Served :=
  let path := trimSlashes (trimPrefix req.path invitesPath)
  if req.method = .get ∧ path = [] then { resp := .invites reg.data.invites, reg := reg }
  else if req.method = .post ∧ path = [] then
    match createInvite cr env serverKey req.body reg with
    | (.error (code, e), reg) => { resp := .err code e, reg := reg }
    | (.ok resp, reg) => { resp := .created resp, reg := reg }
  else if req.method = .delete ∧ path ≠ [] then
    revocation (.revokeInvite env.save path) (reg.revokeInvite env.save path)
  else { resp := methodNotAllowed, reg := reg }

/-- `api.register`. -/
def apiRoutes : List (Bytes × Handler) :=
  [(ascii "/api/v1/status", .status), (ascii "/api/v1/sessions", .sessions), (devicesPath, .devices),
    (invitesPath, .invites), (ascii "/api/v1/transport-stats", .transportStats), (ascii "/api/v1/probes", .probes)]

/-- The mux of `Server.Start`. -/
def routes : List (Bytes × Handler) := ([slash], .ui) :: apiRoutes

def serve (cr : Crypto) (env : IssueEnv) (serverKey : Option KeyPair) (req : Request) (reg : Registry) : Served :=
  match ServeMux.handler routes req.path with
  | some .ui => handleRoot req reg
  | some .devices => handleDevices env req reg
  | some .invites => handleInvites cr env serverKey req reg
  | some h => handleGet h req reg
  | none => { resp := .notFound, reg := reg }

/-! ## Revocation -/

theorem dropWhile_slash {s : Bytes} (h : slash ∉ s) : s.dropWhile (· == slash) = s := by
  cases s with
  | nil => rfl
  | cons b s =>
    have hb : b ≠ slash := fun hb => h (by simp [hb])
    simp [hb]

theorem trimSlashes_id {id : Bytes} (h : slash ∉ id) : trimSlashes (slash :: id) = id := by
  have hrev : slash ∉ id.reverse := by simpa using h
  unfold trimSlashes
  rw [List.dropWhile_cons_of_pos (by simp), dropWhile_slash h, dropWhile_slash hrev, List.reverse_reverse]

theorem trimPrefix_append (pre s : Bytes) : trimPrefix (pre ++ s) pre = s := by simp [trimPrefix]

theorem handleDevices_delete (env : IssueEnv) (body : Except GoError InviteBody) (reg : Registry) {id : Bytes}
    (hne : id ≠ []) (hid : slash ∉ id) :
    handleDevices env ⟨.delete, devicesPath ++ slash :: id, body⟩ reg =
      revocation (.revokeDevice env.save id) (reg.revokeDevice env.save id) := by
  unfold handleDevices
  dsimp only
  rw [trimPrefix_append, trimSlashes_id hid, if_neg (by simp), if_pos ⟨rfl, hne⟩]

theorem handleInvites_delete (cr : Crypto) (env : IssueEnv) (serverKey : Option KeyPair)
    (body : Except GoError InviteBody) (reg : Registry) {id : Bytes} (hne : id ≠ []) (hid : slash ∉ id) :
    handleInvites cr env serverKey ⟨.delete, invitesPath ++ slash :: id, body⟩ reg =
      revocation (.revokeInvite env.save id) (reg.revokeInvite env.save id) := by
  unfold handleInvites
  dsimp only
  rw [trimPrefix_append, trimSlashes_id hid, if_neg (by simp), if_neg (by simp), if_pos ⟨rfl, hne⟩]

theorem route_below {path : Bytes} (hpath : [slash] <+: path) (hno : ∀ entry ∈ apiRoutes, entry.1 ≠ path) :
    ServeMux.handler routes path = some .ui := by
  have hsingle : ∀ entry ∈ apiRoutes, entry.1.getLast? ≠ some slash := by decide +kernel
  have hroot := handler_root Handler.ui hsingle hpath hno
  exact hroot

theorem route_item (base : Bytes) (hroot : [slash] <+: base)
    (hbase : ∀ entry ∈ apiRoutes, ¬ base ++ [slash] <+: entry.1) (id : Bytes) :
    ServeMux.handler routes (base ++ slash :: id) = some .ui := by
  apply route_below
  · exact hroot.trans (List.prefix_append _ _)
  · intro entry he heq
    apply hbase entry he
    rw [heq]
    simp

/-- A DELETE with an ID is answered by the handler of the page, which does not know the path. -/
theorem delete_never_revokes (cr : Crypto) (env : IssueEnv) (serverKey : Option KeyPair)
    (body : Except GoError InviteBody) (reg : Registry) (id : Bytes) :
    serve cr env serverKey ⟨.delete, devicesPath ++ slash :: id, body⟩ reg =
        { resp := .notFound, reg := reg, call := none } ∧
      serve cr env serverKey ⟨.delete, invitesPath ++ slash :: id, body⟩ reg =
        { resp := .notFound, reg := reg, call := none } := by
  have hdevices := route_item devicesPath (by decide +kernel) (by decide +kernel) id
  have hinvites := route_item invitesPath (by decide +kernel) (by decide +kernel) id
  have hpage : ∀ base : Bytes, 1 ≤ base.length → base ++ slash :: id ≠ [slash] := by
    intro base hlen heq
    have := congrArg List.length heq
    simp at this
    omega
  unfold serve
  dsimp only
  rw [hdevices, hinvites]
  unfold handleRoot
  dsimp only
  rw [if_neg (hpage devicesPath (by decide +kernel)), if_neg (hpage invitesPath (by decide +kernel))]
  exact ⟨rfl, rfl⟩

/-- An enrolled device keeps its access, and a live invite stays live. -/
theorem delete_leaves_device :
    let device : Device := { pubKey := [1], deviceID := ascii "a1b2c3", label := ascii "laptop", registeredAt := 0 }
    let inv := newInvite hashCrypto 0 [2] (ascii "work") 1 0
    let reg : Registry := { data := { devices := [device], invites := [inv] } }
    let served := serve hashCrypto firstIssue none ⟨.delete, ascii "/api/v1/devices/a1b2c3", .ok {}⟩ reg
    served.resp = .notFound ∧ served.reg.data.devices = [device] ∧ device.revoked = false ∧
      (reg.revokeDevice .ok (ascii "a1b2c3")).2.data.devices = [{ device with revoked := true }] ∧
      (serve hashCrypto firstIssue none ⟨.delete, invitesPath ++ slash :: inv.tokenID, .ok {}⟩ reg).reg = reg ∧
      inv.revoked = false := by
  decide +kernel

/-! ## Expiry -/

/-- The most hours whose nanoseconds are an `int64`. -/
def maxHours : Int := 2562047

theorem ttl_exact {hours : Int64} (hpos : 0 < hours.toInt) (hmax : hours.toInt ≤ maxHours) :
    (hours * hour).toInt = 3600 * hours.toInt * 1000000000 := by
  have hhour : hour.toInt = 3600000000000 := by decide
  rw [Int64.toInt_mul, hhour]
  unfold maxHours at hmax
  rw [Int.bmod_eq_of_le (by omega) (by omega)]
  ring

/-- Past the limit the product loses at least one round of 64 bits. -/
theorem ttl_wrapped {hours : Int64} (hmax : maxHours < hours.toInt) :
    (hours * hour).toInt ≤ 3600 * hours.toInt * 1000000000 - 2 ^ 64 := by
  have hhour : hour.toInt = 3600000000000 := by decide
  have hrange := Int64.toInt_lt (hours * hour)
  unfold maxHours at hmax
  rw [Int64.toInt_mul, hhour] at hrange ⊢
  have hdiv := Int.bdiv_add_bmod (hours.toInt * 3600000000000) (2 ^ 64)
  have hround : ((2 ^ 64 : Nat) : Int) = 18446744073709551616 := by norm_num
  rw [hround] at hdiv
  omega

theorem unix_add_hours (now : Time) (hours : Int) :
    (now + 3600 * hours * 1000000000 : Time).unix = now.unix + 3600 * hours := by
  unfold Time.unix second
  rw [Int.fdiv_eq_ediv_of_nonneg _ (by norm_num), Int.fdiv_eq_ediv_of_nonneg _ (by norm_num)]
  exact Int.add_mul_ediv_right now (3600 * hours) (by norm_num)

theorem unix_wrapped (now : Time) {ttl hours : Int} (h : ttl ≤ 3600 * hours * 1000000000 - 2 ^ 64) :
    (now + ttl : Time).unix < now.unix + 3600 * hours := by
  unfold Time.unix second
  rw [Int.fdiv_eq_ediv_of_nonneg _ (by norm_num), Int.fdiv_eq_ediv_of_nonneg _ (by norm_num)]
  omega

theorem expiresAt_exact_iff (cr : Crypto) (now : Time) (tok label : Bytes) (maxUses : Int) {hours : Int64}
    (hpos : 0 < hours.toInt) :
    (newInvite cr now tok label maxUses (hours * hour).toInt).expiresAt = now.unix + 3600 * hours.toInt ↔
      hours.toInt ≤ maxHours ∨ ((hours * hour).toInt ≤ 0 ∧ now.unix + 3600 * hours.toInt = 0) := by
  unfold newInvite
  dsimp only
  by_cases hmax : hours.toInt ≤ maxHours
  · have hexact := ttl_exact hpos hmax
    have hlife : 0 < (hours * hour).toInt := by omega
    rw [if_pos hlife, hexact, unix_add_hours]
    simp [hmax]
  · have hwrapped := ttl_wrapped (Int.not_le.mp hmax)
    split_ifs with hlife
    · have hshort := unix_wrapped now hwrapped
      simp only [hmax, false_or]
      omega
    · simp only [hmax, false_or, Int.not_lt.mp hlife, true_and]
      exact eq_comm

theorem created_ok {cr : Crypto} {env : IssueEnv} {serverKey : Option KeyPair} {body : InviteBody}
    {reg reg' : Registry} {resp : CreateResp}
    (h : createInvite cr env serverKey (.ok body) reg = (.ok resp, reg')) :
    ∃ tok label maxUses, reg'.data.invites = reg.data.invites ++ [newInvite cr env.now tok label maxUses
      ((if body.expiresHours ≤ 0 then 24 else body.expiresHours) * hour).toInt] := by
  unfold createInvite at h
  dsimp only at h
  split at h
  · cases h
  · rename_i rec r' hcreate
    obtain ⟨tok, -, hrec, hdata⟩ := createInvite_ok hcreate
    cases h
    exact ⟨tok.val, _, _, by rw [hdata, hrec]⟩

theorem dashboard_expiry_iff (cr : Crypto) (env : IssueEnv) (serverKey : Option KeyPair) (body : InviteBody)
    (reg reg' : Registry) (resp : CreateResp) (hpos : 0 < body.expiresHours.toInt)
    (h : createInvite cr env serverKey (.ok body) reg = (.ok resp, reg')) :
    ∃ inv, reg'.data.invites = reg.data.invites ++ [inv] ∧
      (inv.expiresAt = env.now.unix + 3600 * body.expiresHours.toInt ↔
        body.expiresHours.toInt ≤ maxHours ∨
          ((body.expiresHours * hour).toInt ≤ 0 ∧ env.now.unix + 3600 * body.expiresHours.toInt = 0)) := by
  obtain ⟨tok, label, maxUses, hinvites⟩ := created_ok h
  have hgiven : ¬ body.expiresHours ≤ 0 := by
    rw [Int64.le_iff_toInt_le]
    exact Int.not_le.mpr hpos
  rw [if_neg hgiven] at hinvites
  exact ⟨_, hinvites, expiresAt_exact_iff cr env.now tok label maxUses hpos⟩

theorem dashboard_expiry_day :
    ∃ resp reg' inv,
      createInvite hashCrypto firstIssue none (.ok { expiresHours := 24 }) {} = (.ok resp, reg') ∧
      reg'.data.invites = [inv] ∧ inv.expiresAt = 86400 := by
  obtain ⟨inv, hinvites, hexact⟩ := dashboard_expiry_iff hashCrypto firstIssue none { expiresHours := 24 } {} _ _
    (by decide) rfl
  exact ⟨_, _, inv, rfl, hinvites, hexact.mpr (.inl (by decide))⟩

/-- A request for 292 years never expires, and one for 584 years expires within half an hour. -/
theorem dashboard_expiry_wraps :
    (∃ resp reg', createInvite hashCrypto firstIssue none (.ok { expiresHours := 2562048 }) {} =
        (.ok resp, reg') ∧ reg'.data.invites.map InviteRecord.expiresAt = [0]) ∧
      ∃ resp reg', createInvite hashCrypto firstIssue none (.ok { expiresHours := 5124096 }) {} =
        (.ok resp, reg') ∧ reg'.data.invites.map InviteRecord.expiresAt = [1526] :=
  ⟨⟨_, _, rfl, by decide +kernel⟩, ⟨_, _, rfl, by decide +kernel⟩⟩

end Daxson.Dashboard
