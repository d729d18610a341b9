import Daxson.Connect.Chain
import Daxson.Lib.Machine

/-! # What a proxied stream carries

A chain is linked by the histories that two neighbours share.
-/

open Lib (Pipe)
open Lib.Machine

namespace Daxson.Connect

open Mux

/-! ## One hop -/

structure Traffic where
  got : Bytes
  answered : Bytes
  passed : Bytes
  back : Bytes

def traffic (l out : Link) : Traffic where
  got := l.up.got
  answered := l.down.sent
  passed := out.up.sent
  back := out.down.got

/-- What a hop owes on its outgoing side. -/
structure Contract (ω : Type) where
  /-- It writes `head` and reads `status` before the relayed bytes. -/
  head : Bytes
  status : Bytes
  /-- What is passed on and got back while the way on is opened. -/
  opening : ω → Bytes → Bytes → Prop
  /-- What holds from the time of a positive answer. -/
  accepted : Prop

def HopInv {ω : Type} (t : Target) (k : Contract ω) (f : Traffic) : Hop ω → Prop
  | .request got => f.got = got ∧ got.length < t.encode.length ∧ f.answered = [] ∧ f.passed = [] ∧ f.back = []
  | .opening w => f.got = t.encode ∧ f.answered = [] ∧ k.opening w f.passed f.back
  | .answering true => f.got = t.encode ∧ f.answered = [] ∧ f.passed = k.head ∧ f.back = k.status ∧ k.accepted
  | .answering false => f.answered = [] ∧ f.passed <+: k.head
  | .relaying u d => k.accepted ∧ (∃ g x, f.got = t.encode ++ g ∧ f.passed = k.head ++ x ∧ Copied g x u) ∧
      ∃ y w, f.back = k.status ++ y ∧ f.answered = Tunnel.connectOK :: w ∧ Copied y w d
  | .closed => (f.answered = [] ∨ f.answered = [Tunnel.connectFail]) ∧ f.passed <+: k.head

/-- The stream begins with the request, or stops inside it. -/
def Intact (t : Target) (sent : Bytes) : Prop := sent <+: t.encode ∨ t.encode <+: sent

/-- A party only reads from `l.up` and `out.down`, and only writes to the other two. -/
structure Keeps (l l' out out' : Link) : Prop where
  upSent : l'.up.sent = l.up.sent
  downGot : l'.down.got = l.down.got
  outUpGot : out'.up.got = out.up.got
  outDownSent : out'.down.sent = out.down.sent

theorem Keeps.rfl {l out : Link} : Keeps l l out out := ⟨Eq.refl _, Eq.refl _, Eq.refl _, Eq.refl _⟩

theorem Intact.isPrefix {t : Target} {sent got : Bytes} (h : Intact t sent) (hgot : got <+: sent)
    (hlen : got.length ≤ t.encode.length) : got <+: t.encode := by
  rcases h with h | h
  · exact hgot.trans h
  · exact List.prefix_of_prefix_length_le hgot h hlen

theorem received_eq {ω : Type} (p : Party ω) {t : Target} (ht : t.Legal) {got : Bytes} (h : got <+: t.encode) :
    p.received got = if got.length < t.encode.length then .request got else .opening (p.start t) := by
  have htake : t.encode.take got.length = got := List.prefix_iff_eq_take.mp h |>.symm
  unfold Party.received
  split_ifs with hlt
  · obtain ⟨n, hscan, -⟩ := scan_take ht p.refuseEmpty hlt
    rw [htake] at hscan
    rw [hscan]
  · have hall : got = t.encode := h.eq_of_length_le (Nat.not_lt.mp hlt)
    rw [hall, scan_encode ht]

theorem delivered_singleton (o : WriteOutcome) (b : UInt8) :
    o.delivered [b] = if o.err.isNone then [b] else [] := by
  cases o with
  | full => rfl
  | short n e => simp [WriteOutcome.delivered, WriteOutcome.err]

theorem hop_recv {ω : Type} {p : Party ω} {k : Contract ω} {t : Target} (ht : t.Legal)
    (hopen : k.opening (p.start t) [] []) {l out : Link} {got chunk : Bytes} {up : Pipe UInt8} {n : Nat}
    (hl : Intact t l.up.sent) (hinv : HopInv t k (traffic l out) (.request got))
    (hscan : scan p.refuseEmpty got = .need n) (hle : chunk.length ≤ n) (hpull : l.up.pull chunk = some up) :
    HopInv t k (traffic { l with up := up } out) (p.received (got ++ chunk)) := by
  obtain ⟨hgot, hlt, hans, hpass, hback⟩ := hinv
  obtain ⟨hsent, hgot'⟩ := Pipe.pull_eq_some hpull
  have hpre : got <+: t.encode := hl.isPrefix (hgot ▸ l.up.got_isPrefix_sent) (Nat.le_of_lt hlt)
  obtain ⟨m, hneed, hroom⟩ := scan_take ht p.refuseEmpty hlt
  rw [← List.prefix_iff_eq_take.mp hpre, hscan] at hneed
  obtain rfl := Scan.need.inj hneed
  have hall : up.got = got ++ chunk := by rw [hgot', ← hgot]; rfl
  have hpre' : got ++ chunk <+: t.encode := by
    apply hl.isPrefix
    · rw [← hall, ← hsent]
      exact up.got_isPrefix_sent
    · rw [List.length_append]
      omega
  rw [received_eq p ht hpre']
  split_ifs with hmore
  · exact ⟨hall, hmore, hans, hpass, hback⟩
  · refine ⟨hall.trans (hpre'.eq_of_length_le (Nat.not_lt.mp hmore)), hans, ?_⟩
    show k.opening (p.start t) out.up.sent out.down.got
    rw [show out.up.sent = [] from hpass, show out.down.got = [] from hback]
    exact hopen

theorem hop_answer {ω : Type} {p : Party ω} {k : Contract ω} {t : Target}
    (hresp : ∀ ok, p.response ok = Tunnel.writeConnectResponse ok) {l out : Link} {ok : Bool} (o : WriteOutcome)
    (hinv : HopInv t k (traffic l out) (.answering ok)) :
    HopInv t k (traffic { l with down := l.down.push (o.delivered (p.response ok)) } out)
      (if ok && o.err.isNone then .relaying .reading .reading else .closed) := by
  rw [hresp, Tunnel.writeConnectResponse, delivered_singleton]
  cases ok with
  | false =>
    obtain ⟨hans, hpass⟩ := hinv
    have hans' : l.down.sent = [] := hans
    refine ⟨?_, hpass⟩
    cases ho : o.err.isNone with
    | true => exact .inr (by simp [traffic, hans'])
    | false => exact .inl (by simp [traffic, hans'])
  | true =>
    obtain ⟨hgot, hans, hpass, hback, hacc⟩ := hinv
    have hans' : l.down.sent = [] := hans
    cases ho : o.err.isNone with
    | true =>
      refine ⟨hacc, ⟨[], [], ?_, ?_, rfl⟩, [], [], ?_, ?_, rfl⟩
      · exact hgot.trans (List.append_nil _).symm
      · exact hpass.trans (List.append_nil _).symm
      · exact hback.trans (List.append_nil _).symm
      · simp [traffic, hans']
    | false =>
      refine ⟨.inl ?_, ?_⟩
      · simp [traffic, hans']
      · exact hpass ▸ List.prefix_refl _

theorem hop_step {ω : Type} {p : Party ω} {k : Contract ω} {t : Target} (ht : t.Legal)
    (hresp : ∀ ok, p.response ok = Tunnel.writeConnectResponse ok) (hopen : k.opening (p.start t) [] [])
    {l l' out out' : Link} {h h' : Hop ω} {a : HopAct} (hl : Intact t l.up.sent)
    (hinv : HopInv t k (traffic l out) h) (hs : h.step p l out a = some (l', h', out')) :
    HopInv t k (traffic l' out') h' ∧ Keeps l l' out out' := by
  unfold Hop.step at hs
  split at hs
  case h_1 got chunk =>
    split at hs
    · rename_i n up hscan hpull
      split_ifs at hs with hbad
      obtain ⟨rfl, rfl, rfl⟩ := Option.some.inj hs
      rw [not_or, Nat.not_lt] at hbad
      obtain ⟨hsent, -⟩ := Pipe.pull_eq_some hpull
      exact ⟨hop_recv ht hopen hl hinv hscan hbad.2 hpull, hsent, rfl, rfl, rfl⟩
    · cases hs
  case h_2 got =>
    obtain ⟨rfl, rfl, rfl⟩ := Option.some.inj hs
    obtain ⟨-, -, hans, hpass, -⟩ := hinv
    exact ⟨⟨.inl hans, hpass ▸ List.nil_prefix⟩, Keeps.rfl⟩
  case h_3 ok o =>
    obtain ⟨rfl, rfl, rfl⟩ := Option.some.inj hs
    exact ⟨hop_answer hresp o hinv, rfl, Pipe.got_push _ _, rfl, rfl⟩
  case h_4 u d a =>
    obtain ⟨⟨u', up, outUp⟩, hcopy, heq⟩ := Option.map_eq_some_iff.mp hs
    obtain ⟨rfl, rfl, rfl⟩ := heq
    obtain ⟨hacc, ⟨g, x, hgot, hpass, hc⟩, hdown⟩ := hinv
    obtain ⟨hsent, hkept, g', x', hg, hx, hc'⟩ := copied_step hcopy hc
    refine ⟨⟨hacc, ⟨g ++ g', x ++ x', ?_, ?_, hc'⟩, hdown⟩, hsent, rfl, hkept, rfl⟩
    · rw [← List.append_assoc, ← hgot]
      exact hg
    · rw [← List.append_assoc, ← hpass]
      exact hx
  case h_5 u d a =>
    obtain ⟨⟨d', outDown, down⟩, hcopy, heq⟩ := Option.map_eq_some_iff.mp hs
    obtain ⟨rfl, rfl, rfl⟩ := heq
    obtain ⟨hacc, hup, y, w, hback, hans, hc⟩ := hinv
    obtain ⟨hsent, hkept, y', w', hy, hw, hc'⟩ := copied_step hcopy hc
    refine ⟨⟨hacc, hup, y ++ y', w ++ w', ?_, ?_, hc'⟩, rfl, hkept, rfl, hsent⟩
    · rw [← List.append_assoc, ← hback]
      exact hy
    · rw [← List.cons_append, ← hans]
      exact hw
  case h_6 => cases hs

theorem hop_answered {ω : Type} {t : Target} {k : Contract ω} {f : Traffic} {h : Hop ω} (hinv : HopInv t k f h)
    {w : Bytes} (hw : f.answered = Tunnel.connectOK :: w) :
    k.accepted ∧ ∃ y, f.back = k.status ++ y ∧ w <+: y := by
  have hne : ¬ f.answered = [] := by
    rw [hw]
    exact List.cons_ne_nil _ _
  cases h with
  | request got => exact absurd hinv.2.2.1 hne
  | opening o => exact absurd hinv.2.1 hne
  | answering ok =>
    cases ok with
    | true => exact absurd hinv.2.1 hne
    | false => exact absurd hinv.1 hne
  | relaying u d =>
    obtain ⟨hacc, -, y, w', hback, hans, hc⟩ := hinv
    rw [hw] at hans
    obtain ⟨-, rfl⟩ := List.cons.inj hans
    exact ⟨hacc, y, hback, hc.isPrefix⟩
  | closed =>
    obtain ⟨hans | hans, -⟩ := hinv
    · exact absurd hans hne
    · rw [hw] at hans
      cases hans

theorem hop_passed {ω : Type} {t : Target} {k : Contract ω} {f : Traffic} {h : Hop ω} (hinv : HopInv t k f h)
    (hopen : ∀ w passed back, k.opening w passed back → passed <+: k.head) :
    ∃ g, (g = [] ∨ f.got = t.encode ++ g) ∧ f.passed <+: k.head ++ g := by
  have none_yet (hpass : f.passed <+: k.head) :
      ∃ g, (g = [] ∨ f.got = t.encode ++ g) ∧ f.passed <+: k.head ++ g :=
    ⟨[], .inl rfl, (List.append_nil k.head).symm ▸ hpass⟩
  cases h with
  | request got => exact none_yet (hinv.2.2.2.1 ▸ List.nil_prefix)
  | opening o => exact none_yet (hopen _ _ _ hinv.2.2)
  | answering ok =>
    cases ok with
    | true => exact none_yet (hinv.2.2.1 ▸ List.prefix_refl _)
    | false => exact none_yet hinv.2
  | relaying u d =>
    obtain ⟨-, ⟨g, x, hgot, hpass, hc⟩, -⟩ := hinv
    refine ⟨g, .inr hgot, ?_⟩
    rw [hpass, List.prefix_append_right_inj]
    exact hc.isPrefix
  | closed => exact none_yet hinv.2

/-! ## The server and the relays -/

def serverContract (t : Target) (dialed : Option Bytes) : Contract Target where
  head := []
  status := []
  opening w passed back := w = t ∧ passed = [] ∧ back = []
  accepted := dialed = some (Tunnel.targetAddr t.addr t.port)

def relayContract (t : Target) : Contract Opening where
  head := t.encode
  status := [Tunnel.connectOK]
  opening w passed back :=
    match w with
    | .connect t' => t' = t ∧ passed = [] ∧ back = []
    | .status => passed = t.encode ∧ back = []
  accepted := True

theorem relay_opening_passed {t : Target} (w : Opening) (passed back : Bytes)
    (h : (relayContract t).opening w passed back) : passed <+: t.encode := by
  cases w with
  | connect t' => exact h.2.1 ▸ List.nil_prefix
  | status => exact h.1 ▸ List.prefix_refl _

def ServerInv (t : Target) (l : Link) (n : ServerNode) : Prop :=
  HopInv t (serverContract t n.dialed) (traffic l n.target) n.hop

def RelayInv (t : Target) (l : Link) (n : RelayNode) : Prop :=
  HopInv t (relayContract t) (traffic l n.upstream) n.hop

theorem server_step {t : Target} (ht : t.Legal) {l l' : Link} {n n' : ServerNode} {a : ServerAct}
    (hl : Intact t l.up.sent) (hinv : ServerInv t l n) (hs : n.step l a = some (l', n')) :
    ServerInv t l' n' ∧ l'.up.sent = l.up.sent ∧ l'.down.got = l.down.got := by
  unfold ServerInv at hinv ⊢
  unfold ServerNode.step at hs
  cases a with
  | hop a =>
    obtain ⟨⟨l₁, hop, target⟩, hstep, heq⟩ := Option.map_eq_some_iff.mp hs
    obtain ⟨rfl, rfl⟩ := heq
    have hopen : (serverContract t n.dialed).opening (serverParty.start t) [] [] := ⟨rfl, rfl, rfl⟩
    obtain ⟨hinv', hkeeps⟩ := hop_step ht (fun _ => rfl) hopen hl hinv hstep
    exact ⟨hinv', hkeeps.upSent, hkeeps.downGot⟩
  | dial ok =>
    dsimp only at hs
    split at hs
    · rename_i t' hhop
      obtain ⟨rfl, rfl⟩ := Option.some.inj hs
      rw [hhop] at hinv
      obtain ⟨hgot, hans, rfl, hpass, hback⟩ := hinv
      refine ⟨?_, rfl, rfl⟩
      cases ok with
      | true => exact ⟨hgot, hans, hpass, hback, rfl⟩
      | false => exact ⟨hans, hpass ▸ List.nil_prefix⟩
    · cases hs
  | targetSends b =>
    dsimp only at hs
    split_ifs at hs
    obtain ⟨rfl, rfl⟩ := Option.some.inj hs
    refine ⟨?_, rfl, rfl⟩
    simpa only [traffic, Pipe.got_push] using hinv
  | targetReads chunk =>
    obtain ⟨up, hpull, heq⟩ := Option.map_eq_some_iff.mp hs
    obtain ⟨rfl, rfl⟩ := heq
    obtain ⟨hsent, -⟩ := Pipe.pull_eq_some hpull
    refine ⟨?_, rfl, rfl⟩
    simpa only [traffic, hsent] using hinv

theorem relay_connect {t t' : Target} {l : Link} {n : RelayNode} (o : WriteOutcome)
    (hhop : n.hop = .opening (.connect t')) (hinv : RelayInv t l n) :
    RelayInv t l {
      hop := if o.err.isNone then .opening .status else .answering false
      upstream := { n.upstream with up := n.upstream.up.push (o.delivered (Relay.writeConnectRequest t')) } } := by
  unfold RelayInv at hinv ⊢
  rw [hhop] at hinv
  obtain ⟨hgot, hans, rfl, hpass, hback⟩ := hinv
  have hpass' : n.upstream.up.sent = [] := hpass
  rw [relay_writes]
  cases ho : o.err with
  | none =>
    rw [delivered_full ho]
    exact ⟨hgot, hans, by simp [traffic, hpass'], hback⟩
  | some e =>
    -- A request that went out in part is still a prefix of the request.
    refine ⟨hans, ?_⟩
    simp only [traffic, Pipe.sent_push, hpass', List.nil_append]
    exact delivered_isPrefix o _

theorem relay_status {t : Target} {l : Link} {n : RelayNode} {b : UInt8} {down : Pipe UInt8}
    (hhop : n.hop = .opening .status) (hpull : n.upstream.down.pull [b] = some down) (hinv : RelayInv t l n) :
    RelayInv t l {
      hop := .answering (Relay.refusal b).isNone
      upstream := { n.upstream with down := down } } := by
  unfold RelayInv at hinv ⊢
  rw [hhop] at hinv
  obtain ⟨hgot, hans, hpass, hback⟩ := hinv
  obtain ⟨-, hgotb⟩ := Pipe.pull_eq_some hpull
  rw [show n.upstream.down.got = [] from hback] at hgotb
  by_cases hb : b = 0x00
  · subst hb
    exact ⟨hgot, hans, hpass, hgotb, trivial⟩
  · simp only [Relay.refusal, if_neg hb, Option.isNone_some]
    exact ⟨hans, hpass ▸ List.prefix_refl _⟩

theorem relay_step {t : Target} (ht : t.Legal) {l l' : Link} {n n' : RelayNode} {a : RelayAct}
    (hl : Intact t l.up.sent) (hinv : RelayInv t l n) (hs : n.step l a = some (l', n')) :
    RelayInv t l' n' ∧ Keeps l l' n.upstream n'.upstream := by
  unfold RelayNode.step at hs
  cases a with
  | hop a =>
    obtain ⟨⟨l₁, hop, upstream⟩, hstep, heq⟩ := Option.map_eq_some_iff.mp hs
    obtain ⟨rfl, rfl⟩ := heq
    have hopen : (relayContract t).opening (relayParty.start t) [] [] := ⟨rfl, rfl, rfl⟩
    exact hop_step ht (fun _ => rfl) hopen hl hinv hstep
  | noStream =>
    dsimp only at hs
    split at hs
    · rename_i t' hhop
      obtain ⟨rfl, rfl⟩ := Option.some.inj hs
      unfold RelayInv at hinv
      rw [hhop] at hinv
      obtain ⟨-, hans, -, hpass, -⟩ := hinv
      exact ⟨⟨hans, hpass ▸ List.nil_prefix⟩, Keeps.rfl⟩
    · cases hs
  | connect o =>
    dsimp only at hs
    split at hs
    · rename_i t' hhop
      obtain ⟨rfl, rfl⟩ := Option.some.inj hs
      exact ⟨relay_connect o hhop hinv, rfl, rfl, Pipe.got_push _ _, rfl⟩
    · cases hs
  | status b =>
    dsimp only at hs
    split at hs
    · rename_i hhop
      obtain ⟨down, hpull, heq⟩ := Option.map_eq_some_iff.mp hs
      obtain ⟨rfl, rfl⟩ := heq
      exact ⟨relay_status hhop hpull hinv, rfl, rfl, rfl, (Pipe.pull_eq_some hpull).1⟩
    · cases hs
  | statusFails =>
    dsimp only at hs
    split at hs
    · rename_i hhop
      obtain ⟨rfl, rfl⟩ := Option.some.inj hs
      unfold RelayInv at hinv
      rw [hhop] at hinv
      obtain ⟨-, hans, hpass, -⟩ := hinv
      exact ⟨⟨hans, hpass ▸ List.prefix_refl _⟩, Keeps.rfl⟩
    · cases hs

/-! ## The chain -/

def ChainInv (t : Target) : Link → Chain → Prop
  | l, .server n => ServerInv t l n
  | l, .relay n rest => RelayInv t l n ∧ ChainInv t n.upstream rest

theorem chainInv_congr {t : Target} {l l' : Link} {c : Chain} (hgot : l'.up.got = l.up.got)
    (hsent : l'.down.sent = l.down.sent) (h : ChainInv t l c) : ChainInv t l' c := by
  cases c with
  | server n =>
    unfold ChainInv ServerInv traffic at h ⊢
    rw [hgot, hsent]
    exact h
  | relay n rest =>
    refine ⟨?_, h.2⟩
    have hn := h.1
    unfold RelayInv traffic at hn ⊢
    rw [hgot, hsent]
    exact hn

theorem relay_intact {t : Target} {l : Link} {n : RelayNode} (h : RelayInv t l n) : Intact t n.upstream.up.sent := by
  obtain ⟨g, -, hpass⟩ := hop_passed h relay_opening_passed
  exact List.prefix_or_prefix_of_prefix hpass (List.prefix_append t.encode g)

theorem chain_step {t : Target} (ht : t.Legal) {c c' : Chain} {l l' : Link} {a : ChainAct}
    (hl : Intact t l.up.sent) (hinv : ChainInv t l c) (hs : c.step l a = some (l', c')) :
    ChainInv t l' c' ∧ l'.up.sent = l.up.sent ∧ l'.down.got = l.down.got := by
  -- Along the chain: a step further up moves the link that its own node shares with the one before.
  induction c generalizing l l' c' a with
  | server n =>
    cases a with
    | server a =>
      obtain ⟨⟨l₁, n₁⟩, hstep, heq⟩ := Option.map_eq_some_iff.mp hs
      obtain ⟨rfl, rfl⟩ := heq
      exact server_step ht hl hinv hstep
    | relay a | next a => cases hs
  | relay n rest ih =>
    obtain ⟨hn, hrest⟩ := hinv
    cases a with
    | server a => cases hs
    | relay a =>
      obtain ⟨⟨l₁, n₁⟩, hstep, heq⟩ := Option.map_eq_some_iff.mp hs
      obtain ⟨rfl, rfl⟩ := heq
      obtain ⟨hn', hkeeps⟩ := relay_step ht hl hn hstep
      exact ⟨⟨hn', chainInv_congr hkeeps.outUpGot hkeeps.outDownSent hrest⟩, hkeeps.upSent, hkeeps.downGot⟩
    | next a =>
      obtain ⟨⟨up, rest₁⟩, hstep, heq⟩ := Option.map_eq_some_iff.mp hs
      obtain ⟨rfl, rfl⟩ := heq
      obtain ⟨hrest', hsent, hgot⟩ := ih (relay_intact hn) hrest hstep
      refine ⟨⟨?_, hrest'⟩, rfl, rfl⟩
      unfold RelayInv traffic at hn ⊢
      rw [hsent, hgot]
      exact hn

theorem chainInv_fresh {t : Target} (n : Nat) : ChainInv t {} (Chain.fresh n) := by
  have hpos : ([] : Bytes).length < t.encode.length := by
    rw [encode_length]
    exact Nat.lt_of_lt_of_le (by decide) (Nat.le_add_right 4 _)
  induction n with
  | zero => exact ⟨rfl, hpos, rfl, rfl, rfl⟩
  | succ n ih => exact ⟨⟨rfl, hpos, rfl, rfl, rfl⟩, ih⟩

theorem chain_answered {t : Target} {c : Chain} {l : Link} {w : Bytes} (hinv : ChainInv t l c)
    (hw : l.down.sent = Tunnel.connectOK :: w) :
    c.serverNode.dialed = some (Tunnel.targetAddr t.addr t.port) ∧ w <+: c.serverNode.target.down.got := by
  induction c generalizing l w with
  | server n =>
    obtain ⟨hacc, y, hback, hwy⟩ := hop_answered hinv hw
    have hback' : n.target.down.got = y := hback
    exact ⟨hacc, hback' ▸ hwy⟩
  | relay n rest ih =>
    obtain ⟨hn, hrest⟩ := hinv
    obtain ⟨-, y, hback, hwy⟩ := hop_answered hn hw
    -- The relay has read its own status byte at the front of the neighbour's answer.
    obtain ⟨z, hz⟩ := n.upstream.down.got_isPrefix_sent
    rw [show n.upstream.down.got = [Tunnel.connectOK] ++ y from hback, List.append_assoc] at hz
    obtain ⟨hdialed, hyz⟩ := ih hrest hz.symm
    exact ⟨hdialed, hwy.trans ((List.prefix_append y z).trans hyz)⟩

theorem chain_passed {t : Target} {c : Chain} {l : Link} (hinv : ChainInv t l c) :
    ∃ g, (g = [] ∨ l.up.got = t.encode ++ g) ∧ c.serverNode.target.up.sent <+: g := by
  induction c generalizing l with
  | server n => exact hop_passed hinv fun w passed back h => h.2.1 ▸ List.nil_prefix
  | relay n rest ih =>
    obtain ⟨hn, hrest⟩ := hinv
    obtain ⟨g, hg | hg, hsub⟩ := ih hrest
    · exact ⟨g, .inl hg, hsub⟩
    · obtain ⟨g', hg', hpass⟩ := hop_passed hn relay_opening_passed
      have hread := n.upstream.up.got_isPrefix_sent.trans hpass
      rw [hg] at hread
      exact ⟨g', hg', hsub.trans ((List.prefix_append_right_inj t.encode).mp hread)⟩

/-! ## The whole stream -/

/-- What the client has put on the stream and read from it. -/
def ClientInv (t : Target) (s : System) : Prop :=
  match s.client with
  | .start => s.link.up.sent = [] ∧ s.link.down.got = [] ∧ s.appSent = [] ∧ s.appGot = []
  | .status => s.link.up.sent = t.encode ∧ s.link.down.got = [] ∧ s.appSent = [] ∧ s.appGot = []
  | .opened => s.link.up.sent = t.encode ++ s.appSent ∧ s.link.down.got = Tunnel.connectOK :: s.appGot
  | .failed _ => s.link.up.sent <+: t.encode ∧ s.appSent = [] ∧ s.appGot = []

def SystemInv (t : Target) (s : System) : Prop := ClientInv t s ∧ ChainInv t s.link s.chain

theorem client_sent {t : Target} {s : System} (h : ClientInv t s) : s.link.up.sent <+: t.encode ++ s.appSent := by
  unfold ClientInv at h
  split at h
  · exact h.1 ▸ List.nil_prefix
  · exact h.1 ▸ List.prefix_append _ _
  · exact h.1 ▸ List.prefix_refl _
  · exact h.1.trans (List.prefix_append _ _)

theorem client_read {t : Target} {s : System} (h : ClientInv t s) :
    (s.client = .opened ∧ s.link.down.got = Tunnel.connectOK :: s.appGot) ∨
      (s.client ≠ .opened ∧ s.appGot = []) := by
  unfold ClientInv at h
  split at h
  case h_3 hst => exact .inl ⟨hst, h.2⟩
  case h_1 hst | h_2 hst => exact .inr ⟨by rw [hst]; exact ClientState.noConfusion, h.2.2.2⟩
  case h_4 e hst => exact .inr ⟨by rw [hst]; exact ClientState.noConfusion, h.2.2⟩

theorem openStream_inv {t : Target} (ht : t.Legal) {s : System} (o : WriteOutcome) (hstart : s.client = .start)
    (hinv : SystemInv t s) : SystemInv t (s.openStream t o) := by
  obtain ⟨hc, hchain⟩ := hinv
  simp only [ClientInv, hstart] at hc
  obtain ⟨hsent, hgot, happ⟩ := hc
  unfold System.openStream
  rw [tunnel_writes ht]
  refine ⟨?_, chainInv_congr (Pipe.got_push _ _) rfl hchain⟩
  cases ho : o.err with
  | none =>
    simp only [ClientInv, Pipe.sent_push, hsent, List.nil_append, delivered_full ho]
    exact ⟨trivial, hgot, happ⟩
  | some e =>
    simp only [ClientInv, Pipe.sent_push, hsent, List.nil_append]
    exact ⟨delivered_isPrefix o _, happ⟩

theorem chainInv_pull {t : Target} {s : System} {down : Pipe UInt8} {chunk : Bytes}
    (hpull : s.link.down.pull chunk = some down) (h : ChainInv t s.link s.chain) :
    down.got = s.link.down.got ++ chunk ∧ ChainInv t { s.link with down := down } s.chain := by
  obtain ⟨hsent, hgot⟩ := Pipe.pull_eq_some hpull
  exact ⟨hgot, chainInv_congr (l := s.link) rfl hsent h⟩

theorem system_step {t : Target} (ht : t.Legal) {s s' : System} {a : SysAct} (hinv : SystemInv t s)
    (hs : s.step t a = some s') : SystemInv t s' := by
  obtain ⟨hc, hchain⟩ := hinv
  unfold System.step at hs
  split at hs
  case h_1 e hst | h_2 e hst =>
    obtain rfl := Option.some.inj hs
    simp only [ClientInv, hst] at hc
    exact ⟨⟨hc.1 ▸ List.nil_prefix, hc.2.2⟩, hchain⟩
  case h_3 o hst =>
    obtain rfl := Option.some.inj hs
    exact openStream_inv ht o hst ⟨hc, hchain⟩
  case h_4 b hst =>
    obtain ⟨down, hpull, rfl⟩ := Option.map_eq_some_iff.mp hs
    obtain ⟨hgot, hchain'⟩ := chainInv_pull hpull hchain
    simp only [ClientInv, hst] at hc
    refine ⟨?_, hchain'⟩
    by_cases hb : b = Tunnel.connectOK
    · simp only [ClientInv, Tunnel.refusal, hgot, hc.2.1, hb, hc.2.2.1, hc.2.2.2, List.append_nil]
      exact ⟨hc.1, rfl⟩
    · simp only [ClientInv, Tunnel.refusal, if_neg hb]
      exact ⟨hc.1 ▸ List.prefix_refl _, hc.2.2⟩
  case h_5 e hst =>
    obtain rfl := Option.some.inj hs
    simp only [ClientInv, hst] at hc
    exact ⟨⟨hc.1 ▸ List.prefix_refl _, hc.2.2⟩, hchain⟩
  case h_6 b o hst =>
    obtain rfl := Option.some.inj hs
    simp only [ClientInv, hst] at hc
    refine ⟨?_, chainInv_congr (Pipe.got_push _ _) rfl hchain⟩
    simp only [ClientInv, hst, Pipe.sent_push, hc.1, List.append_assoc]
    exact ⟨trivial, hc.2⟩
  case h_7 chunk hst =>
    obtain ⟨down, hpull, rfl⟩ := Option.map_eq_some_iff.mp hs
    obtain ⟨hgot, hchain'⟩ := chainInv_pull hpull hchain
    simp only [ClientInv, hst] at hc
    refine ⟨?_, hchain'⟩
    simp only [ClientInv, hst, hgot, hc.2, List.cons_append]
    exact ⟨hc.1, trivial⟩
  case h_8 a =>
    obtain ⟨⟨l, c⟩, hstep, rfl⟩ := Option.map_eq_some_iff.mp hs
    have hintact := List.prefix_or_prefix_of_prefix (client_sent hc) (List.prefix_append t.encode s.appSent)
    obtain ⟨hchain', hsent, hgot⟩ := chain_step ht hintact hchain hstep
    refine ⟨?_, hchain'⟩
    unfold ClientInv at hc ⊢
    simp only [hsent, hgot]
    exact hc
  case h_9 => cases hs

theorem system_fresh {t : Target} (n : Nat) : SystemInv t { chain := .fresh n } :=
  ⟨⟨rfl, rfl, rfl, rfl⟩, chainInv_fresh n⟩

/-- **A stream through `n` relays** ends at the client's target. -/
theorem connect_end_to_end (t : Target) (hmin : 1 ≤ t.addr.length) (hmax : t.addr.length ≤ 255) (n : Nat)
    (as : List SysAct) (s : System) (hrun : run (System.step t) { chain := .fresh n } as = some s) :
    (s.client = .opened → s.chain.serverNode.dialed = some (Tunnel.targetAddr t.addr t.port)) ∧
      s.appGot <+: s.chain.serverNode.target.down.sent ∧ s.chain.serverNode.target.up.got <+: s.appSent := by
  have hinv : SystemInv t s :=
    run_invariant (fun s a s' hs hstep => system_step ⟨hmin, hmax⟩ hs hstep) as _ s (system_fresh n) hrun
  obtain ⟨hc, hchain⟩ := hinv
  have hdown : (s.client = .opened → s.chain.serverNode.dialed = some (Tunnel.targetAddr t.addr t.port)) ∧
      s.appGot <+: s.chain.serverNode.target.down.sent := by
    rcases client_read hc with ⟨-, hgot⟩ | ⟨hclosed, hnil⟩
    · obtain ⟨z, hz⟩ := s.link.down.got_isPrefix_sent
      rw [hgot, List.cons_append] at hz
      obtain ⟨hdialed, hsub⟩ := chain_answered hchain hz.symm
      refine ⟨fun _ => hdialed, ?_⟩
      exact (List.prefix_append s.appGot z).trans (hsub.trans (Pipe.got_isPrefix_sent _))
    · exact ⟨fun hopened => absurd hopened hclosed, hnil ▸ List.nil_prefix⟩
  refine ⟨hdown.1, hdown.2, ?_⟩
  obtain ⟨g, hg, hsub⟩ := chain_passed hchain
  refine (s.chain.serverNode.target.up.got_isPrefix_sent.trans hsub).trans ?_
  rcases hg with rfl | hg
  · exact List.nil_prefix
  · have hread := s.link.up.got_isPrefix_sent.trans (client_sent hc)
    rw [hg] at hread
    exact (List.prefix_append_right_inj t.encode).mp hread

/-- One byte each way through one relay. -/
def oneRelay : List SysAct :=
  [.connect .full,
    .chain (.relay (.hop (.recv [3, 1]))), .chain (.relay (.hop (.recv [97]))), .chain (.relay (.hop (.recv [0, 80]))),
    .chain (.relay (.connect .full)),
    .chain (.next (.server (.hop (.recv [3])))), .chain (.next (.server (.hop (.recv [1])))),
    .chain (.next (.server (.hop (.recv [97, 0, 80])))),
    .chain (.next (.server (.dial true))), .chain (.next (.server (.hop (.answer .full)))),
    .chain (.relay (.status 0)), .chain (.relay (.hop (.answer .full))), .status 0,
    .appWrites [71] .full,
    .chain (.relay (.hop (.up (.read [71])))), .chain (.relay (.hop (.up (.write .full)))),
    .chain (.next (.server (.hop (.up (.read [71]))))), .chain (.next (.server (.hop (.up (.write .full))))),
    .chain (.next (.server (.targetReads [71]))), .chain (.next (.server (.targetSends [72, 73]))),
    .chain (.next (.server (.hop (.down (.read [72]))))), .chain (.next (.server (.hop (.down (.write .full))))),
    .chain (.relay (.hop (.down (.read [72])))), .chain (.relay (.hop (.down (.write .full)))),
    .appReads [72]]

theorem connect_one_relay :
    let t : Target := { addrType := 3, addr := ascii "a", port := 80 }
    ∃ s, run (System.step t) { chain := .fresh 1 } oneRelay = some s ∧ s.client = .opened ∧ s.appGot = [72] ∧
      s.chain.serverNode.target.up.got = [71] ∧ s.chain.serverNode.dialed = some (ascii "a:80") ∧
      (s.client = .opened → s.chain.serverNode.dialed = some (Tunnel.targetAddr t.addr t.port)) ∧
      s.appGot <+: s.chain.serverNode.target.down.sent ∧ s.chain.serverNode.target.up.got <+: s.appSent := by
  intro t
  have hruns : (run (System.step t) { chain := .fresh 1 } oneRelay).map
      (fun s => (s.client, s.appGot, s.chain.serverNode.target.up.got, s.chain.serverNode.dialed)) =
        some (.opened, [72], [71], some (ascii "a:80")) := by
    decide +kernel
  obtain ⟨s, hs, heq⟩ := Option.map_eq_some_iff.mp hruns
  simp only [Prod.mk.injEq] at heq
  obtain ⟨hopened, hgot, htarget, hdialed⟩ := heq
  exact ⟨s, hs, hopened, hgot, htarget, hdialed,
    connect_end_to_end t (by decide) (by decide) 1 oneRelay s hs⟩

end Daxson.Connect
