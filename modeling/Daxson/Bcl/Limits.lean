import Daxson.Lib.Machine
import Daxson.Bcl.Proofs

/-! # What bounds a burst and the inbox

The first item of a burst is never compared alone, and `MaxInboxBytes` is read nowhere.
-/

open Lib.Machine

namespace Daxson.Bcl

/-! ## The bursts that are handed over -/

/-- The burst that a step hands to `fragmentAndSend`. -/
def handedBy (p : Personality) (c : Conn) (a : Act) : List (List Bytes) :=
  match c.sender with
  | .collect burst total =>
    match a with
    | .timer => [burst]
    | .takeItem =>
      match c.inbox with
      | [] => []
      | item :: _ => if p.maxBurstBytes ≤ (total + item.length : Nat) then [burst ++ [item]] else []
    | _ => []
  | _ => []

/-- A connection with the bursts that it has handed over. -/
structure Bursts where
  conn : Conn := {}
  handed : List (List Bytes) := []

def Bursts.step (p : Personality) (w : Bursts) (a : Act) : Option Bursts :=
  (w.conn.step p a).map fun c => { conn := c, handed := w.handed ++ handedBy p w.conn a }

theorem handedBy_of_act {a : Act} (p : Personality) (c : Conn) (ht : a ≠ .timer) (hi : a ≠ .takeItem) :
    handedBy p c a = [] := by
  unfold handedBy
  split
  · cases a <;> first | rfl | contradiction
  · rfl

theorem handedBy_of_sender {c : Conn} (p : Personality) (a : Act)
    (h : ∀ burst total, c.sender ≠ .collect burst total) : handedBy p c a = [] := by
  unfold handedBy
  split
  · rename_i burst total hs
    exact absurd hs (h burst total)
  · rfl

/-- What a step does to the burst. -/
inductive BurstStep (p : Personality) (c : Conn) (a : Act) (c' : Conn) : Prop
  | keep (hs : c'.sender = c.sender) (hhanded : handedBy p c a = [])
  | leave (hs : ∀ burst total, c'.sender ≠ .collect burst total) (hhanded : handedBy p c a = [])
  | first (item : Bytes) (hs : c'.sender = .collect [item] item.length) (hhanded : handedBy p c a = [])
  | join (burst : List Bytes) (total : Nat) (item : Bytes) (hfrom : c.sender = .collect burst total)
      (hbelow : (total + item.length : Nat) < p.maxBurstBytes)
      (hs : c'.sender = .collect (burst ++ [item]) (total + item.length)) (hhanded : handedBy p c a = [])
  | full (burst : List Bytes) (total : Nat) (item : Bytes) (hfrom : c.sender = .collect burst total)
      (hs : c'.sender = .flush (coalesceBurst (burst ++ [item]))) (hhanded : handedBy p c a = [burst ++ [item]])
  | timed (burst : List Bytes) (total : Nat) (hfrom : c.sender = .collect burst total)
      (hs : c'.sender = .flush (coalesceBurst burst)) (hhanded : handedBy p c a = [burst])

theorem step_burst {p : Personality} {c c' : Conn} {a : Act} (h : c.step p a = some c') : BurstStep p c a c' := by
  cases step_inv h with
  | write b =>
    apply BurstStep.keep _ (handedBy_of_act p c (by simp) (by simp))
    unfold Conn.write
    split_ifs <;> rfl
  | recvFrame chunk now n f =>
    apply BurstStep.keep _ (handedBy_of_act p c (by simp) (by simp))
    unfold Conn.handleFrame
    split_ifs <;> rfl
  | takeFirst item rest hin hs =>
    apply BurstStep.leave (by simp) (handedBy_of_sender p _ _)
    rintro burst total hc
    simp [hc] at hs
  | startBurst item => exact .first item rfl (handedBy_of_act p c (by simp) (by simp))
  | takeNext item rest hin burst total hs =>
    by_cases hfull : p.maxBurstBytes ≤ (total + item.length : Nat)
    · exact .full burst total item hs (if_pos hfull) (by simp only [handedBy, hs, hin, if_pos hfull])
    · exact .join burst total item hs (not_le.mp hfull) (if_neg hfull)
        (by simp only [handedBy, hs, hin, if_neg hfull])
  | takePing fault ping rest =>
    apply BurstStep.keep _ (handedBy_of_act p c (by simp) (by simp))
    exact writeFrame_sender _ _ fault { c with pingCh := rest }
  | sendPing now fault =>
    apply BurstStep.keep _ (handedBy_of_act p c (by simp) (by simp))
    exact writeFrame_sender _ _ fault { c with pendingPingSent := now }
  | collected burst total hs => exact .timed burst total hs rfl (by simp only [handedBy, hs])
  | drained hs => exact .leave (by simp) (handedBy_of_sender p _ (by simp [hs]))
  | rested hs => exact .leave (by simp [Conn.endCycle]) (handedBy_of_sender p _ (by simp [hs]))
  | drainPing | drainPong | stop | round | flushed =>
    exact .leave (by simp) (handedBy_of_act p c (by simp) (by simp))
  | giveUp | cut | roundFails => exact .leave (by simp [Conn.endCycle]) (handedBy_of_act p c (by simp) (by simp))
  | _ => exact .keep rfl (handedBy_of_act p c (by simp) (by simp))

/-- A burst in collection has its total, and from its second item on it is below the limit. -/
def Collecting (p : Personality) (c : Conn) : Prop :=
  ∀ burst total, c.sender = .collect burst total →
    burst ≠ [] ∧ total = burst.flatten.length ∧ (burst.length = 1 ∨ (total : Int) < p.maxBurstBytes)

theorem collecting_step {p : Personality} {c c' : Conn} {a : Act} (hc : Collecting p c)
    (h : c.step p a = some c') : Collecting p c' := by
  intro burst total hb
  cases step_burst h with
  | keep hs => exact hc burst total (hs ▸ hb)
  | leave hs => exact absurd hb (hs burst total)
  | first item hs =>
    rw [hs, Sender.collect.injEq] at hb
    obtain ⟨rfl, rfl⟩ := hb
    simp
  | join burst₀ total₀ item hfrom hbelow hs =>
    rw [hs, Sender.collect.injEq] at hb
    obtain ⟨rfl, rfl⟩ := hb
    obtain ⟨-, htotal, -⟩ := hc burst₀ total₀ hfrom
    exact ⟨by simp, by simp [htotal], Or.inr hbelow⟩
  | full burst₀ total₀ item hfrom hs => simp [hs] at hb
  | timed burst₀ total₀ hfrom hs => simp [hs] at hb

/-- A burst without its last item is below the limit. -/
def BelowLimit (p : Personality) (burst : List Bytes) : Prop :=
  (burst.dropLast.flatten.length : Int) < p.maxBurstBytes

/-- The limit is positive, and a burst of several items starts with one below it. -/
def FirstFits (p : Personality) (burst : List Bytes) : Prop :=
  0 < p.maxBurstBytes ∧ (burst.length = 1 ∨ ((burst.headD []).length : Int) < p.maxBurstBytes)

theorem head_le_flatten (burst : List Bytes) : (burst.headD []).length ≤ burst.flatten.length := by
  cases burst with
  | nil => exact Nat.zero_le _
  | cons b bs => simp

theorem belowLimit_iff {p : Personality} {c c' : Conn} {a : Act} (hc : Collecting p c) (h : c.step p a = some c')
    {burst : List Bytes} (hb : burst ∈ handedBy p c a) : BelowLimit p burst ↔ FirstFits p burst := by
  unfold BelowLimit FirstFits
  cases step_burst h with
  | keep _ hh | leave _ hh | first _ _ hh | join _ _ _ _ _ _ hh => simp [hh] at hb
  | timed burst₀ total hfrom hs hh =>
    rw [hh, List.mem_singleton] at hb
    subst hb
    obtain ⟨hne, htotal, hone | hbelow⟩ := hc burst total hfrom
    · obtain ⟨item, rfl⟩ := List.length_eq_one_iff.mp hone
      simp
    · have hhead := head_le_flatten burst
      have hdrop : burst.dropLast.flatten.length ≤ burst.flatten.length :=
        (List.dropLast_sublist burst).flatten.length_le
      constructor
      · intro _
        exact ⟨by omega, Or.inr (by omega)⟩
      · intro _
        omega
  | full burst₀ total item hfrom hs hh =>
    rw [hh, List.mem_singleton] at hb
    subst hb
    rw [List.dropLast_concat]
    obtain ⟨hne, htotal, hone | hbelow⟩ := hc burst₀ total hfrom
    · obtain ⟨first, rfl⟩ := List.length_eq_one_iff.mp hone
      simp
      omega
    · obtain ⟨first, rest, rfl⟩ := List.exists_cons_of_ne_nil hne
      have hhead := head_le_flatten (first :: rest)
      simp only [List.cons_append, List.headD_cons] at hhead ⊢
      constructor
      · intro _
        exact ⟨by omega, Or.inr (by omega)⟩
      · intro _
        omega

theorem bursts_step_inv {p : Personality} {w w' : Bursts} {a : Act} (h : w.step p a = some w') :
    w.conn.step p a = some w'.conn ∧ w'.handed = w.handed ++ handedBy p w.conn a := by
  obtain ⟨c, hc, rfl⟩ := Option.map_eq_some_iff.mp h
  exact ⟨hc, rfl⟩

/-- Every burst is flushed in time exactly if no first item of several reaches the limit alone. -/
theorem force_flush_iff (p : Personality) (acts : List Act) (t : Bursts)
    (hrun : run (Bursts.step p) {} acts = some t) :
    (∀ burst ∈ t.handed, BelowLimit p burst) ↔
      AllSteps (Bursts.step p) (fun w a => ∀ burst ∈ handedBy p w.conn a, FirstFits p burst) {} acts := by
  have hstep : ∀ w a w', Collecting p w.conn → Bursts.step p w a = some w' →
      ((∀ burst ∈ w'.handed, BelowLimit p burst) ↔
        (∀ burst ∈ w.handed, BelowLimit p burst) ∧ ∀ burst ∈ handedBy p w.conn a, FirstFits p burst) := by
    intro w a w' hc h
    rw [(bursts_step_inv h).2, List.forall_mem_append]
    apply and_congr_right
    intro _
    exact forall₂_congr fun burst hb => belowLimit_iff hc (bursts_step_inv h).1 hb
  have hstart : Collecting p ({} : Bursts).conn := fun burst total hs => by cases hs
  rw [run_iff_allSteps_of (fun w a w' hc h => collecting_step hc (bursts_step_inv h).1) hstep acts {} t hstart hrun]
  simp

theorem run_two_items (p : Personality) {x y : Bytes} (hx : x.isEmpty = false) (hy : y.isEmpty = false)
    (hfull : p.maxBurstBytes ≤ x.length + y.length) :
    run (Bursts.step p) {} [.write x, .writeSend 0, .write y, .writeSend 0, .takeItem, .startBurst, .takeItem] =
      some {
        conn := { state := .burst, sender := .flush (coalesceBurst [x, y]), depth := 1, accepted := x ++ y }
        handed := [[x, y]] } := by
  simp only [run_cons, run_nil, Bursts.step, Conn.step, Conn.write, Conn.writeSend, Conn.takeItem, Conn.startBurst,
    handedBy, hx, hy, Option.map_some, Option.bind_some]
  simp [inboxCap, hfull]

/-- The mobile personality flushes at 64 KiB. A first item of that size alone still waits for another. -/
theorem large_first_item_waits :
    ∃ t, run (Bursts.step ⟨65536, 60000000000⟩) {}
        [.write (List.replicate 65536 0), .writeSend 0, .write [1], .writeSend 0, .takeItem, .startBurst, .takeItem] =
          some t ∧
      t.handed = [[List.replicate 65536 0, [1]]] ∧
      ¬BelowLimit ⟨65536, 60000000000⟩ [List.replicate 65536 0, [1]] := by
  have hlen : (List.replicate 65536 (0 : UInt8)).length = 65536 := List.length_replicate
  generalize List.replicate 65536 (0 : UInt8) = x at hlen ⊢
  have hx : x.isEmpty = false := by
    cases x with
    | nil => cases hlen
    | cons b x => rfl
  refine ⟨_, run_two_items _ hx rfl (by rw [hlen]; decide), rfl, ?_⟩
  simp [BelowLimit, hlen]

theorem force_flush_small_items :
    ∃ t, run (Bursts.step ⟨4, 0⟩) {}
        [.write [1, 2, 3], .writeSend 0, .write [4], .writeSend 0, .takeItem, .startBurst, .takeItem] = some t ∧
      ((∀ burst ∈ t.handed, BelowLimit ⟨4, 0⟩ burst) ↔
        AllSteps (Bursts.step ⟨4, 0⟩) (fun w a => ∀ burst ∈ handedBy ⟨4, 0⟩ w.conn a, FirstFits ⟨4, 0⟩ burst) {}
          [.write [1, 2, 3], .writeSend 0, .write [4], .writeSend 0, .takeItem, .startBurst, .takeItem]) :=
  have hrun := run_two_items ⟨4, 0⟩ rfl rfl (by simp)
  ⟨_, hrun, force_flush_iff ⟨4, 0⟩ _ _ hrun⟩

/-! ## The inbox -/

/-- A `Write` whose select takes the inbox finds less than `maxInboxBytes` there. -/
def SendsBelow (p : Personality) (maxInboxBytes : Int) (c : Conn) (a : Act) : Prop :=
  ∀ i, a = .writeSend i → c.step p a ≠ none → (c.inbox.flatten.length : Int) < maxInboxBytes

/-- The action is no `Write` of more than `n` bytes. -/
def WritesAtMost (n : Nat) (a : Act) : Prop := ∀ b, a = .write b → b.length ≤ n

theorem step_queued {p : Personality} {c c' : Conn} {a : Act} (h : c.step p a = some c') {b : Bytes}
    (hb : b ∈ c'.writers ∨ b ∈ c'.inbox) : (b ∈ c.writers ∨ b ∈ c.inbox) ∨ a = .write b ∧ b ≠ [] := by
  cases step_inv h with
  | write b' =>
    unfold Conn.write at hb
    split_ifs at hb with hskip
    · exact Or.inl hb
    · simp only [Bool.or_eq_true, List.isEmpty_iff, not_or] at hskip
      simp only [List.mem_append, List.mem_singleton] at hb
      rcases hb with (hb | rfl) | hb
      · exact Or.inl (Or.inl hb)
      · exact Or.inr ⟨rfl, hskip.1⟩
      · exact Or.inl (Or.inr hb)
  | writeSend i b' hb' =>
    left
    rcases hb with hb | hb
    · exact Or.inl (List.mem_of_mem_eraseIdx hb)
    · rcases List.mem_append.mp hb with hb | hb
      · exact Or.inr hb
      · rw [List.mem_singleton.mp hb]
        exact Or.inl (List.mem_of_getElem? hb')
  | writeClosed i => exact Or.inl (hb.imp_left List.mem_of_mem_eraseIdx)
  | takeFirst item rest hin | takeNext item rest hin =>
    left
    rw [hin]
    exact hb.imp_right (List.mem_cons_of_mem item)
  | recvFrame chunk now n f =>
    unfold Conn.handleFrame at hb
    split_ifs at hb <;> exact Or.inl hb
  | takePing fault ping rest | drainPing fault ping rest =>
    obtain ⟨wire, hwire⟩ := writeFrame_wire { type := Protocol.typePong, payload := ping.payload } [] fault
      { c with pingCh := rest }
    unfold Conn.writePong at hb
    rw [hwire] at hb
    exact Or.inl hb
  | sendPing now fault =>
    obtain ⟨wire, hwire⟩ := writeFrame_wire { type := Protocol.typePing, payload := randomBytes 8 } [] fault
      { c with pendingPingSent := now }
    rw [hwire] at hb
    exact Or.inl hb
  | _ => exact Or.inl hb

/-- Nothing empty waits, and nothing of more than `n` bytes. -/
def Queued (n : Nat) (c : Conn) : Prop := ∀ b, b ∈ c.writers ∨ b ∈ c.inbox → b ≠ [] ∧ b.length ≤ n

theorem queued_step {n : Nat} (p : Personality) (c : Conn) (a : Act) (c' : Conn) (hq : Queued n c)
    (ha : WritesAtMost n a) (h : c.step p a = some c') : Queued n c' := by
  intro b hb
  rcases step_queued h hb with hb | ⟨rfl, hne⟩
  · exact hq b hb
  · exact ⟨hne, ha b rfl⟩

theorem flatten_length_le {n : Nat} {items : List Bytes} (h : ∀ b ∈ items, b.length ≤ n) :
    items.flatten.length ≤ items.length * n := by
  rw [List.length_flatten, ← List.length_map (f := List.length), ← smul_eq_mul]
  apply List.sum_le_card_nsmul
  intro k hk
  obtain ⟨b, hb, rfl⟩ := List.mem_map.mp hk
  exact h b hb

theorem writeSend_room {p : Personality} {c : Conn} {i : Nat} (h : c.step p (.writeSend i) ≠ none) :
    c.writers ≠ [] ∧ c.inbox.length ≤ 255 := by
  obtain ⟨c', hc'⟩ := Option.ne_none_iff_exists'.mp h
  cases step_inv hc' with
  | writeSend _ b hb hroom =>
    refine ⟨?_, Nat.le_of_lt_succ hroom⟩
    intro hnil
    simp [hnil] at hb

theorem queued_sendsBelow {n : Nat} {maxInboxBytes : Int} (hn : n = 0 ∨ 255 * n < maxInboxBytes) (p : Personality)
    (c : Conn) (a : Act) (hq : Queued n c) : SendsBelow p maxInboxBytes c a := by
  rintro i rfl hsend
  obtain ⟨hwriters, hroom⟩ := writeSend_room hsend
  obtain ⟨b, hb⟩ := List.exists_mem_of_ne_nil _ hwriters
  have hpos := List.length_pos_iff.mpr (hq b (Or.inl hb)).1
  have hle := (hq b (Or.inl hb)).2
  have hbytes := flatten_length_le fun b hb => (hq b (Or.inr hb)).2
  have hitems : c.inbox.length * n ≤ 255 * n := Nat.mul_le_mul_right n hroom
  rcases hn with hn | hn
  · omega
  · omega

/-! ## Filling the inbox -/

/-- `k` calls of `Write`, each of which completes. -/
def fillActs (b : Bytes) (k : Nat) : List Act := (List.replicate k [.write b, .writeSend 0]).flatten

theorem fillActs_succ (b : Bytes) (k : Nat) : fillActs b (k + 1) = fillActs b k ++ [.write b, .writeSend 0] := by
  simp [fillActs, List.replicate_succ']

theorem run_fillActs (p : Personality) {b : Bytes} (hb : b.isEmpty = false) {k : Nat} (hk : k ≤ 256) :
    run (Conn.step p) {} (fillActs b k) =
      some { inbox := List.replicate k b, accepted := (List.replicate k b).flatten } := by
  induction k with
  | zero => rfl
  | succ k ih =>
    rw [fillActs_succ, run_append, ih (by omega)]
    simp [Conn.step, Conn.write, Conn.writeSend, hb, inboxCap, show k < 256 by omega, List.replicate_succ']

theorem sendsBelow_fill {p : Personality} {maxInboxBytes : Int} {b : Bytes} (hb : b.isEmpty = false) {k : Nat}
    (hk : k < 256) (h : AllSteps (Conn.step p) (SendsBelow p maxInboxBytes) {} (fillActs b (k + 1))) :
    ((k * b.length : Nat) : Int) < maxInboxBytes := by
  rw [fillActs_succ] at h
  obtain ⟨-, h⟩ := allSteps_append _ _ _ _ h (run_fillActs p hb hk.le)
  obtain ⟨-, hrest⟩ := h
  have hlast := (hrest _ rfl).1 0 rfl
  simpa [Conn.step, Conn.write, Conn.writeSend, hb, inboxCap, hk] using hlast

/-- `Write` keeps to `MaxInboxBytes` exactly if 255 slices of the largest size stay below it. -/
theorem inbox_bound_iff (p : Personality) (n : Nat) (maxInboxBytes : Int) :
    (∀ acts, (∀ a ∈ acts, WritesAtMost n a) → AllSteps (Conn.step p) (SendsBelow p maxInboxBytes) {} acts) ↔
      n = 0 ∨ 255 * n < maxInboxBytes := by
  constructor
  · intro h
    rcases Nat.eq_zero_or_pos n with hn | hn
    · exact Or.inl hn
    · right
      have hne : (List.replicate n (0 : UInt8)).isEmpty = false := by
        simp only [List.isEmpty_replicate, decide_eq_false_iff_not]
        omega
      have hall := h (fillActs (List.replicate n 0) 256) (by
        intro a ha b hb
        simp only [fillActs, List.mem_flatten, List.mem_replicate] at ha
        obtain ⟨l, ⟨-, rfl⟩, ha⟩ := ha
        simp only [hb, List.mem_cons, Act.write.injEq, reduceCtorEq, List.not_mem_nil, or_false] at ha
        rw [ha, List.length_replicate])
      have hbytes := sendsBelow_fill hne (by decide : 255 < 256) hall
      rw [List.length_replicate] at hbytes
      exact_mod_cast hbytes
  · intro hn acts hacts
    apply allSteps_of_invariant (I := Queued n) (p := WritesAtMost n) (queued_step p) _ acts {} _ hacts
    · intro c a hq _
      exact queued_sendsBelow hn p c a hq
    · rintro b (hb | hb) <;> cases hb

/-- One `Write` of 4 MiB fills the browser's inbox, and the next one completes all the same. -/
theorem write_completes_on_full_inbox :
    ¬AllSteps (Conn.step ⟨524288, 45000000000⟩) (SendsBelow ⟨524288, 45000000000⟩ 4194304) {}
      (fillActs (List.replicate 4194304 0) 2) := by
  intro h
  have hlen : (List.replicate 4194304 (0 : UInt8)).length = 4194304 := List.length_replicate
  have hne : (List.replicate 4194304 (0 : UInt8)).isEmpty = false := by rw [List.isEmpty_replicate]; rfl
  have hbytes := sendsBelow_fill hne (by decide : 1 < 256) h
  rw [hlen] at hbytes
  omega

end Daxson.Bcl
