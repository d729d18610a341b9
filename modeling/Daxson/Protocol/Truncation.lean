import Daxson.Protocol.Stream

/-! # Where a stream of frames ends

Each part of a frame is a read of its own, and `io.ReadFull` says `io.EOF` when it gets nothing at all.
-/

open Lib Lib.BigEndian

namespace Daxson.Protocol

/-- `ReadFrame` until the first error: the frames and the error, or `none` without enough fuel. -/
def readLoop : Nat → ByteReader → Option (List Frame × GoError)
  | 0, _ => none
  | fuel + 1, r =>
    match readFrame r with
    | (.error e, _) => some ([], e)
    | (.ok f, r) => (readLoop fuel r).map fun (fs, e) => (f :: fs, e)

/-- A frame has more than one byte, so this is enough fuel. -/
def readToEnd (r : ByteReader) : Option (List Frame × GoError) := readLoop (r.content.length + 1) r

/-- The bytes of the frames and then `rest`. -/
inductive FramesThen : Bytes → List Frame → Bytes → Prop
  | done (rest : Bytes) : FramesThen rest [] rest
  | frame {x b rest : Bytes} {f : Frame} {fs : List Frame} (hscan : scan x = .frame f) (hsize : x.length = f.size)
      (hrest : FramesThen b fs rest) : FramesThen (x ++ b) (f :: fs) rest

/-- The stream has ended behind the header of a frame that goes on, or between payload and padding. -/
def AtSeam (rest : Bytes) : Prop :=
  frameHeaderSize ≤ rest.length ∧ beVal (slice rest 5 9) ≤ maxPayloadSize ∧ beVal (slice rest 9 11) ≤ maxPaddingSize ∧
    (rest.length = frameHeaderSize ∧ 0 < beVal (slice rest 5 9) ∨
      rest.length = frameHeaderSize + beVal (slice rest 5 9) ∧ 0 < beVal (slice rest 9 11))

/-! ## Whole frames -/

theorem scan_congr {x y : Bytes} {f : Frame} (h : scan x = .frame f) (htake : y.take f.size = x.take f.size)
    (hlen : f.size ≤ y.length) : scan y = .frame f := by
  obtain ⟨hhdr, htype, hsid, hpay, hplen, hpad, hlegal, -⟩ := scan_frame h
  have hsize : f.size = frameHeaderSize + f.payload.length + f.padLen.toNat := rfl
  have hslice : ∀ {lo hi : Nat}, hi ≤ frameHeaderSize + f.payload.length → slice y lo hi = slice x lo hi := by
    intro lo hi hle
    rw [← slice_take y (by omega : hi ≤ f.size), htake, slice_take x (by omega)]
  have hhead : y.headD 0 = x.headD 0 := by
    have := congrArg (List.headD · 0) htake
    simpa [List.headD_eq_head?_getD, List.head?_take, hsize, frameHeaderSize] using this
  have h11 : 11 ≤ frameHeaderSize + f.payload.length := Nat.le_add_right 11 _
  unfold scan
  simp only [hslice (by omega : 9 ≤ _), hslice h11, hslice (by omega : 5 ≤ _), hhead, ← hplen, ← hpad,
    hslice (le_refl _)]
  rw [if_neg (by omega), if_neg (Nat.not_lt.mpr hlegal.1), if_neg (Nat.not_lt.mpr hlegal.2), if_neg (by omega),
    if_neg (by omega), UInt16.ofNat_toNat, ← htype, ← hsid, hplen, ← hpay]

theorem exists_framesThen (b : Bytes) :
    ∃ fs rest, FramesThen b fs rest ∧ ∀ f, scan rest ≠ .frame f := by
  induction hn : b.length using Nat.strong_induction_on generalizing b with
  | _ n ih =>
    cases hscan : scan b with
    | frame f =>
      obtain ⟨-, -, -, -, -, -, -, hsize⟩ := scan_frame hscan
      have hlen : (b.take f.size).length = f.size := by rw [List.length_take]; omega
      have htake : scan (b.take f.size) = .frame f :=
        scan_congr hscan (by rw [List.take_take, Nat.min_self]) (by omega)
      have hpos := frame_size_pos f
      obtain ⟨fs, rest, hfs, hrest⟩ := ih (b.drop f.size).length (by rw [List.length_drop]; omega) _ rfl
      refine ⟨f :: fs, rest, ?_, hrest⟩
      have := FramesThen.frame htake hlen hfs
      rwa [List.take_append_drop] at this
    | need k => exact ⟨[], b, .done b, by rw [hscan]; nofun⟩
    | fail e => exact ⟨[], b, .done b, by rw [hscan]; nofun⟩

/-! ## The last read -/

theorem readFull_cut_eof (n : Nat) (r : ByteReader) (hfin : r.fin = .eof) (h : r.content.length < n) :
    ∃ e r', readFull n r = (.error e, r') ∧ (e = .eof ↔ r.content.length = 0) := by
  obtain ⟨r', hread, -⟩ := readFull_cut n r h
  refine ⟨_, r', hread, ?_⟩
  rw [hfin]
  by_cases hpos : 0 < r.content.length
  · simp [hpos, List.ne_nil_of_length_pos hpos]
  · simp [List.eq_nil_of_length_eq_zero (Nat.eq_zero_of_not_pos hpos)]

theorem readFrame_stops (r : ByteReader) (hfin : r.fin = .eof) (hno : ∀ f, scan r.content ≠ .frame f) :
    ∃ e r', readFrame r = (.error e, r') ∧ (e = .sys .eof ↔ r.content = [] ∨ AtSeam r.content) := by
  unfold readFrame AtSeam
  rw [← List.length_eq_zero_iff]
  by_cases hhdr : r.content.length < frameHeaderSize
  · -- Inside the header.
    obtain ⟨e, r1, h1, heof⟩ := readFull_cut_eof frameHeaderSize r hfin hhdr
    rw [h1]
    refine ⟨.sys e, r1, rfl, ?_⟩
    rw [GoError.sys.injEq, heof]
    omega
  obtain ⟨r1, h1, hr1⟩ := readFull_ok frameHeaderSize r (Nat.not_lt.mp hhdr)
  have hfin1 : r1.fin = .eof := by
    have := readFull_fin frameHeaderSize r
    rw [h1] at this
    exact this.trans hfin
  have hpos : 0 < frameHeaderSize := by decide
  rw [h1]
  simp only [slice_take r.content (by decide : 9 ≤ frameHeaderSize),
    slice_take r.content (by decide : 11 ≤ frameHeaderSize)]
  generalize hL : beVal (slice r.content 5 9) = L
  generalize hP : beVal (slice r.content 9 11) = P
  by_cases hmax : maxPayloadSize < L
  · rw [if_pos hmax]
    refine ⟨_, _, rfl, ?_⟩
    simp only [errFrameTooLarge, reduceCtorEq, false_iff]
    omega
  rw [if_neg hmax]
  by_cases hpad : maxPaddingSize < P
  · rw [if_pos hpad]
    refine ⟨_, _, rfl, ?_⟩
    simp only [errPaddingTooLarge, reduceCtorEq, false_iff]
    omega
  rw [if_neg hpad]
  have hlen1 : r1.content.length = r.content.length - frameHeaderSize := by rw [hr1, List.length_drop]
  by_cases hpay : r1.content.length < L
  · -- Before or inside the payload.
    obtain ⟨e, r2, h2, heof⟩ := readFull_cut_eof L r1 hfin1 hpay
    rw [h2]
    refine ⟨.sys e, r2, rfl, ?_⟩
    rw [GoError.sys.injEq, heof]
    omega
  obtain ⟨r2, h2, hr2⟩ := readFull_ok L r1 (Nat.not_lt.mp hpay)
  have hfin2 : r2.fin = .eof := by
    have := readFull_fin L r1
    rw [h2] at this
    exact this.trans hfin1
  have hlen2 : r2.content.length = r.content.length - frameHeaderSize - L := by rw [hr2, List.length_drop, hlen1]
  rw [h2]
  by_cases hall : r2.content.length < P
  · -- Before or inside the padding.
    obtain ⟨e, r3, h3, heof⟩ := readFull_cut_eof P r2 hfin2 hall
    simp only [h3]
    refine ⟨.sys e, r3, rfl, ?_⟩
    rw [GoError.sys.injEq, heof]
    omega
  · -- Then the whole frame is there.
    exfalso
    apply hno
    unfold scan
    simp only [hL, hP]
    rw [if_neg hhdr, if_neg hmax, if_neg hpad, if_neg (by omega), if_neg (by omega)]

/-! ## The sequence of calls -/

theorem readLoop_framesThen {b rest : Bytes} {fs : List Frame} (h : FramesThen b fs rest)
    (hno : ∀ f, scan rest ≠ .frame f) :
    ∀ (r : ByteReader) (fuel : Nat), r.fin = .eof → r.content = b → b.length < fuel →
      ∃ e, readLoop fuel r = some (fs, e) ∧ (e = .sys .eof ↔ rest = [] ∨ AtSeam rest) := by
  induction h with
  | done rest =>
    intro r fuel hfin hr hfuel
    obtain ⟨fuel, rfl⟩ := Nat.exists_eq_succ_of_ne_zero (Nat.ne_zero_of_lt hfuel)
    subst hr
    obtain ⟨e, r', hread, heof⟩ := readFrame_stops r hfin hno
    refine ⟨e, ?_, heof⟩
    rw [readLoop, hread]
  | @frame x b rest f fs hscan hsize _ ih =>
    intro r fuel hfin hr hfuel
    obtain ⟨fuel, rfl⟩ := Nat.exists_eq_succ_of_ne_zero (Nat.ne_zero_of_lt hfuel)
    obtain ⟨r', hread, hr'⟩ := readFrame_of_scan hscan hsize r hr
    have hfin' : r'.fin = .eof := by
      have := readFrame_fin r
      rw [hread] at this
      exact this.trans hfin
    have hpos := frame_size_pos f
    rw [List.length_append] at hfuel
    obtain ⟨e, hloop, heof⟩ := ih hno r' fuel hfin' hr' (by omega)
    refine ⟨e, ?_, heof⟩
    rw [readLoop, hread]
    simp only [hloop, Option.map_some]

theorem framesThen_drop {b rest : Bytes} {fs : List Frame} (h : FramesThen b fs rest) :
    rest = b.drop (fs.map Frame.size).sum := by
  induction h with
  | done rest => rfl
  | frame hscan hsize hrest ih => rw [List.map_cons, List.sum_cons, ← hsize, ← List.drop_drop, List.drop_left, ← ih]

theorem framesThen_unique {b rest rest' : Bytes} {fs fs' : List Frame} (h : FramesThen b fs rest)
    (h' : FramesThen b fs' rest') (hno : ∀ f, scan rest ≠ .frame f) (hno' : ∀ f, scan rest' ≠ .frame f) :
    rest = rest' := by
  have hb : (⟨[b], .eof, false⟩ : ByteReader).content = b := List.append_nil b
  obtain ⟨e, hread, -⟩ := readLoop_framesThen h hno ⟨[b], .eof, false⟩ (b.length + 1) rfl hb (by omega)
  obtain ⟨e', hread', -⟩ := readLoop_framesThen h' hno' ⟨[b], .eof, false⟩ (b.length + 1) rfl hb (by omega)
  have hfs : fs = fs' := by
    rw [hread] at hread'
    exact congrArg Prod.fst (Option.some.inj hread')
  rw [framesThen_drop h, framesThen_drop h', hfs]

theorem atSeam_no_frame {rest : Bytes} (h : AtSeam rest) : ∀ f, scan rest ≠ .frame f := by
  intro f hscan
  obtain ⟨-, -, -, -, hplen, hpad, -, hsize⟩ := scan_frame hscan
  obtain ⟨-, -, -, hcut⟩ := h
  have hf : f.size = frameHeaderSize + f.payload.length + f.padLen.toNat := rfl
  omega

theorem nil_no_frame : ∀ f, scan [] ≠ .frame f := nofun

/-- **How a stream of frames ends.** -/
theorem readToEnd_eof_iff (chunks : List Bytes) (last : Bool) :
    ∃ fs e, readToEnd ⟨chunks, .eof, last⟩ = some (fs, e) ∧
      ((e = .sys .eof ↔ ∃ fs', FramesThen chunks.flatten fs' []) ↔
        ¬ ∃ fs' rest, FramesThen chunks.flatten fs' rest ∧ AtSeam rest) := by
  obtain ⟨fs, rest, hfs, hno⟩ := exists_framesThen chunks.flatten
  obtain ⟨e, hread, heof⟩ := readLoop_framesThen hfs hno ⟨chunks, .eof, last⟩ _ rfl rfl (Nat.lt_succ_self _)
  have hboundary : (∃ fs', FramesThen chunks.flatten fs' []) ↔ rest = [] := by
    constructor
    · rintro ⟨fs', h⟩
      exact framesThen_unique hfs h hno nil_no_frame
    · rintro rfl
      exact ⟨fs, hfs⟩
  have hseam : (∃ fs' rest', FramesThen chunks.flatten fs' rest' ∧ AtSeam rest') ↔ AtSeam rest := by
    constructor
    · rintro ⟨fs', rest', h, hcut⟩
      rwa [framesThen_unique hfs h hno (atSeam_no_frame hcut)]
    · intro hcut
      exact ⟨fs, rest, hfs, hcut⟩
  have hne : AtSeam rest → rest ≠ [] := by
    rintro hcut rfl
    exact absurd hcut.1 (by decide)
  refine ⟨fs, e, hread, ?_⟩
  rw [hboundary, hseam, heof]
  constructor
  · intro heq hcut
    exact hne hcut (heq.mp (.inr hcut))
  · intro hcut
    exact or_iff_left hcut

theorem truncated_behind_header :
    readToEnd ⟨[[1, 0, 0, 0, 0, 0, 0, 0, 5, 0, 0]], .eof, false⟩ = some ([], .sys .eof) ∧
      ¬ ∃ fs, FramesThen [1, 0, 0, 0, 0, 0, 0, 0, 5, 0, 0] fs [] := by
  refine ⟨by decide, ?_⟩
  rintro ⟨fs, h⟩
  have hno : ∀ f, scan [1, 0, 0, 0, 0, 0, 0, 0, 5, 0, 0] ≠ .frame f := by
    have hneed : scan [1, 0, 0, 0, 0, 0, 0, 0, 5, 0, 0] = .need 5 := by decide
    rw [hneed]
    nofun
  cases framesThen_unique (.done _) h hno nil_no_frame

end Daxson.Protocol
