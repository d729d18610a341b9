import Daxson.Identity

/-! # `daxson keys rotate`

The old key file is moved away before the new keys are made.
-/

namespace Daxson.Cmd

open Identity

structure RotateEnv where
  /-- The load of the existing keys. -/
  existing : LoadEnv
  /-- An error of `Stat` other than that there is no file. -/
  statErr : Option SysError := none
  renameErr : Option SysError := none
  /-- The load that makes the new keys. -/
  fresh : LoadEnv

def bakPath (keyPath : Bytes) : Bytes := keyPath ++ ascii ".bak"

/-- The part of `runKeysRotate` behind the rename. -/
def makeKeys (cr : Crypto) (env : LoadEnv) (keyPath : Bytes) (fs : Files) : Option GoError × Files :=
  match load cr env keyPath fs with
  | (.error e, fs) => (some e, fs)
  | (.ok _, fs) => (none, fs)

def runKeysRotate (cr : Crypto) (env : RotateEnv) (force : Bool) (keyPath : Bytes) (fs : Files) :
    Option GoError × Files :=
  match load cr env.existing keyPath fs with
  | (.error e, fs) => (some e, fs)
  | (.ok _, fs) =>
    if env.statErr.isNone && (fs (bakPath keyPath)).isSome && !force then
      (some (.new "keys rotate: backup exists" []), fs)
    else
      match env.renameErr with
      | some e => (some (.sys e), fs)
      | none => makeKeys cr env.fresh keyPath (fs.rename keyPath (bakPath keyPath))

/-- An error leaves the old keys, and a success has the generated ones with the old ones in the backup. -/
def AllOrNothing (cr : Crypto) (env : RotateEnv) (force : Bool) (keyPath : Bytes) (fs : Files)
    (old : Auth.KeyPair) : Prop :=
  ((runKeysRotate cr env force keyPath fs).1 ≠ none → (runKeysRotate cr env force keyPath fs).2.Holds keyPath old) ∧
    ((runKeysRotate cr env force keyPath fs).1 = none →
      (∃ pair, env.fresh.generated = .ok pair ∧ (runKeysRotate cr env force keyPath fs).2.Holds keyPath pair) ∧
        (runKeysRotate cr env force keyPath fs).2.Holds (bakPath keyPath) old)

/-- The command ends before it has moved the key file. -/
def StopsEarly (env : RotateEnv) (force : Bool) (keyPath : Bytes) (fs : Files) : Prop :=
  env.existing.readErr ≠ none ∨
    (env.statErr = none ∧ fs (bakPath keyPath) ≠ none ∧ force = false) ∨ env.renameErr ≠ none

theorem bakPath_ne (keyPath : Bytes) : bakPath keyPath ≠ keyPath := by
  intro h
  have := congrArg List.length h
  simp [bakPath, ascii] at this

theorem rename_old (keyPath : Bytes) (fs : Files) : fs.rename keyPath (bakPath keyPath) keyPath = none := by
  simp [Files.rename]

theorem rename_bak (keyPath : Bytes) (fs : Files) :
    fs.rename keyPath (bakPath keyPath) (bakPath keyPath) = fs keyPath := by
  simp [Files.rename, bakPath_ne]

variable {cr : Crypto} {env : RotateEnv} {force : Bool} {keyPath : Bytes} {fs : Files} {old : Auth.KeyPair}

theorem rotate_eq (hold : fs.Holds keyPath old) :
    (StopsEarly env force keyPath fs → ∃ e, runKeysRotate cr env force keyPath fs = (some e, fs)) ∧
      (¬StopsEarly env force keyPath fs →
        runKeysRotate cr env force keyPath fs =
          makeKeys cr env.fresh keyPath (fs.rename keyPath (bakPath keyPath))) := by
  obtain ⟨hfs, hfails⟩ := load_holds cr env.existing hold
  unfold runKeysRotate StopsEarly
  generalize load cr env.existing keyPath fs = r at hfs hfails ⊢
  obtain ⟨result, fs'⟩ := r
  obtain rfl : fs' = fs := hfs
  cases result with
  | error e =>
    have hread := hfails.mp ⟨e, rfl⟩
    exact ⟨fun _ => ⟨e, rfl⟩, fun h => absurd (Or.inl hread) h⟩
  | ok kp =>
    have hread : env.existing.readErr = none := by
      by_contra hread
      obtain ⟨e, he⟩ := hfails.mpr hread
      cases he
    have hbak : (env.statErr.isNone && (fs' (bakPath keyPath)).isSome && !force) = true ↔
        env.statErr = none ∧ fs' (bakPath keyPath) ≠ none ∧ force = false := by
      simp [Option.isSome_iff_ne_none, and_assoc]
    dsimp only
    by_cases hb : env.statErr = none ∧ fs' (bakPath keyPath) ≠ none ∧ force = false
    · rw [if_pos (hbak.mpr hb)]
      exact ⟨fun _ => ⟨_, rfl⟩, fun h => absurd (Or.inr (Or.inl hb)) h⟩
    · rw [if_neg (fun h => hb (hbak.mp h))]
      cases hrename : env.renameErr with
      | some e => simp
      | none => simp [hread, hb]

theorem makeKeys_moved (hold : fs.Holds keyPath old) (cr : Crypto) (env : LoadEnv) :
    (∃ pair, env.Succeeds pair ∧
        (makeKeys cr env keyPath (fs.rename keyPath (bakPath keyPath))).1 = none ∧
        (makeKeys cr env keyPath (fs.rename keyPath (bakPath keyPath))).2.Holds keyPath pair ∧
        (makeKeys cr env keyPath (fs.rename keyPath (bakPath keyPath))).2.Holds (bakPath keyPath) old) ∨
      (∀ pair, ¬env.Succeeds pair) ∧
        (makeKeys cr env keyPath (fs.rename keyPath (bakPath keyPath))).1 ≠ none ∧
        ((makeKeys cr env keyPath (fs.rename keyPath (bakPath keyPath))).2.Holds keyPath old ↔ env.FailsLate old) := by
  have hgone := rename_old keyPath fs
  have hmade := load_missing cr env hgone
  have hbak := rename_bak keyPath fs
  unfold makeKeys
  generalize load cr env keyPath (fs.rename keyPath (bakPath keyPath)) = r at hmade ⊢
  generalize fs.rename keyPath (bakPath keyPath) = moved at hgone hmade hbak
  cases hmade with
  | ok kp h =>
    left
    refine ⟨kp.toKeyPair, h, rfl, holds_write_stored moved keyPath kp, ?_⟩
    unfold Files.Holds
    dsimp only
    rw [write_other _ moved (bakPath_ne keyPath), hbak]
    exact hold
  | late kp err h =>
    right
    refine ⟨fun pair hs => ?_, by simp, fun hh => ?_, fun hl => ?_⟩
    · obtain ⟨-, -, e, hsaved⟩ := h
      simp [LoadEnv.Succeeds, hsaved] at hs
    · exact hh.inj (holds_write_stored moved keyPath kp) ▸ h
    · have hsame : old = kp.toKeyPair := Except.ok.inj (hl.2.1.symm.trans h.2.1)
      exact hsame ▸ holds_write_stored moved keyPath kp
  | torn sk n err h =>
    right
    refine ⟨fun pair => (h pair).1, by simp, ?_⟩
    rw [iff_false_right (h old).2]
    rintro ⟨sk', hsk', -⟩
    simp [write_same] at hsk'
  | nothing err h =>
    right
    refine ⟨fun pair => (h pair).1, by simp, ?_⟩
    rw [iff_false_right (h old).2]
    rintro ⟨sk', hsk', -⟩
    simp [hgone] at hsk'

/-- **Rotation** is all or nothing, but for a failure behind the rename. -/
theorem keys_rotate_iff (cr : Crypto) (env : RotateEnv) (force : Bool) (keyPath : Bytes) (fs : Files)
    (old : Auth.KeyPair) (hold : fs.Holds keyPath old) :
    AllOrNothing cr env force keyPath fs old ↔
      StopsEarly env force keyPath fs ∨ (∃ pair, env.fresh.Succeeds pair) ∨ env.fresh.FailsLate old := by
  obtain ⟨hearly, hlate⟩ := @rotate_eq cr env force keyPath fs old hold
  unfold AllOrNothing
  by_cases hstop : StopsEarly env force keyPath fs
  · obtain ⟨e, he⟩ := hearly hstop
    rw [he]
    simp [hstop, hold]
  · rw [hlate hstop, or_iff_right hstop]
    rcases makeKeys_moved hold cr env.fresh with ⟨pair, hs, hnone, hkeys, hbak⟩ | ⟨hnot, herr, hkeys⟩
    · refine iff_of_true ⟨fun h => absurd hnone h, fun _ => ⟨⟨pair, hs.2.1, hkeys⟩, hbak⟩⟩ ?_
      exact Or.inl ⟨pair, hs⟩
    · have hnone : ¬∃ pair, env.fresh.Succeeds pair := fun ⟨pair, hs⟩ => hnot pair hs
      rw [or_iff_right hnone, ← hkeys]
      exact ⟨fun h => h.1 herr, fun h => ⟨fun _ => h, fun hn => absurd hn herr⟩⟩

/-- A pair of constant bytes. -/
def plainPair (b : UInt8) : Auth.KeyPair := ⟨⟨List.replicate 32 b, rfl⟩, ⟨List.replicate 64 b, rfl⟩⟩

/-- One key file, with the pair of zeros. -/
def oneKeyFile (keyPath : Bytes) : Files :=
  Files.write keyPath (.json ⟨List.replicate 32 0, List.replicate 64 0, [], 0⟩) fun _ => none

theorem oneKeyFile_holds (keyPath : Bytes) : (oneKeyFile keyPath).Holds keyPath (plainPair 0) :=
  ⟨_, write_same keyPath _ _, rfl, rfl⟩

/-- The random source fails behind the rename. The command reports the error, and there is no key file. -/
theorem failed_rotation_loses_key_file :
    (runKeysRotate hashCrypto
        { existing := { generated := .ok (plainPair 1) }, fresh := { generated := .error (.other "no entropy") } }
        false (ascii "identity.json") (oneKeyFile (ascii "identity.json"))).1 ≠ none ∧
      (runKeysRotate hashCrypto
        { existing := { generated := .ok (plainPair 1) }, fresh := { generated := .error (.other "no entropy") } }
        false (ascii "identity.json") (oneKeyFile (ascii "identity.json"))).2 (ascii "identity.json") = none ∧
      (oneKeyFile (ascii "identity.json")).Holds (ascii "identity.json") (plainPair 0) := by
  refine ⟨by decide +kernel, by decide +kernel, oneKeyFile_holds _⟩

theorem keys_rotate_plain_pair :
    (oneKeyFile (ascii "identity.json")).Holds (ascii "identity.json") (plainPair 0) ∧
      AllOrNothing hashCrypto
        { existing := { generated := .ok (plainPair 1) }, fresh := { generated := .ok (plainPair 1) } }
        false (ascii "identity.json") (oneKeyFile (ascii "identity.json")) (plainPair 0) :=
  ⟨oneKeyFile_holds _, (keys_rotate_iff hashCrypto _ false _ _ _ (oneKeyFile_holds _)).mpr
    (Or.inr (Or.inl ⟨plainPair 1, rfl, rfl, rfl⟩))⟩

end Daxson.Cmd
