import Daxson.Cmd.Keys
import Daxson.Lib.Refine

/-! # The identity over many commands

All commands of a device go through `identity.Load`, which makes the keys when their file is missing.
-/

open Lib.Refine

namespace Daxson.Cmd

open Identity

structure InitEnv where
  /-- An error of `Stat` other than that there is no file. -/
  statErr : Option SysError := none
  mkdirErr : Option SysError := none
  load : LoadEnv

/-- The first step of `runInit`. Without a file it makes the directory before it loads. -/
def initIdentity (cr : Crypto) (env : InitEnv) (keyPath : Bytes) (fs : Files) : Except GoError KeyPair × Files :=
  if env.statErr.isNone && (fs keyPath).isSome then load cr env.load keyPath fs
  else
    match env.mkdirErr with
    | some e => (.error (.sys e), fs)
    | none => load cr env.load keyPath fs

/-- What the commands do with the key file. -/
inductive Command where
  /-- `import`, `connect`, `doctor`, `keys show` and `keys export`. -/
  | load (env : LoadEnv)
  | init (env : InitEnv)
  | rotate (env : RotateEnv) (force : Bool)

/-- The keys that the command goes on with, and the files. -/
def Command.exec (cr : Crypto) (keyPath : Bytes) (fs : Files) : Command → Except GoError (Option KeyPair) × Files
  | .load env =>
    let (result, fs) := Identity.load cr env keyPath fs
    (result.map some, fs)
  | .init env =>
    let (result, fs) := initIdentity cr env keyPath fs
    (result.map some, fs)
  | .rotate env force =>
    match runKeysRotate cr env force keyPath fs with
    | (some e, fs) => (.error e, fs)
    | (none, fs) => (.ok none, fs)

def execAll (cr : Crypto) (keyPath : Bytes) (cmds : List Command) (fs : Files) : Files :=
  cmds.foldl (fun fs cmd => (cmd.exec cr keyPath fs).2) fs

def replies (cr : Crypto) (keyPath : Bytes) (cmds : List Command) (fs : Files) :
    List (Except GoError (Option KeyPair)) :=
  (trace (Command.exec cr keyPath) fs cmds).map Prod.snd

def Command.isRotate : Command → Bool
  | .rotate _ _ => true
  | _ => false

/-- A rotation that asks before it replaces a backup, and sees one that is there. -/
def Command.Careful : Command → Prop
  | .rotate env force => force = false ∧ env.statErr = none
  | _ => True

/-- The reply has no other keys than these. -/
def Shows (pair : Auth.KeyPair) (reply : Except GoError (Option KeyPair)) : Prop :=
  ∀ kp, reply = .ok (some kp) → kp.toKeyPair = pair

/-! ## One command -/

variable {cr : Crypto} {keyPath : Bytes} {fs : Files} {pair : Auth.KeyPair}

theorem initIdentity_cases (env : InitEnv) :
    (∃ e, initIdentity cr env keyPath fs = (.error e, fs)) ∨
      initIdentity cr env keyPath fs = load cr env.load keyPath fs := by
  unfold initIdentity
  split_ifs
  · exact .inr rfl
  · cases env.mkdirErr with
    | some e => exact .inl ⟨.sys e, rfl⟩
    | none => exact .inr rfl

theorem exec_cases {cmd : Command} (h : cmd.isRotate = false) :
    (∃ e, cmd.exec cr keyPath fs = (.error e, fs)) ∨
      ∃ env, cmd.exec cr keyPath fs = ((load cr env keyPath fs).1.map some, (load cr env keyPath fs).2) := by
  cases cmd with
  | load env => exact .inr ⟨env, rfl⟩
  | init env =>
    rcases @initIdentity_cases cr keyPath fs env with ⟨e, he⟩ | hload
    · exact .inl ⟨e, by simp only [Command.exec, he]; rfl⟩
    · exact .inr ⟨env.load, by simp only [Command.exec, hload]⟩
  | rotate => cases h

theorem load_stores {env : LoadEnv} {kp : KeyPair} (h : (load cr env keyPath fs).1 = .ok kp) :
    (load cr env keyPath fs).2.Holds keyPath kp.toKeyPair := by
  cases hfile : fs keyPath with
  | none =>
    have hmade := load_missing cr env hfile
    generalize load cr env keyPath fs = r at h hmade ⊢
    cases hmade with
    | ok kp' =>
      obtain rfl := Except.ok.inj h
      exact holds_write_stored fs keyPath _
    | late | torn | nothing => cases h
  | some file =>
    unfold load at h ⊢
    rw [hfile] at h ⊢
    cases hread : env.readErr with
    | some e =>
      rw [hread] at h
      cases h
    | none =>
      rw [hread] at h
      cases file with
      | torn | text => cases h
      | json sk =>
        dsimp only at h ⊢
        split_ifs at h ⊢
        obtain rfl := Except.ok.inj h
        exact ⟨sk, hfile, rfl, rfl⟩

theorem exec_stores {cmd : Command} {kp : KeyPair} (h : (cmd.exec cr keyPath fs).1 = .ok (some kp)) :
    (cmd.exec cr keyPath fs).2.Holds keyPath kp.toKeyPair := by
  cases hrotate : cmd.isRotate with
  | false =>
    rcases @exec_cases cr keyPath fs cmd hrotate with ⟨e, he⟩ | ⟨env, henv⟩
    · rw [he] at h
      cases h
    · rw [henv] at h ⊢
      cases hload : (load cr env keyPath fs).1 with
      | error e =>
        rw [hload] at h
        cases h
      | ok kp' =>
        rw [hload] at h
        obtain rfl := Option.some.inj (Except.ok.inj h)
        exact load_stores hload
  | true =>
    cases cmd with
    | rotate env force =>
      simp only [Command.exec] at h
      generalize runKeysRotate cr env force keyPath fs = r at h
      obtain ⟨_ | e, fs'⟩ := r <;> cases h
    | load | init => cases hrotate

theorem exec_holds {cmd : Command} (h : cmd.isRotate = false) (hold : fs.Holds keyPath pair) :
    (cmd.exec cr keyPath fs).2 = fs ∧ Shows pair (cmd.exec cr keyPath fs).1 := by
  have hsame : (cmd.exec cr keyPath fs).2 = fs := by
    rcases @exec_cases cr keyPath fs cmd h with ⟨e, he⟩ | ⟨env, henv⟩
    · rw [he]
    · rw [henv]
      exact (load_holds cr env hold).1
  refine ⟨hsame, fun kp hkp => ?_⟩
  have hstored := exec_stores hkp
  rw [hsame] at hstored
  exact hstored.inj hold

theorem all_holds (hold : fs.Holds keyPath pair) {cmds : List Command} (hcmds : ∀ cmd ∈ cmds, cmd.isRotate = false) :
    execAll cr keyPath cmds fs = fs ∧ ∀ reply ∈ replies cr keyPath cmds fs, Shows pair reply := by
  have hstep : ∀ fs' cmd, Command.isRotate cmd = false → fs' = fs →
      (cmd.exec cr keyPath fs').2 = fs ∧ Shows pair (cmd.exec cr keyPath fs').1 := by
    rintro _ cmd hcmd rfl
    exact exec_holds hcmd hold
  have hrun := @trace_invariant _ _ _ (Command.exec cr keyPath) _ (· = fs) _ hstep cmds fs hcmds rfl
  refine ⟨hrun.1, fun reply hreply => ?_⟩
  obtain ⟨x, hx, rfl⟩ := List.mem_map.mp hreply
  exact hrun.2 x hx

/-! ## Backups -/

theorem load_some {file : KeyFile} (h : fs keyPath = some file) (env : LoadEnv) : (load cr env keyPath fs).2 = fs := by
  unfold load
  rw [h]
  cases env.readErr with
  | some e => rfl
  | none =>
    cases file with
    | torn | text => rfl
    | json sk =>
      dsimp only
      split_ifs <;> rfl

theorem load_other {p : Bytes} (hp : p ≠ keyPath) (env : LoadEnv) : (load cr env keyPath fs).2 p = fs p := by
  cases hfile : fs keyPath with
  | some file => rw [load_some hfile env]
  | none =>
    have hmade := load_missing cr env hfile
    generalize load cr env keyPath fs = r at hmade ⊢
    cases hmade with
    | ok | late | torn => exact write_other _ fs hp
    | nothing => rfl

theorem Holds.congr {fs fs' : Files} {p p' : Bytes} (h : fs'.Holds p' pair) (hp : fs p = fs' p') : fs.Holds p pair := by
  obtain ⟨sk, hsk, hkeys⟩ := h
  exact ⟨sk, hp.trans hsk, hkeys⟩

def Kept (keyPath : Bytes) (pair : Auth.KeyPair) (fs : Files) : Prop :=
  fs.Holds keyPath pair ∨ fs.Holds (bakPath keyPath) pair

theorem kept_load (h : Kept keyPath pair fs) (env : LoadEnv) : Kept keyPath pair (load cr env keyPath fs).2 := by
  rcases h with h | h
  · rw [(load_holds cr env h).1]
    exact .inl h
  · exact .inr (Holds.congr h (load_other (bakPath_ne keyPath) env))

theorem kept_rotate (h : Kept keyPath pair fs) {env : RotateEnv} (hstat : env.statErr = none) :
    Kept keyPath pair (runKeysRotate cr env false keyPath fs).2 := by
  have hexisting := @kept_load cr keyPath fs pair h env.existing
  unfold runKeysRotate
  rcases hload : load cr env.existing keyPath fs with ⟨_ | kp, fs'⟩ <;> rw [hload] at hexisting
  · exact hexisting
  · dsimp only
    split_ifs with hbak
    · exact hexisting
    · cases env.renameErr with
      | some e => exact hexisting
      | none =>
        -- There is no backup, so the keys are in the file that becomes one.
        have hfile : fs'.Holds keyPath pair := by
          rcases hexisting with hfile | ⟨sk, hsk, -⟩
          · exact hfile
          · dsimp only at hsk
            simp [hstat, hsk] at hbak
        have hmoved : (fs'.rename keyPath (bakPath keyPath)).Holds (bakPath keyPath) pair :=
          Holds.congr hfile (rename_bak keyPath fs')
        have hmake : (makeKeys cr env.fresh keyPath (fs'.rename keyPath (bakPath keyPath))).2 =
            (load cr env.fresh keyPath (fs'.rename keyPath (bakPath keyPath))).2 := by
          unfold makeKeys
          rcases load cr env.fresh keyPath (fs'.rename keyPath (bakPath keyPath)) with ⟨_ | _, _⟩ <;> rfl
        change Kept keyPath pair (makeKeys cr env.fresh keyPath (fs'.rename keyPath (bakPath keyPath))).2
        rw [hmake]
        exact .inr (Holds.congr hmoved (load_other (bakPath_ne keyPath) env.fresh))

theorem kept_exec {cmd : Command} (hcareful : cmd.Careful) (h : Kept keyPath pair fs) :
    Kept keyPath pair (cmd.exec cr keyPath fs).2 := by
  cases hrotate : cmd.isRotate with
  | false =>
    rcases @exec_cases cr keyPath fs cmd hrotate with ⟨e, he⟩ | ⟨env, henv⟩
    · rw [he]
      exact h
    · rw [henv]
      exact kept_load h env
  | true =>
    cases cmd with
    | load | init => cases hrotate
    | rotate env force =>
      obtain ⟨rfl, hstat⟩ := hcareful
      have hkept := @kept_rotate cr keyPath fs pair h env hstat
      simp only [Command.exec]
      generalize runKeysRotate cr env false keyPath fs = r at hkept ⊢
      obtain ⟨_ | e, fs'⟩ := r <;> exact hkept

/-! ## Torn files -/

theorem exec_torn {sk : StoredKey} {n : Nat} (h : fs keyPath = some (.torn sk n)) (cmd : Command) :
    (cmd.exec cr keyPath fs).2 = fs ∧ ∃ e, (cmd.exec cr keyPath fs).1 = .error e := by
  have hload : ∀ env, ∃ e, load cr env keyPath fs = (.error e, fs) := by
    intro env
    unfold load
    rw [h]
    cases env.readErr with
    | some e => exact ⟨_, rfl⟩
    | none => exact ⟨_, rfl⟩
  cases hrotate : cmd.isRotate with
  | false =>
    rcases @exec_cases cr keyPath fs cmd hrotate with ⟨e, he⟩ | ⟨env, henv⟩
    · rw [he]
      exact ⟨rfl, e, rfl⟩
    · obtain ⟨e, he⟩ := hload env
      rw [henv, he]
      exact ⟨rfl, e, rfl⟩
  | true =>
    cases cmd with
    | load | init => cases hrotate
    | rotate env force =>
      obtain ⟨e, he⟩ := hload env.existing
      simp only [Command.exec, runKeysRotate, he]
      exact ⟨trivial, e, rfl⟩

theorem identity_over_commands (cr : Crypto) (keyPath : Bytes) (fs : Files) (cmds : List Command) :
    (∀ cmd kp, (Command.exec cr keyPath fs cmd).1 = .ok (some kp) → (∀ later ∈ cmds, later.isRotate = false) →
      execAll cr keyPath cmds (cmd.exec cr keyPath fs).2 = (cmd.exec cr keyPath fs).2 ∧
        ∀ reply ∈ replies cr keyPath cmds (cmd.exec cr keyPath fs).2, Shows kp.toKeyPair reply) ∧
      (∀ pair, fs.Holds keyPath pair → (∀ cmd ∈ cmds, cmd.Careful) →
        (execAll cr keyPath cmds fs).Holds keyPath pair ∨ (execAll cr keyPath cmds fs).Holds (bakPath keyPath) pair) ∧
      ∀ sk n, fs keyPath = some (.torn sk n) →
        execAll cr keyPath cmds fs = fs ∧ ∀ reply ∈ replies cr keyPath cmds fs, ∃ e, reply = .error e := by
  refine ⟨fun cmd kp hshown hlater => ?_, fun pair hold hcareful => ?_, fun sk n htorn => ?_⟩
  · exact all_holds (exec_stores hshown) hlater
  · have hstep : ∀ fs cmd, Command.Careful cmd → Kept keyPath pair fs →
        Kept keyPath pair (cmd.exec cr keyPath fs).2 ∧ True := fun _ _ hcmd hkept => ⟨kept_exec hcmd hkept, trivial⟩
    have hrun := @trace_invariant _ _ _ (Command.exec cr keyPath) _ (Kept keyPath pair) (fun _ => True) hstep cmds fs
      hcareful (.inl hold)
    exact hrun.1
  · have hstep : ∀ fs' cmd, True → fs' = fs →
        (Command.exec cr keyPath fs' cmd).2 = fs ∧ ∃ e, (Command.exec cr keyPath fs' cmd).1 = .error e := by
      rintro _ cmd - rfl
      exact exec_torn htorn cmd
    have hrun := @trace_invariant _ _ _ (Command.exec cr keyPath) (fun _ => True) (· = fs)
      (fun reply => ∃ e, reply = .error e) hstep cmds fs (fun _ _ => trivial) rfl
    refine ⟨hrun.1, fun reply hreply => ?_⟩
    obtain ⟨x, hx, rfl⟩ := List.mem_map.mp hreply
    exact hrun.2 x hx

def rotateOnce : Command :=
  .rotate { existing := { generated := .ok (plainPair 1) }, fresh := { generated := .ok (plainPair 1) } } false

theorem identity_over_commands_two_rotations :
    let fs := execAll hashCrypto (ascii "key") [rotateOnce, rotateOnce] (oneKeyFile (ascii "key"))
    fs.Holds (ascii "key") (plainPair 1) ∧ fs.Holds (ascii "key.bak") (plainPair 0) := by
  intro fs
  have hnew : fs.Holds (ascii "key") (plainPair 1) := ⟨_, by rfl, rfl, rfl⟩
  obtain ⟨-, hkept, -⟩ := identity_over_commands hashCrypto (ascii "key") (oneKeyFile (ascii "key"))
    [rotateOnce, rotateOnce]
  refine ⟨hnew, (hkept _ (oneKeyFile_holds _) ?_).resolve_left fun hold => ?_⟩
  · simp [rotateOnce, Command.Careful]
  · exact absurd (hold.inj hnew) (by decide)

end Daxson.Cmd
