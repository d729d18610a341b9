import Daxson.Lib.Reader

/-! # Reads that recognise a grammar

A read recognises a grammar when it succeeds exactly on the streams that begin with a sentence.
-/

namespace Lib.Reader

variable {α ε E E' β γ : Type}

abbrev ReadOp (α ε E β : Type) := Reader α ε → Except E β × Reader α ε

def done (x : β) : ReadOp α ε E β := fun r => (.ok x, r)

def fail (e : E) : ReadOp α ε E β := fun r => (.error e, r)

/-- An error of the first read is passed on through `f`. -/
def andThen (p : ReadOp α ε E β) (f : E → E') (q : β → ReadOp α ε E' γ) : ReadOp α ε E' γ := fun r =>
  match p r with
  | (.error e, r) => (.error (f e), r)
  | (.ok x, r) => q x r

structure Recognises (p : ReadOp α ε E β) (G : List α → β → Prop) : Prop where
  complete : ∀ r s x rest, G s x → r.content = s ++ rest → ∃ r', p r = (.ok x, r') ∧ r'.content = rest
  sound : ∀ r x r', p r = (.ok x, r') → ∃ s, G s x ∧ r.content = s ++ r'.content

namespace Recognises

variable {p : ReadOp α ε E β} {G H : List α → β → Prop}

theorem congr (hp : Recognises p G) (h : ∀ s x, G s x ↔ H s x) : Recognises p H := by
  have : G = H := funext fun s => funext fun x => propext (h s x)
  rwa [← this]

theorem done (x : β) : Recognises (Reader.done x : ReadOp α ε E β) fun s y => s = [] ∧ y = x where
  complete := by
    rintro r s y rest ⟨rfl, rfl⟩ hr
    exact ⟨r, rfl, hr⟩
  sound := by
    intro r y r' h
    cases h
    exact ⟨[], ⟨rfl, rfl⟩, rfl⟩

theorem fail (e : E) : Recognises (Reader.fail e : ReadOp α ε E β) fun _ _ => False where
  complete := by
    intro r s x rest h
    exact h.elim
  sound := by
    intro r x r' h
    cases h

theorem ite (hp : Recognises p G) (c : Prop) [Decidable c] (e : E) :
    Recognises (if c then Reader.fail e else p) fun s x => ¬c ∧ G s x := by
  by_cases hc : c
  · rw [if_pos hc]
    exact (Recognises.fail e).congr fun s x => by simp [hc]
  · rw [if_neg hc]
    exact hp.congr fun s x => by simp [hc]

theorem andThen (hp : Recognises p G) (f : E → E') {q : β → ReadOp α ε E' γ} {K : β → List α → γ → Prop}
    (hq : ∀ x, Recognises (q x) (K x)) :
    Recognises (Reader.andThen p f q) fun s y => ∃ a b x, s = a ++ b ∧ G a x ∧ K x b y where
  complete := by
    rintro r s y rest ⟨a, b, x, rfl, ha, hb⟩ hr
    obtain ⟨r1, h1, hr1⟩ := hp.complete r a x (b ++ rest) ha (by rw [hr, List.append_assoc])
    obtain ⟨r2, h2, hr2⟩ := (hq x).complete r1 b y rest hb hr1
    refine ⟨r2, ?_, hr2⟩
    unfold Reader.andThen
    rw [h1]
    exact h2
  sound := by
    intro r y r2 h
    unfold Reader.andThen at h
    split at h
    · cases h
    · rename_i x r1 h1
      obtain ⟨a, ha, hr⟩ := hp.sound r x r1 h1
      obtain ⟨b, hb, hr1⟩ := (hq x).sound r1 y r2 h
      exact ⟨a ++ b, ⟨a, b, x, rfl, ha, hb⟩, by rw [hr, hr1, List.append_assoc]⟩

end Recognises

end Lib.Reader
