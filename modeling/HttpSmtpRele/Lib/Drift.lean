import Mathlib.Order.Basic

/-!
# A gauge kept by increments

A gauge follows a quantity by being moved next to every change of it; `drift`
is how far it is ahead.  Steps that forget the gauge push it further ahead,
other steps leave the drift as it is, and a resetting step sets the gauge to
the quantity.  So the gauge is right exactly when no step since the last reset
has forgotten it.
-/

structure Drift (σ ω : Type) where
  step : σ → ω → σ
  drift : σ → Int
  resets : ω → Prop
  /-- The step moves the quantity and not the gauge. -/
  Forgets : σ → ω → Prop

namespace Drift

variable {σ ω : Type} (D : Drift σ ω)

def run (s : σ) (ops : List ω) : σ := ops.foldl D.step s

structure Lawful : Prop where
  reset : ∀ {s op}, D.resets op → D.drift (D.step s op) = 0
  keep : ∀ {s op}, ¬D.resets op → ¬D.Forgets s op → D.drift (D.step s op) = D.drift s
  forget : ∀ {s op}, ¬D.resets op → D.Forgets s op → D.drift s < D.drift (D.step s op)

/-- No step since the last reset forgets the gauge, given whether this holds at the start. -/
def FollowsFrom : Prop → σ → List ω → Prop
  | p, _, [] => p
  | p, s, op :: ops => FollowsFrom (D.resets op ∨ p ∧ ¬D.Forgets s op) (D.step s op) ops

/-- No step of the run since its last reset forgets the gauge. -/
def Follows (s : σ) (ops : List ω) : Prop := D.FollowsFrom True s ops

variable {D}

theorem Lawful.step (h : D.Lawful) {s : σ} (op : ω) {p : Prop} (hpos : 0 ≤ D.drift s)
    (hp : D.drift s = 0 ↔ p) :
    0 ≤ D.drift (D.step s op) ∧
      (D.drift (D.step s op) = 0 ↔ D.resets op ∨ p ∧ ¬D.Forgets s op) := by
  by_cases hreset : D.resets op
  · rw [h.reset hreset]
    exact ⟨Int.le_refl 0, fun _ => Or.inl hreset, fun _ => rfl⟩
  · by_cases hforget : D.Forgets s op
    · have hlt := h.forget hreset hforget
      refine ⟨by omega, fun hzero => by omega, ?_⟩
      rintro (hr | ⟨-, hf⟩)
      · exact absurd hr hreset
      · exact absurd hforget hf
    · rw [h.keep hreset hforget, hp]
      refine ⟨hpos, fun hp' => Or.inr ⟨hp', hforget⟩, ?_⟩
      rintro (hr | ⟨hp', -⟩)
      · exact absurd hr hreset
      · exact hp'

theorem Lawful.run (h : D.Lawful) (ops : List ω) {s : σ} {p : Prop} (hpos : 0 ≤ D.drift s)
    (hp : D.drift s = 0 ↔ p) : D.drift (D.run s ops) = 0 ↔ D.FollowsFrom p s ops := by
  induction ops generalizing s p with
  | nil => exact hp
  | cons op ops ih =>
    obtain ⟨hpos', hp'⟩ := h.step op hpos hp
    exact ih hpos' hp'

/-- From a start without drift. -/
theorem Lawful.drift_eq_zero_iff (h : D.Lawful) {s : σ} (hs : D.drift s = 0) (ops : List ω) :
    D.drift (D.run s ops) = 0 ↔ D.Follows s ops :=
  h.run ops (Int.le_of_eq hs.symm) (iff_of_true hs trivial)

end Drift
