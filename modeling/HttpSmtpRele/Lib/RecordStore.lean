import Mathlib.Logic.Basic

/-!
# Stores of records

A store holds at most one record per id and is changed by operations, each
performed by an actor.  `Protection` says what must not change in a record while
it is held: its identity always, its outcome once it is final.  `StepSafe` is
what has to be shown of one operation; `StepSafe.run_evolves` carries it over
every run that does not remove the record.
-/

structure RecordStore (σ ω ι ρ κ : Type) where
  find : σ → ι → Option ρ
  step : σ → ω → σ
  /-- The operation does not remove the record held under the id. -/
  Keeps : σ → ω → ι → Prop
  /-- On whose behalf the operation runs; `none` for maintenance. -/
  actor : ω → Option κ
  /-- The record the operation hands out. -/
  returned : σ → ω → Option ρ

structure Protection (ρ κ δ ο : Type) where
  owner : ρ → κ
  identity : ρ → δ
  /-- `some` once the record is final. -/
  outcome : ρ → Option ο

namespace Protection

variable {ρ κ δ ο : Type} (P : Protection ρ κ δ ο)

/-- What may happen to a record while it is held. -/
structure Evolves (r r' : ρ) : Prop where
  owner : P.owner r' = P.owner r
  identity : P.identity r' = P.identity r
  outcome : ∀ o, P.outcome r = some o → P.outcome r' = some o

theorem Evolves.refl (r : ρ) : P.Evolves r r := ⟨rfl, rfl, fun _ h => h⟩

variable {P}

theorem Evolves.trans {r₁ r₂ r₃ : ρ} (h₁ : P.Evolves r₁ r₂) (h₂ : P.Evolves r₂ r₃) :
    P.Evolves r₁ r₃ :=
  ⟨h₂.owner.trans h₁.owner, h₂.identity.trans h₁.identity,
    fun o h => h₂.outcome o (h₁.outcome o h)⟩

end Protection

namespace RecordStore

variable {σ ω ι ρ κ δ ο : Type} (K : RecordStore σ ω ι ρ κ)

def run (s : σ) (ops : List ω) : σ := ops.foldl K.step s

/-- No operation of the run removes the record held under the id. -/
def KeepsThrough (i : ι) : σ → List ω → Prop
  | _, [] => True
  | s, op :: ops => K.Keeps s op i ∧ KeepsThrough i (K.step s op) ops

@[simp] theorem run_nil (s : σ) : K.run s [] = s := rfl

@[simp] theorem run_cons (s : σ) (op : ω) (ops : List ω) :
    K.run s (op :: ops) = K.run (K.step s op) ops := rfl

/-- The obligations on one operation. -/
structure StepSafe (P : Protection ρ κ δ ο) : Prop where
  evolves : ∀ {s op i r}, K.find s i = some r → K.Keeps s op i →
    ∃ r', K.find (K.step s op) i = some r' ∧ P.Evolves r r'
  foreign : ∀ {s op i r k}, K.find s i = some r → K.Keeps s op i → K.actor op = some k →
    k ≠ P.owner r → K.find (K.step s op) i = some r
  returned : ∀ {s op r}, K.returned s op = some r → K.actor op = some (P.owner r)

variable {K}

theorem StepSafe.run_evolves {P : Protection ρ κ δ ο} (h : K.StepSafe P) {i : ι}
    (ops : List ω) {s : σ} {r : ρ} (hr : K.find s i = some r) (hk : K.KeepsThrough i s ops) :
    ∃ r', K.find (K.run s ops) i = some r' ∧ P.Evolves r r' := by
  induction ops generalizing s r with
  | nil => exact ⟨r, hr, .refl P r⟩
  | cons op ops ih =>
    obtain ⟨r₁, hr₁, hev₁⟩ := h.evolves hr hk.1
    obtain ⟨r₂, hr₂, hev₂⟩ := ih hr₁ hk.2
    exact ⟨r₂, hr₂, hev₁.trans hev₂⟩

end RecordStore
