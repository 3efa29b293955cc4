import HttpSmtpRele.Lib.Unwinding

/-!
# Two machines in lock step

`Simulates M N R` says that `N` answers as `M` does and that `R` is kept, when
both do the same operation.  `R` also sees the operations still to come, so that
what is assumed of the rest of a run can be part of it.
-/

namespace Machine

variable {σ τ ω θ : Type}

structure Simulates (M : Machine σ ω θ) (N : Machine τ ω θ) (R : List ω → σ → τ → Prop) :
    Prop where
  answer : ∀ {op ops s t}, R (op :: ops) s t → N.answer t op = M.answer s op
  step : ∀ {op ops s t}, R (op :: ops) s t → R ops (M.step s op) (N.step t op)

/-- Related machines answer a whole run alike. -/
theorem Simulates.answers_eq {M : Machine σ ω θ} {N : Machine τ ω θ}
    {R : List ω → σ → τ → Prop} (h : M.Simulates N R) (visible : ω → Bool) (ops : List ω)
    {s : σ} {t : τ} (hR : R ops s t) : N.answers visible t ops = M.answers visible s ops := by
  induction ops generalizing s t with
  | nil => rfl
  | cons op ops ih => rw [answers, answers, h.answer hR, ih (h.step hR)]

section
variable {κ : Type}

/-- Each answer of `N` in a run is related to that of `M`. -/
def AnswersAlong (M : Machine σ ω θ) (N : Machine τ ω κ) (A : ω → Option θ → Option κ → Prop) :
    σ → τ → List ω → Prop
  | _, _, [] => True
  | s, t, op :: ops => A op (M.answer s op) (N.answer t op) ∧
      AnswersAlong M N A (M.step s op) (N.step t op) ops

structure Approximates (M : Machine σ ω θ) (N : Machine τ ω κ)
    (A : ω → Option θ → Option κ → Prop) (R : List ω → σ → τ → Prop) : Prop where
  answer : ∀ {op ops s t}, R (op :: ops) s t → A op (M.answer s op) (N.answer t op)
  step : ∀ {op ops s t}, R (op :: ops) s t → R ops (M.step s op) (N.step t op)

theorem Approximates.along {M : Machine σ ω θ} {N : Machine τ ω κ}
    {A : ω → Option θ → Option κ → Prop} {R : List ω → σ → τ → Prop}
    (h : M.Approximates N A R) (ops : List ω) {s : σ} {t : τ} (hR : R ops s t) :
    M.AnswersAlong N A s t ops := by
  induction ops generalizing s t with
  | nil => trivial
  | cons op ops ih => exact ⟨h.answer hR, ih (h.step hR)⟩

end

end Machine
