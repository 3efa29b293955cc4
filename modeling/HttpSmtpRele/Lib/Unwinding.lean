import Mathlib.Data.List.Basic

/-!
# Noninterference by unwinding

A machine performs operations, some of them visible to an observer, and hands
out answers.  If related states stay related when a visible operation is done in
both, and when a hidden one is done in the first only, then deleting the hidden
operations from a run leaves every answer to the observer as it was.

`ok s ops` is what is assumed of the rest `ops` of the full run from `s` on.
-/

structure Machine (σ ω θ : Type) where
  step : σ → ω → σ
  /-- The answer of the operation, if it has one. -/
  answer : σ → ω → Option θ

namespace Machine

variable {σ ω θ : Type} (M : Machine σ ω θ)

/-- The answers to the visible operations of a run. -/
def answers (visible : ω → Bool) : σ → List ω → List θ
  | _, [] => []
  | s, op :: ops =>
    (if visible op then (M.answer s op).toList else []) ++ answers visible (M.step s op) ops

structure Unwinds (visible : ω → Bool) (ok : σ → List ω → Prop) (R : σ → σ → Prop) : Prop where
  tail : ∀ {s op ops}, ok s (op :: ops) → ok (M.step s op) ops
  both : ∀ {s s' op ops}, ok s (op :: ops) → R s s' → visible op = true →
    R (M.step s op) (M.step s' op) ∧ M.answer s' op = M.answer s op
  hidden : ∀ {s s' op ops}, ok s (op :: ops) → R s s' → visible op = false → R (M.step s op) s'

variable {M}

theorem Unwinds.answers_filter {visible : ω → Bool} {ok : σ → List ω → Prop}
    {R : σ → σ → Prop} (h : M.Unwinds visible ok R) (ops : List ω) {s s' : σ} (hR : R s s')
    (hok : ok s ops) :
    M.answers visible s' (ops.filter visible) = M.answers visible s ops := by
  induction ops generalizing s s' with
  | nil => rfl
  | cons op ops ih =>
    cases hv : visible op with
    | true =>
      obtain ⟨hR', hans⟩ := h.both hok hR hv
      rw [List.filter_cons_of_pos hv, answers, answers, hans, ih hR' (h.tail hok)]
    | false =>
      rw [List.filter_cons_of_neg (by simp [hv]), answers, ih (h.hidden hok hR hv) (h.tail hok)]
      simp [hv]

/-- The state at the end of a run. -/
def after (M : Machine σ ω θ) (s : σ) (ops : List ω) : σ := ops.foldl M.step s

/-- A run and the run without its hidden operations end in related states. -/
theorem Unwinds.related_filter {visible : ω → Bool} {ok : σ → List ω → Prop}
    {R : σ → σ → Prop} (h : M.Unwinds visible ok R) (ops : List ω) {s s' : σ} (hR : R s s')
    (hok : ok s ops) : R (M.after s ops) (M.after s' (ops.filter visible)) := by
  induction ops generalizing s s' with
  | nil => exact hR
  | cons op ops ih =>
    cases hv : visible op with
    | true =>
      rw [List.filter_cons_of_pos hv]
      exact ih (h.both hok hR hv).1 (h.tail hok)
    | false =>
      rw [List.filter_cons_of_neg (by simp [hv])]
      exact ih (h.hidden hok hR hv) (h.tail hok)

end Machine
