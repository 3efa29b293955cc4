import HttpSmtpRele.Lib.Prog

/-!
# Triples

`Triple exec ok P p Q`: a run of `p` from a state where `P` holds, in an
environment that only makes choices which are `ok`, ends with `Q` of its value
and state.  A run that aborts satisfies every triple.
-/

namespace Prog

variable {Op : Type} {Res : Op → Type} {α β C σ : Type}

def Triple (exec : (op : Op) → C → σ → Res op × σ) (ok : C → Prop) (P : σ → Prop)
    (p : Prog Op Res α) (Q : α → σ → Prop) : Prop :=
  ∀ cs s, (∀ n, ok (cs n)) → P s → ∀ a, (run exec p cs s).1 = some a → Q a (run exec p cs s).2

namespace Triple

variable {exec : (op : Op) → C → σ → Res op × σ} {ok : C → Prop} {P : σ → Prop}
variable {Q : α → σ → Prop} {R : β → σ → Prop}

theorem ret {a : α} (h : ∀ s, P s → Q a s) : Triple exec ok P (.ret a) Q := by
  intro cs s _ hs b hb
  cases hb
  exact h s hs

theorem abort : Triple exec ok P (.abort : Prog Op Res α) Q := by
  intro cs s _ _ a ha
  cases ha

theorem step {op : Op} {k : Res op → Prog Op Res α} {M : Res op → σ → Prop}
    (hop : ∀ c s, ok c → P s → M (exec op c s).1 (exec op c s).2)
    (hk : ∀ r, Triple exec ok (M r) (k r) Q) : Triple exec ok P (.step op k) Q := by
  intro cs s hok hs a ha
  exact hk _ _ _ (fun n => hok (n + 1)) (hop (cs 0) s (hok 0) hs) a ha

/-- An operation that keeps what holds. -/
theorem keep {op : Op} {k : Res op → Prog Op Res α}
    (hop : ∀ c s, ok c → P s → P (exec op c s).2) (hk : ∀ r, Triple exec ok P (k r) Q) :
    Triple exec ok P (.step op k) Q :=
  step (M := fun _ => P) hop hk

/-- What does not depend on the state. -/
theorem assume {φ : Prop} {p : Prog Op Res α} (h : φ → Triple exec ok P p Q) :
    Triple exec ok (fun s => φ ∧ P s) p Q := by
  intro cs s hok hs a ha
  exact h hs.1 cs s hok hs.2 a ha

/-- One operation and no more. -/
theorem perform {op : Op} {M : Res op → σ → Prop}
    (hop : ∀ c s, ok c → P s → M (exec op c s).1 (exec op c s).2) :
    Triple exec ok P (perform op) M :=
  step hop fun _ => ret fun _ hs => hs

theorem conseq {P' : σ → Prop} {Q' : α → σ → Prop} {p : Prog Op Res α}
    (h : Triple exec ok P p Q) (hP : ∀ s, P' s → P s) (hQ : ∀ a s, Q a s → Q' a s) :
    Triple exec ok P' p Q' := by
  intro cs s hok hs a ha
  exact hQ a _ (h cs s hok (hP s hs) a ha)

theorem bind {p : Prog Op Res α} {f : α → Prog Op Res β} (hp : Triple exec ok P p Q)
    (hf : ∀ a, Triple exec ok (Q a) (f a) R) : Triple exec ok P (p >>= f) R := by
  intro cs s hok hs b hb
  induction p generalizing P cs s with
  | ret a => exact hf a cs s hok (hp cs s hok hs a rfl) b hb
  | step op k ih =>
    -- the rest of the program starts in the one state the operation leaves
    have hrest : Triple exec ok (fun s' => s' = (exec op (cs 0) s).2)
        (k (exec op (cs 0) s).1) Q := by
      intro cs' s' hok' hs' a ha
      subst hs'
      let cs₀ : Nat → C := fun n => Nat.casesOn n (cs 0) cs'
      have hok₀ : ∀ n, ok (cs₀ n) := by
        intro n
        cases n with
        | zero => exact hok 0
        | succ n => exact hok' n
      exact hp cs₀ s hok₀ hs a ha
    exact ih _ hrest _ _ (fun n => hok (n + 1)) rfl hb
  | abort => cases hb

end Triple

end Prog
