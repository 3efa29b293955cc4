import HttpSmtpRele.Lib.Prog

/-!
# Two programs side by side

`Couples Same Sim V p q` says that `p` and `q` perform operations related by
`Same`, one by one, as long as they get answers related by `Sim`, and end in
values related by `V`.  Two runs whose answers are related then preserve any
relation of their states that `Same` operations preserve (`Couples.run`).
-/

namespace Prog

variable {Op : Type} {Res : Op → Type} {α β α' β' C σ : Type}

def Couples (Same : Op → Op → Prop) (Sim : (op₁ op₂ : Op) → Res op₁ → Res op₂ → Prop)
    (V : α → β → Prop) : Prog Op Res α → Prog Op Res β → Prop
  | .ret a, .ret b => V a b
  | .step op₁ k₁, .step op₂ k₂ =>
    Same op₁ op₂ ∧ ∀ r₁ r₂, Sim op₁ op₂ r₁ r₂ → Couples Same Sim V (k₁ r₁) (k₂ r₂)
  | .abort, .abort => True
  | _, _ => False

/-- The answers in two runs are related, as far as both run. -/
def AnswersRelated (exec : (op : Op) → C → σ → Res op × σ)
    (Sim : (op₁ op₂ : Op) → Res op₁ → Res op₂ → Prop) :
    Prog Op Res α → Prog Op Res β → (Nat → C) → (Nat → C) → σ → σ → Prop
  | .step op₁ k₁, .step op₂ k₂, cs₁, cs₂, s₁, s₂ =>
    Sim op₁ op₂ (exec op₁ (cs₁ 0) s₁).1 (exec op₂ (cs₂ 0) s₂).1 ∧
      AnswersRelated exec Sim (k₁ (exec op₁ (cs₁ 0) s₁).1) (k₂ (exec op₂ (cs₂ 0) s₂).1)
        (fun n => cs₁ (n + 1)) (fun n => cs₂ (n + 1)) (exec op₁ (cs₁ 0) s₁).2
        (exec op₂ (cs₂ 0) s₂).2
  | _, _, _, _, _, _ => True

variable {Same : Op → Op → Prop} {Sim : (op₁ op₂ : Op) → Res op₁ → Res op₂ → Prop}
  {V : α → β → Prop} {V' : α' → β' → Prop}

theorem Couples.step {op₁ op₂ : Op} {k₁ : Res op₁ → Prog Op Res α} {k₂ : Res op₂ → Prog Op Res β}
    (hop : Same op₁ op₂) (hk : ∀ r₁ r₂, Sim op₁ op₂ r₁ r₂ → Couples Same Sim V (k₁ r₁) (k₂ r₂)) :
    Couples Same Sim V (.step op₁ k₁) (.step op₂ k₂) :=
  ⟨hop, hk⟩

/-- The rule for one operation and what is done with its answer. -/
theorem Couples.perform {op₁ op₂ : Op} {f : Res op₁ → Prog Op Res α} {g : Res op₂ → Prog Op Res β}
    (hop : Same op₁ op₂) (hf : ∀ r₁ r₂, Sim op₁ op₂ r₁ r₂ → Couples Same Sim V (f r₁) (g r₂)) :
    Couples Same Sim V (Prog.perform op₁ >>= f) (Prog.perform op₂ >>= g) :=
  ⟨hop, hf⟩

/-- The rule for `>>=`: the rest couples on related values. -/
theorem Couples.bind {p : Prog Op Res α} {q : Prog Op Res β} {f : α → Prog Op Res α'}
    {g : β → Prog Op Res β'} (hp : Couples Same Sim V p q)
    (hf : ∀ a b, V a b → Couples Same Sim V' (f a) (g b)) :
    Couples Same Sim V' (p >>= f) (q >>= g) := by
  induction p generalizing q with
  | ret a =>
    cases q with
    | ret b => exact hf a b hp
    | step op k => cases hp
    | abort => cases hp
  | step op₁ k₁ ih =>
    cases q with
    | ret b => cases hp
    | step op₂ k₂ => exact ⟨hp.1, fun r₁ r₂ hr => ih r₁ (hp.2 r₁ r₂ hr)⟩
    | abort => cases hp
  | abort =>
    cases q with
    | ret b => cases hp
    | step op k => cases hp
    | abort => trivial

/-- What related operations preserve, coupled runs with related answers preserve. -/
theorem Couples.run (exec : (op : Op) → C → σ → Res op × σ) (I : σ → σ → Prop)
    (ok : C → C → Prop)
    (hstep : ∀ {op₁ op₂ c₁ c₂ s₁ s₂}, Same op₁ op₂ → ok c₁ c₂ → I s₁ s₂ →
      I (exec op₁ c₁ s₁).2 (exec op₂ c₂ s₂).2)
    {p : Prog Op Res α} {q : Prog Op Res β} (hp : Couples Same Sim V p q) {cs₁ cs₂ : Nat → C}
    {s₁ s₂ : σ} (hans : AnswersRelated exec Sim p q cs₁ cs₂ s₁ s₂)
    (hok : ∀ n, ok (cs₁ n) (cs₂ n)) (hI : I s₁ s₂) :
    I (Prog.run exec p cs₁ s₁).2 (Prog.run exec q cs₂ s₂).2 := by
  induction p generalizing q cs₁ cs₂ s₁ s₂ with
  | ret a =>
    cases q with
    | ret b => exact hI
    | step op k => cases hp
    | abort => cases hp
  | step op₁ k₁ ih =>
    cases q with
    | ret b => cases hp
    | step op₂ k₂ =>
      exact ih _ (hp.2 _ _ hans.1) hans.2 (fun n => hok (n + 1)) (hstep hp.1 (hok 0) hI)
    | abort => cases hp
  | abort =>
    cases q with
    | ret b => cases hp
    | step op k => cases hp
    | abort => exact hI

end Prog
