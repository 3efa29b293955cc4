import HttpSmtpRele.Lib.Prog

/-!
# Sessions

`Prog.Follows` describes what a program does whatever it is told.  A session
also looks at the answers: `Obeys Next Q φ p` says that from the stage `φ` every
operation of `p`, with the answer it gets, is a step of `Next`, and that `Q`
relates the value of `p` to the stage it stops in.  A program that is refused
something and stops, and one that goes on, are so told apart.
-/

namespace Prog

variable {Op : Type} {Res : Op → Type} {α β C σ Φ : Type}

def Obeys (Next : Φ → (op : Op) → Res op → Φ → Prop) (Q : α → Φ → Prop) :
    Φ → Prog Op Res α → Prop
  | φ, .ret a => Q a φ
  | φ, .step op k => ∀ r, ∃ φ', Next φ op r φ' ∧ Obeys Next Q φ' (k r)
  | _, .abort => True

variable {Next : Φ → (op : Op) → Res op → Φ → Prop} {Q : α → Φ → Prop} {R : β → Φ → Prop} {φ : Φ}

namespace Obeys

/-- The rule for an operation that every answer takes to the same stage. -/
theorem keep {op : Op} {k : Res op → Prog Op Res α} (hn : ∀ r, Next φ op r φ)
    (hk : ∀ r, Obeys Next Q φ (k r)) : Obeys Next Q φ (.step op k) :=
  fun r => ⟨φ, hn r, hk r⟩

/-- The rule for one operation and what is done with its answer. -/
theorem perform {op : Op} {f : Res op → Prog Op Res α} {ψ : Res op → Φ}
    (hn : ∀ r, Next φ op r (ψ r)) (hf : ∀ r, Obeys Next Q (ψ r) (f r)) :
    Obeys Next Q φ (Prog.perform op >>= f) :=
  fun r => ⟨ψ r, hn r, hf r⟩

theorem mono {Q' : α → Φ → Prop} {p : Prog Op Res α} (hp : Obeys Next Q φ p)
    (hQ : ∀ a φ', Q a φ' → Q' a φ') : Obeys Next Q' φ p := by
  induction p generalizing φ with
  | ret a => exact hQ a φ hp
  | step op k ih =>
    intro r
    obtain ⟨φ', hn, hk⟩ := hp r
    exact ⟨φ', hn, ih r hk⟩
  | abort => trivial

/-- The rule for `>>=`: the rest takes the session up where `p` leaves it. -/
theorem bind {p : Prog Op Res α} {f : α → Prog Op Res β} (hp : Obeys Next Q φ p)
    (hf : ∀ a φ', Q a φ' → Obeys Next R φ' (f a)) : Obeys Next R φ (p >>= f) := by
  induction p generalizing φ with
  | ret a => exact hf a φ hp
  | step op k ih =>
    intro r
    obtain ⟨φ', hn, hk⟩ := hp r
    exact ⟨φ', hn, ih r hk⟩
  | abort => trivial

/-- The rule for a call that leaves the stage as it is. -/
theorem seq {p : Prog Op Res α} {f : α → Prog Op Res β}
    (hp : Obeys Next (fun _ φ' => φ' = φ) φ p) (hf : ∀ a, Obeys Next R φ (f a)) :
    Obeys Next R φ (p >>= f) :=
  hp.bind fun a _ h => h ▸ hf a

/-- One operation moves the session as its answer says, and leaves the rest. -/
theorem advance {exec : (op : Op) → C → σ → Res op × σ} {c : C} {s s' : σ}
    {p p' : Prog Op Res α} (hp : Obeys Next Q φ p)
    (h : Prog.advance exec c s p = some (p', s')) :
    ∃ op φ', p.head? = some op ∧ Next φ op (exec op c s).1 φ' ∧ Obeys Next Q φ' p' ∧
      s' = (exec op c s).2 := by
  obtain ⟨op, k, rfl, rfl, rfl⟩ := advance_eq_some h
  obtain ⟨φ', hn, hk⟩ := hp (exec op c s).1
  exact ⟨op, φ', rfl, hn, hk, rfl⟩

end Obeys

/-! ## How long a program takes -/

/-- At most so many operations are left. -/
def countdown : Nat → Op → Option Nat
  | 0, _ => none
  | n + 1, _ => some n

theorem countdown_eq_some {n m : Nat} {op : Op} (h : countdown n op = some m) : n = m + 1 := by
  cases n with
  | zero => cases h
  | succ n => exact congrArg (· + 1) (Option.some.inj h)

/-- The value of a program that has ended. -/
def value? : Prog Op Res α → Option α
  | .ret a => some a
  | .step _ _ => none
  | .abort => none

/-- The program has a value in the end, whatever it is told. -/
def Returns : Prog Op Res α → Prop
  | .ret _ => True
  | .step _ k => ∀ r, Returns (k r)
  | .abort => False

theorem Returns.bind {p : Prog Op Res α} {f : α → Prog Op Res β} (hp : p.Returns)
    (hf : ∀ a, (f a).Returns) : (p >>= f).Returns := by
  induction p with
  | ret a => exact hf a
  | step op k ih => exact fun r => ih r (hp r)
  | abort => exact hp.elim

theorem Returns.advance {exec : (op : Op) → C → σ → Res op × σ} {c : C} {s s' : σ}
    {p p' : Prog Op Res α} (hp : p.Returns) (h : Prog.advance exec c s p = some (p', s')) :
    p'.Returns := by
  obtain ⟨op, k, rfl, rfl, -⟩ := advance_eq_some h
  exact hp _

end Prog
