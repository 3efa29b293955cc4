import Mathlib.Logic.Basic

/-!
# Programs over a signature of operations

`Prog Op Res α` is a program that performs operations `op : Op`, each answered
by a value of `Res op`, and ends in a value of `α` or in an abort.  The answers
come from outside, so one program has several readings:

* `run`: it is run alone on a state, the environment making one choice per
  operation;
* `advance`: one operation, for a scheduler that interleaves many programs;
* `Path`: what is left after some operations.

`Follows next Q φ p` says that the operations of `p`, whatever the answers, are
a path of the automaton `next` from `φ`, and that `Q` relates its value to the
state it stops in.  It composes along `>>=` (`Follows.bind`) and is kept by
`advance` (`Follows.advance`), which is all a scheduler needs.
-/

/-- A value, an operation and what is done with its answer, or an abort. -/
inductive Prog (Op : Type) (Res : Op → Type) (α : Type) : Type
  | ret (a : α)
  | step (op : Op) (k : Res op → Prog Op Res α)
  | abort

namespace Prog

variable {Op : Type} {Res : Op → Type} {α β γ C σ Φ : Type}

protected def bind : Prog Op Res α → (α → Prog Op Res β) → Prog Op Res β
  | .ret a, f => f a
  | .step op k, f => .step op fun r => (k r).bind f
  | .abort, _ => .abort

instance : Monad (Prog Op Res) where
  pure := .ret
  bind := Prog.bind

/-- The program of one operation. -/
def perform (op : Op) : Prog Op Res (Res op) := .step op .ret

@[simp] theorem pure_eq (a : α) : (pure a : Prog Op Res α) = .ret a := rfl

@[simp] theorem ret_bind (a : α) (f : α → Prog Op Res β) : (Prog.ret a >>= f) = f a := rfl

@[simp] theorem step_bind (op : Op) (k : Res op → Prog Op Res α) (f : α → Prog Op Res β) :
    (Prog.step op k >>= f) = .step op fun r => k r >>= f := rfl

@[simp] theorem abort_bind (f : α → Prog Op Res β) :
    ((.abort : Prog Op Res α) >>= f) = .abort := rfl

@[simp] theorem perform_bind (op : Op) (f : Res op → Prog Op Res β) :
    (perform op >>= f) = .step op f := rfl

theorem bind_assoc (p : Prog Op Res α) (f : α → Prog Op Res β) (g : β → Prog Op Res γ) :
    (p >>= f >>= g) = p >>= fun a => f a >>= g := by
  induction p with
  | ret a => rfl
  | step op k ih =>
    simp only [step_bind]
    congr 1
    funext r
    exact ih r
  | abort => rfl

/-! ## A program run alone -/

/-- The value (`none` after an abort) and the final state; `cs n` is what the
environment decides while the `n`-th operation is performed. -/
def run (exec : (op : Op) → C → σ → Res op × σ) :
    Prog Op Res α → (Nat → C) → σ → Option α × σ
  | .ret a, _, s => (some a, s)
  | .step op k, cs, s =>
    run exec (k (exec op (cs 0) s).1) (fun n => cs (n + 1)) (exec op (cs 0) s).2
  | .abort, _, s => (none, s)

section
variable (exec : (op : Op) → C → σ → Res op × σ) (cs : Nat → C) (s : σ)

@[simp] theorem run_ret (a : α) : run exec (.ret a) cs s = (some a, s) := rfl

@[simp] theorem run_step (op : Op) (k : Res op → Prog Op Res α) :
    run exec (.step op k) cs s =
      run exec (k (exec op (cs 0) s).1) (fun n => cs (n + 1)) (exec op (cs 0) s).2 := rfl

@[simp] theorem run_abort : run exec (.abort : Prog Op Res α) cs s = (none, s) := rfl

/-- A value that is only converted. -/
theorem run_bind_ret (cs : Nat → C) (p : Prog Op Res α) (f : α → β) :
    run exec (p >>= fun a => .ret (f a)) cs s = ((run exec p cs s).1.map f, (run exec p cs s).2) := by
  induction p generalizing cs s with
  | ret a => rfl
  | step op k ih => exact ih _ _ _
  | abort => rfl

/-- A value that is thrown away before an abort. -/
theorem run_bind_abort (cs : Nat → C) (p : Prog Op Res α) :
    (run exec (p >>= fun _ => (.abort : Prog Op Res β)) cs s).1 = none := by
  induction p generalizing cs s with
  | ret a => rfl
  | step op k ih => exact ih _ _ _
  | abort => rfl

/-- Under an environment that always decides the same, `>>=` runs one program
after the other. -/
theorem run_bind_const (c : C) (p : Prog Op Res α) (f : α → Prog Op Res β) :
    run exec (p >>= f) (fun _ => c) s =
      match run exec p (fun _ => c) s with
      | (some a, s') => run exec (f a) (fun _ => c) s'
      | (none, s') => (none, s') := by
  induction p generalizing s with
  | ret a => rfl
  | step op k ih => exact ih _ _
  | abort => rfl

end

/-! ## Programs that follow an automaton -/

/-- Every operation of the program is a step of `next`, whatever the answers;
`Q` holds of the value and the state the automaton is left in. -/
def Follows (next : Φ → Op → Option Φ) (Q : α → Φ → Prop) : Φ → Prog Op Res α → Prop
  | φ, .ret a => Q a φ
  | φ, .step op k => ∃ φ', next φ op = some φ' ∧ ∀ r, Follows next Q φ' (k r)
  | _, .abort => True

section
variable {next : Φ → Op → Option Φ} {Q : α → Φ → Prop} {R : β → Φ → Prop} {φ : Φ}

@[simp] theorem follows_ret (a : α) : 
    Follows next Q φ (.ret a : Prog Op Res α) ↔ Q a φ := Iff.rfl

@[simp] theorem follows_step (op : Op) (k : Res op → Prog Op Res α) :
    Follows next Q φ (.step op k) ↔
      ∃ φ', next φ op = some φ' ∧ ∀ r, Follows next Q φ' (k r) := Iff.rfl

@[simp] theorem follows_abort : Follows next Q φ (.abort : Prog Op Res α) := trivial

theorem Follows.step {op : Op} {k : Res op → Prog Op Res α} {ψ : Φ} (hn : next φ op = some ψ)
    (hk : ∀ r, Follows next Q ψ (k r)) : Follows next Q φ (.step op k) :=
  ⟨ψ, hn, hk⟩

/-- The rule for one operation and what is done with its answer. -/
theorem Follows.perform {op : Op} {f : Res op → Prog Op Res α} {ψ : Φ} (hn : next φ op = some ψ)
    (hf : ∀ r, Follows next Q ψ (f r)) : Follows next Q φ (Prog.perform op >>= f) :=
  ⟨ψ, hn, hf⟩

/-- The rule for `>>=`: `p` leaves the automaton where the rest takes it up. -/
theorem Follows.bind {p : Prog Op Res α} {f : α → Prog Op Res β} (hp : Follows next Q φ p)
    (hf : ∀ a φ', Q a φ' → Follows next R φ' (f a)) : Follows next R φ (p >>= f) := by
  induction p generalizing φ with
  | ret a => exact hf a φ hp
  | step op k ih =>
    obtain ⟨φ', hn, hk⟩ := hp
    exact ⟨φ', hn, fun r => ih r (hk r)⟩
  | abort => trivial

theorem Follows.mono {Q' : α → Φ → Prop} {p : Prog Op Res α} (hp : Follows next Q φ p)
    (hQ : ∀ a φ', Q a φ' → Q' a φ') : Follows next Q' φ p := by
  induction p generalizing φ with
  | ret a => exact hQ a φ hp
  | step op k ih =>
    obtain ⟨φ', hn, hk⟩ := hp
    exact ⟨φ', hn, fun r => ih r (hk r)⟩
  | abort => trivial

/-- A path of one automaton is a path of any that simulates it. -/
theorem Follows.simulate {Ψ : Type} {next' : Ψ → Op → Option Ψ} {R : Φ → Ψ → Prop}
    (hsim : ∀ {φ ψ op φ'}, R φ ψ → next φ op = some φ' →
      ∃ ψ', next' ψ op = some ψ' ∧ R φ' ψ')
    {p : Prog Op Res α} (hp : Follows next Q φ p) {ψ : Ψ} (hR : R φ ψ) :
    Follows next' (fun a ψ' => ∃ φ', R φ' ψ' ∧ Q a φ') ψ p := by
  induction p generalizing φ ψ with
  | ret a => exact ⟨φ, hR, hp⟩
  | step op k ih =>
    obtain ⟨φ', hn, hk⟩ := hp
    obtain ⟨ψ', hn', hR'⟩ := hsim hR hn
    exact ⟨ψ', hn', fun r => ih r (hk r) hR'⟩
  | abort => trivial

/-- The rule for a call that performs operations the automaton ignores. -/
theorem Follows.seq {p : Prog Op Res α} {f : α → Prog Op Res β}
    (hp : Follows next (fun _ φ' => φ' = φ) φ p) (hf : ∀ a, Follows next R φ (f a)) :
    Follows next R φ (p >>= f) :=
  hp.bind fun a _ h => h ▸ hf a

/-- What one operation preserves along the automaton, a whole run preserves. -/
theorem Follows.run (exec : (op : Op) → C → σ → Res op × σ) (I : Φ → σ → Prop) (ok : C → Prop)
    (hstep : ∀ {φ op φ' c s}, next φ op = some φ' → I φ s → ok c → I φ' (exec op c s).2)
    {p : Prog Op Res α} (hp : Follows next Q φ p) {cs : Nat → C} {s : σ} (hI : I φ s)
    (hok : ∀ n, ok (cs n)) {a : α} (ha : (Prog.run exec p cs s).1 = some a) :
    ∃ φ', Q a φ' ∧ I φ' (Prog.run exec p cs s).2 := by
  induction p generalizing φ cs s with
  | ret b =>
    cases ha
    exact ⟨φ, hp, hI⟩
  | step op k ih =>
    obtain ⟨φ', hn, hk⟩ := hp
    exact ih _ (hk _) (hstep hn hI (hok 0)) (fun n => hok (n + 1)) ha
  | abort => cases ha

end

/-! ## One operation at a time -/

/-- The program after its next operation, and the state; `none` when the
program has ended. -/
def advance (exec : (op : Op) → C → σ → Res op × σ) (c : C) (s : σ) :
    Prog Op Res α → Option (Prog Op Res α × σ)
  | .step op k => some (k (exec op c s).1, (exec op c s).2)
  | .ret _ => none
  | .abort => none

/-- The operation a program performs next. -/
def head? : Prog Op Res α → Option Op
  | .step op _ => some op
  | .ret _ => none
  | .abort => none

theorem advance_eq_some {exec : (op : Op) → C → σ → Res op × σ} {c : C} {s s' : σ}
    {p p' : Prog Op Res α} (h : advance exec c s p = some (p', s')) :
    ∃ op k, p = .step op k ∧ p' = k (exec op c s).1 ∧ s' = (exec op c s).2 := by
  cases p with
  | step op k =>
    simp only [advance, Option.some.injEq, Prod.mk.injEq] at h
    exact ⟨op, k, rfl, h.1.symm, h.2.symm⟩
  | ret a => cases h
  | abort => cases h

/-- One operation moves the automaton and leaves the rest to follow. -/
theorem Follows.advance {next : Φ → Op → Option Φ} {Q : α → Φ → Prop} {φ : Φ}
    {exec : (op : Op) → C → σ → Res op × σ} {c : C} {s s' : σ} {p p' : Prog Op Res α}
    (hp : Follows next Q φ p) (h : Prog.advance exec c s p = some (p', s')) :
    ∃ op φ', p.head? = some op ∧ next φ op = some φ' ∧ Follows next Q φ' p' ∧
      s' = (exec op c s).2 := by
  obtain ⟨op, k, rfl, rfl, rfl⟩ := advance_eq_some h
  obtain ⟨φ', hn, hk⟩ := hp
  exact ⟨op, φ', rfl, hn, hk _, rfl⟩

/-! ## Partial runs -/

/-- `q` is what is left of the program after `ops`, each answered as `ok` allows. -/
def Path (ok : (op : Op) → Res op → Prop) : Prog Op Res α → List Op → Prog Op Res α → Prop
  | p, [], q => q = p
  | .step op k, op' :: ops, q => op' = op ∧ ∃ r, ok op r ∧ Path ok (k r) ops q
  | .ret _, _ :: _, _ => False
  | .abort, _ :: _, _ => False

theorem path_nil {ok : (op : Op) → Res op → Prop} {p q : Prog Op Res α} :
    Path ok p [] q ↔ q = p := by
  cases p <;> rfl

theorem Path.snoc {ok : (op : Op) → Res op → Prop} {p : Prog Op Res α} {ops : List Op} {op : Op}
    {k : Res op → Prog Op Res α} {r : Res op} (h : Path ok p ops (.step op k)) (hr : ok op r) :
    Path ok p (ops ++ [op]) (k r) := by
  induction ops generalizing p with
  | nil =>
    obtain rfl := path_nil.mp h
    exact ⟨rfl, r, hr, path_nil.mpr rfl⟩
  | cons op' ops ih =>
    cases p with
    | ret a => cases h
    | abort => cases h
    | step op₀ k₀ =>
      obtain ⟨rfl, r₀, hr₀, hpath⟩ := h
      exact ⟨rfl, r₀, hr₀, ih hpath⟩

end Prog
