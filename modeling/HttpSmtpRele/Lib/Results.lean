import Mathlib.Data.List.Basic

/-!
# Early-return code in `Except`

`failIf` is `if cond { return Err(e) }`, `okOr` is `ok_or(e)?` (or `map_err` on a
parser) and `checkAll` is a loop whose body may return early.  The lemmas say
what a run that got past them shows, so that the successful path of a validator
is read off as a conjunction of facts.
-/

namespace Except

variable {ε α β : Type}

def failIf (cond : Bool) (e : ε) : Except ε Unit :=
  if cond then .error e else .ok ()

def okOr (o : Option α) (e : ε) : Except ε α :=
  match o with
  | some a => .ok a
  | none => .error e

def checkAll (check : α → Except ε Unit) : List α → Except ε Unit
  | [] => .ok ()
  | a :: l => do
    check a
    checkAll check l

@[simp] theorem failIf_true (e : ε) : failIf true e = .error e := rfl

@[simp] theorem failIf_false (e : ε) : failIf false e = .ok () := rfl

@[simp] theorem failIf_eq_ok {cond : Bool} {e : ε} : failIf cond e = .ok () ↔ cond = false := by
  cases cond <;> simp

theorem failIf_eq_error {cond : Bool} {e e' : ε} :
    failIf cond e = .error e' ↔ cond = true ∧ e = e' := by
  cases cond <;> simp

@[simp] theorem okOr_eq_ok {o : Option α} {e : ε} {a : α} : okOr o e = .ok a ↔ o = some a := by
  cases o <;> simp [okOr]

@[simp] theorem ok_bind (a : α) (f : α → Except ε β) : (Except.ok a >>= f) = f a := rfl

@[simp] theorem error_bind (e : ε) (f : α → Except ε β) :
    ((Except.error e : Except ε α) >>= f) = .error e := rfl

theorem bind_eq_ok_iff {x : Except ε α} {f : α → Except ε β} {b : β} :
    x >>= f = .ok b ↔ ∃ a, x = .ok a ∧ f a = .ok b := by
  cases x <;> simp

theorem bind_eq_error_iff {x : Except ε α} {f : α → Except ε β} {e : ε} :
    x >>= f = .error e ↔ x = .error e ∨ ∃ a, x = .ok a ∧ f a = .error e := by
  cases x <;> simp

/-- The converse, step by step: what is to succeed after `x` may use its value. -/
theorem exists_ok_bind {x : Except ε α} {f : α → Except ε β} (hx : ∃ a, x = .ok a)
    (hf : ∀ a, x = .ok a → ∃ b, f a = .ok b) : ∃ b, x >>= f = .ok b := by
  obtain ⟨a, rfl⟩ := hx
  exact hf a rfl

/-- With `bind_eq_ok_iff`, for steps that return nothing. -/
theorem exists_unit {p : Unit → Prop} : (∃ a, p a) ↔ p () :=
  ⟨fun ⟨(), h⟩ => h, fun h => ⟨(), h⟩⟩

/-- The statement form of `bind_eq_ok_iff`: a guard in front of `y`. -/
theorem guard_bind_eq_ok {x : Except ε Unit} {y : Except ε β} {b : β} :
    (x >>= fun _ => y) = .ok b ↔ x = .ok () ∧ y = .ok b := by
  rw [bind_eq_ok_iff, exists_unit]

theorem checkAll_eq_ok {check : α → Except ε Unit} {l : List α} :
    checkAll check l = .ok () ↔ ∀ a ∈ l, check a = .ok () := by
  induction l with
  | nil => simp [checkAll]
  | cons a l ih =>
    rw [checkAll, guard_bind_eq_ok, ih]
    simp

/-- What a loop made of its input, element by element. -/
theorem exists_of_forall₂ {R : α → β → Prop} {as : List α} {bs : List β}
    (h : List.Forall₂ R as bs) {a : α} (ha : a ∈ as) : ∃ b ∈ bs, R a b := by
  induction h with
  | nil => cases ha
  | cons hab _ ih =>
    rcases List.mem_cons.mp ha with rfl | ha
    · exact ⟨_, List.mem_cons_self, hab⟩
    · obtain ⟨b, hb, hr⟩ := ih ha
      exact ⟨b, List.mem_cons_of_mem _ hb, hr⟩

/-! ## Which errors a computation can end in -/

def FailsWith (P : ε → Prop) (x : Except ε α) : Prop := ∀ e, x = .error e → P e

section
variable {P : ε → Prop}

theorem failsWith_ok (a : α) : FailsWith P (.ok a : Except ε α) := fun _ h => nomatch h

theorem failsWith_error {e : ε} : FailsWith P (.error e : Except ε α) ↔ P e :=
  ⟨fun h => h e rfl, fun h _ he => Except.error.inj he ▸ h⟩

theorem failsWith_failIf {cond : Bool} {e : ε} (h : P e) : FailsWith P (failIf cond e) := by
  cases cond
  · exact failsWith_ok ()
  · exact failsWith_error.mpr h

theorem failsWith_okOr {o : Option α} {e : ε} (h : P e) : FailsWith P (okOr o e) := by
  cases o
  · exact failsWith_error.mpr h
  · exact failsWith_ok _

theorem FailsWith.bind {x : Except ε α} {f : α → Except ε β} (hx : FailsWith P x)
    (hf : ∀ a, FailsWith P (f a)) : FailsWith P (x >>= f) := by
  intro e h
  rcases bind_eq_error_iff.mp h with h | ⟨a, -, h⟩
  · exact hx e h
  · exact hf a e h

theorem FailsWith.checkAll {check : α → Except ε Unit} (h : ∀ a, FailsWith P (check a))
    (l : List α) : FailsWith P (checkAll check l) := by
  induction l with
  | nil => exact failsWith_ok ()
  | cons a l ih => exact (h a).bind fun _ => ih

end

end Except
