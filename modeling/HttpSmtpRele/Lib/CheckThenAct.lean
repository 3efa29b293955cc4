import Mathlib.Data.List.Basic

/-!
# Check-then-act on a shared cell

Any number of calls share a cell that is read and written by single atomic
commands.  A call reads, decides from the answer what to write, and writes
later; a read may fail, a write may be lost, and the value may vanish at any
moment.  Between the two commands of a call others may write.

`Permits` is what the calls' checks are there for.  A write that its check does
not permit at the moment it lands has been overtaken: what the cell holds was
stored after the call's read, or the call never got an answer.
-/

/-- The calls of a protocol: `κ` with their arguments, `ν` the values of the cell. -/
structure CheckThenAct (κ ν : Type) where
  /-- What the call writes, given the answer to its read; the read failed if `none`. -/
  act : κ → Option (Option ν) → Option ν
  /-- The call may write the new value where the cell holds the old one. -/
  Permits : κ → Option ν → ν → Prop

namespace CheckThenAct

variable {κ ν : Type}

/-- A call between its read and its write. -/
structure Pending (κ ν : Type) where
  call : κ
  value : ν
  /-- Its read was answered. -/
  answered : Bool
  /-- How many writes had landed when it read. -/
  readAt : Nat

structure World (κ ν : Type) where
  cell : Option ν
  pending : List (Pending κ ν)
  /-- How many writes have landed. -/
  writes : Nat

def World.init (cell : Option ν) : World κ ν := ⟨cell, [], 0⟩

inductive Event (κ : Type)
  | read (call : κ) (answered : Bool)
  /-- The `i`-th pending call writes; whether the write lands. -/
  | write (i : Nat) (lands : Bool)
  | vanish

variable (P : CheckThenAct κ ν)

def step (w : World κ ν) : Event κ → World κ ν
  | .read call answered =>
    match P.act call (if answered then some w.cell else none) with
    | some value => { w with pending := w.pending ++ [⟨call, value, answered, w.writes⟩] }
    | none => w
  | .write i lands =>
    match w.pending[i]? with
    | some p =>
      if lands then ⟨some p.value, w.pending.eraseIdx i, w.writes + 1⟩
      else { w with pending := w.pending.eraseIdx i }
    | none => w
  | .vanish => { w with cell := none }

/-- What the cell holds is not what the call's read reported. -/
def Overtaken (w : World κ ν) (p : Pending κ ν) : Prop :=
  w.cell.isSome = true ∧ (p.answered = false ∨ p.readAt < w.writes)

/-- Of every landing write: that `φ` holds where it lands. -/
def OnWrite (φ : World κ ν → Pending κ ν → Prop) (w : World κ ν) : Event κ → Prop
  | .write i true => ∀ p, w.pending[i]? = some p → φ w p
  | _ => True

/-- Every step of the run. -/
def Throughout (φ : World κ ν → Event κ → Prop) : World κ ν → List (Event κ) → Prop
  | _, [] => True
  | w, e :: es => φ w e ∧ Throughout φ (P.step w e) es

structure Sound : Prop where
  /-- The check is right when the read is answered. -/
  checked : ∀ {call cell value}, P.act call (some cell) = some value → P.Permits call cell value
  /-- Every call may write into an empty cell. -/
  empty : ∀ {call value}, P.Permits call none value

/-- The invariant: a call's check still holds unless it was overtaken. -/
structure Checked (w : World κ ν) (p : Pending κ ν) : Prop where
  readAt : p.readAt ≤ w.writes
  permits : p.answered = true → p.readAt = w.writes → P.Permits p.call w.cell p.value

def Inv (w : World κ ν) : Prop := ∀ p ∈ w.pending, P.Checked w p

variable {P}

theorem throughout_congr {φ ψ : World κ ν → Event κ → Prop} (h : ∀ w e, φ w e ↔ ψ w e)
    (w : World κ ν) (es : List (Event κ)) : P.Throughout φ w es ↔ P.Throughout ψ w es := by
  induction es generalizing w with
  | nil => exact Iff.rfl
  | cons e es ih => exact and_congr (h w e) (ih _)

/-- Only a landing write brings a value. -/
theorem cell_step {w : World κ ν} {e : Event κ} {v : ν} (h : (P.step w e).cell = some v) :
    w.cell = some v ∨ ∃ i p, e = .write i true ∧ w.pending[i]? = some p ∧ p.value = v := by
  cases e with
  | read call answered =>
    apply Or.inl
    simp only [step] at h
    split at h <;> exact h
  | write i lands =>
    simp only [step] at h
    split at h
    · rename_i p hp
      cases lands with
      | true => exact Or.inr ⟨i, p, rfl, hp, Option.some.inj h⟩
      | false => exact Or.inl h
    · exact Or.inl h
  | vanish => cases h

theorem inv_init (cell : Option ν) : P.Inv (.init cell) := by
  intro p hp
  cases hp

theorem Sound.inv_step (h : P.Sound) {w : World κ ν} (hw : P.Inv w) (e : Event κ) :
    P.Inv (P.step w e) := by
  cases e with
  | read call answered =>
    simp only [step]
    split
    · rename_i value hact
      intro p hp
      rcases List.mem_append.mp hp with hp | hp
      · exact ⟨(hw p hp).readAt, (hw p hp).permits⟩
      · rw [List.mem_singleton.mp hp]
        refine ⟨Nat.le_refl _, fun hanswered _ => ?_⟩
        have hans : answered = true := hanswered
        rw [if_pos hans] at hact
        exact h.checked hact
    · exact hw
  | write i lands =>
    simp only [step]
    split
    · rename_i p' _
      split
      · intro p hp
        have hmem := hw p (List.mem_of_mem_eraseIdx hp)
        refine ⟨Nat.le_succ_of_le hmem.readAt, fun _ hat => ?_⟩
        -- a call that read before this write cannot have read after it
        have hle := hmem.readAt
        have hat' : p.readAt = w.writes + 1 := hat
        omega
      · intro p hp
        have hmem := hw p (List.mem_of_mem_eraseIdx hp)
        exact ⟨hmem.readAt, hmem.permits⟩
    · exact hw
  | vanish =>
    intro p hp
    exact ⟨(hw p hp).readAt, fun _ _ => h.empty⟩

/-- A write that is not permitted where it lands has been overtaken. -/
theorem Sound.overtaken (h : P.Sound) {w : World κ ν} (hw : P.Inv w) {p : Pending κ ν}
    (hp : p ∈ w.pending) (hnot : ¬P.Permits p.call w.cell p.value) : Overtaken w p := by
  have hchecked := hw p hp
  constructor
  · cases hcell : w.cell with
    | none =>
      rw [hcell] at hnot
      exact absurd h.empty hnot
    | some v => rfl
  · by_contra hcon
    rw [not_or, Bool.not_eq_false, Nat.not_lt] at hcon
    have hle := hchecked.readAt
    exact hnot (hchecked.permits hcon.1 (by omega))

/-- In every run: each landing write is permitted exactly if each that was overtaken is. -/
theorem Sound.permitted_iff (h : P.Sound) (es : List (Event κ)) {w : World κ ν} (hw : P.Inv w) :
    P.Throughout (OnWrite fun w p => P.Permits p.call w.cell p.value) w es ↔
      P.Throughout (OnWrite fun w p => Overtaken w p → P.Permits p.call w.cell p.value) w es := by
  induction es generalizing w with
  | nil => exact Iff.rfl
  | cons e es ih =>
    refine and_congr ?_ (ih (h.inv_step hw e))
    cases e with
    | write i lands =>
      cases lands with
      | true =>
        refine forall_congr' fun p => forall_congr' fun hp => ⟨fun hperm _ => hperm, ?_⟩
        intro hover
        by_contra hnot
        exact hnot (hover (h.overtaken hw (List.mem_of_getElem? hp) hnot))
      | false => exact Iff.rfl
    | read call answered => exact Iff.rfl
    | vanish => exact Iff.rfl

end CheckThenAct
