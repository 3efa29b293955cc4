import Mathlib.Data.List.Forall2
import Mathlib.Data.List.Sort
import HttpSmtpRele.Lib.Prog

/-!
# Tasks under a semaphore

A handler spawns a task for each of its programs.  A task takes a permit,
performs its program, gives the permit back and is joined; the handler collects
the values in the order in which it joins.  A semaphore holds no more than a
fixed number of permits, and with more of them nothing is spawned.  `step` lets
the environment pick the task and answer the operations, so a run of steps is
any schedule: permits may be taken and tasks joined in any order.

`Inv` holds in all of them: the permits add up, each task stands on a path of
its program, and what is collected are the values of the joined tasks.  Every
step adds one to `moves`, and as long as a task is not joined there is a step.
-/

variable {κ Op α C σ : Type} {Res : Op → Type}

/-- Where a task stands. -/
inductive Work (Op : Type) (Res : Op → Type) (α : Type)
  /-- it waits for a permit -/
  | queued (p : Prog Op Res α)
  | running (p : Prog Op Res α)
  /-- it has returned, and given its permit back -/
  | finished (a : α)
  | joined (a : α)

structure Spawned (κ Op : Type) (Res : Op → Type) (α : Type) where
  key : κ
  work : Work Op Res α
  /-- what it has performed so far -/
  ops : List Op

namespace Spawned

def isRunning (t : Spawned κ Op Res α) : Bool :=
  match t.work with
  | .running _ => true
  | _ => false

def joined? (t : Spawned κ Op Res α) : Option α :=
  match t.work with
  | .joined a => some a
  | _ => none

/-- How many steps the task has taken. -/
def moves (t : Spawned κ Op Res α) : Nat :=
  match t.work with
  | .queued _ => t.ops.length
  | .running _ => t.ops.length + 1
  | .finished _ => t.ops.length + 2
  | .joined _ => t.ops.length + 3

/-- The task spawned with `start` has come here by a path of its program. -/
def Since (ok : κ → (op : Op) → Res op → Prop) (start : κ × Prog Op Res α)
    (t : Spawned κ Op Res α) : Prop :=
  t.key = start.1 ∧
    match t.work with
    | .queued p => p = start.2 ∧ t.ops = []
    | .running p => Prog.Path (ok start.1) start.2 t.ops p
    | .finished a => Prog.Path (ok start.1) start.2 t.ops (.ret a)
    | .joined a => Prog.Path (ok start.1) start.2 t.ops (.ret a)

theorem Since.path {ok : κ → (op : Op) → Res op → Prop} {start : κ × Prog Op Res α}
    {t : Spawned κ Op Res α} (h : Since ok start t) :
    ∃ q, Prog.Path (ok start.1) start.2 t.ops q ∧ (t.joined?.isSome = true → ∃ a, q = .ret a) := by
  obtain ⟨key, work, ops⟩ := t
  obtain ⟨-, h⟩ := h
  cases work with
  | queued p =>
    obtain ⟨-, rfl⟩ := h
    exact ⟨start.2, Prog.path_nil.mpr rfl, fun h => by cases h⟩
  | running p => exact ⟨p, h, fun h => by cases h⟩
  | finished a => exact ⟨.ret a, h, fun h => by cases h⟩
  | joined a => exact ⟨.ret a, h, fun _ => ⟨a, rfl⟩⟩

end Spawned

structure TaskPool (κ Op : Type) (Res : Op → Type) (α : Type) where
  /-- the permits that are free -/
  permits : Nat
  tasks : List (Spawned κ Op Res α)
  /-- in the order in which they were joined -/
  collected : List α

/-- What a task is let do. -/
inductive TaskTurn (C : Type)
  | acquire
  | perform (c : C)
  | release
  | join

namespace TaskPool

/-- `limit` is the number of permits that a semaphore can hold. -/
def spawn (limit permits : Nat) (starts : List (κ × Prog Op Res α)) :
    Option (TaskPool κ Op Res α) :=
  if permits ≤ limit then
    some
      { permits := permits
        tasks := starts.map fun start => { key := start.1, work := .queued start.2, ops := [] }
        collected := [] }
  else none

def step (exec : κ → (op : Op) → C → σ → Res op × σ) (s : TaskPool κ Op Res α) (w : σ) (i : Nat) :
    TaskTurn C → Option (TaskPool κ Op Res α × σ)
  | .acquire =>
    match s.tasks[i]? with
    | some ⟨key, .queued p, ops⟩ =>
      if 0 < s.permits then
        some ({ s with permits := s.permits - 1, tasks := s.tasks.set i ⟨key, .running p, ops⟩ }, w)
      else none
    | _ => none
  | .perform c =>
    match s.tasks[i]? with
    | some ⟨key, .running (.step op k), ops⟩ =>
      let (r, w') := exec key op c w
      some ({ s with tasks := s.tasks.set i ⟨key, .running (k r), ops ++ [op]⟩ }, w')
    | _ => none
  | .release =>
    match s.tasks[i]? with
    | some ⟨key, .running (.ret a), ops⟩ =>
      some ({ s with permits := s.permits + 1, tasks := s.tasks.set i ⟨key, .finished a, ops⟩ }, w)
    | _ => none
  | .join =>
    match s.tasks[i]? with
    | some ⟨key, .finished a, ops⟩ =>
      some ({ s with
        tasks := s.tasks.set i ⟨key, .joined a, ops⟩
        collected := s.collected ++ [a] }, w)
    | _ => none

/-- How many tasks hold a permit. -/
def running (s : TaskPool κ Op Res α) : Nat := s.tasks.countP Spawned.isRunning

/-- `join_next` has nothing left to wait for. -/
def allJoined (s : TaskPool κ Op Res α) : Bool := s.tasks.all fun t => t.joined?.isSome

/-- How many steps the tasks of a list have taken. -/
def movesOf : List (Spawned κ Op Res α) → Nat
  | [] => 0
  | t :: ts => t.moves + movesOf ts

def moves (s : TaskPool κ Op Res α) : Nat := movesOf s.tasks

/-! ## What a step does -/

/-- One task takes its next step; the others stay as they are. -/
inductive Steps (exec : κ → (op : Op) → C → σ → Res op × σ) :
    TaskPool κ Op Res α × σ → TaskPool κ Op Res α × σ → Prop
  | acquire {k l₁ l₂ key p ops collected w} :
    Steps exec (⟨k + 1, l₁ ++ ⟨key, .queued p, ops⟩ :: l₂, collected⟩, w)
      (⟨k, l₁ ++ ⟨key, .running p, ops⟩ :: l₂, collected⟩, w)
  | perform {k l₁ l₂ key op f ops collected w} (c : C) :
    Steps exec (⟨k, l₁ ++ ⟨key, .running (.step op f), ops⟩ :: l₂, collected⟩, w)
      (⟨k, l₁ ++ ⟨key, .running (f (exec key op c w).1), ops ++ [op]⟩ :: l₂, collected⟩,
        (exec key op c w).2)
  | release {k l₁ l₂ key a ops collected w} :
    Steps exec (⟨k, l₁ ++ ⟨key, .running (.ret a), ops⟩ :: l₂, collected⟩, w)
      (⟨k + 1, l₁ ++ ⟨key, .finished a, ops⟩ :: l₂, collected⟩, w)
  | join {k l₁ l₂ key a ops collected w} :
    Steps exec (⟨k, l₁ ++ ⟨key, .finished a, ops⟩ :: l₂, collected⟩, w)
      (⟨k, l₁ ++ ⟨key, .joined a, ops⟩ :: l₂, collected ++ [a]⟩, w)

/-- A list around one of its elements, and the same list with that element replaced. -/
theorem exists_split {β : Type} {l : List β} {i : Nat} {x : β} (h : l[i]? = some x) :
    ∃ l₁ l₂, l = l₁ ++ x :: l₂ ∧ ∀ y, l.set i y = l₁ ++ y :: l₂ := by
  obtain ⟨hlt, hx⟩ := List.getElem?_eq_some_iff.mp h
  refine ⟨l.take i, l.drop (i + 1), ?_, fun y => ?_⟩
  · rw [← hx, List.getElem_cons_drop, List.take_append_drop]
  · rw [List.set_eq_take_append_cons_drop, if_pos hlt]

variable {exec : κ → (op : Op) → C → σ → Res op × σ} {s s' : TaskPool κ Op Res α} {w w' : σ}

theorem steps_of_step {i : Nat} {t : TaskTurn C} (h : s.step exec w i t = some (s', w')) :
    Steps exec (s, w) (s', w') := by
  obtain ⟨permits, tasks, collected⟩ := s
  cases t with
  | acquire =>
    unfold step at h
    dsimp only at h
    split at h
    · rename_i key p ops htask
      obtain ⟨l₁, l₂, rfl, hset⟩ := exists_split htask
      split at h
      · cases h
        cases permits with
        | zero => omega
        | succ k =>
          rw [hset]
          exact .acquire
      · cases h
    · cases h
  | perform c =>
    unfold step at h
    dsimp only at h
    split at h
    · rename_i key op k ops htask
      obtain ⟨l₁, l₂, rfl, hset⟩ := exists_split htask
      cases h
      rw [hset]
      exact .perform c
    · cases h
  | release =>
    unfold step at h
    dsimp only at h
    split at h
    · rename_i key a ops htask
      obtain ⟨l₁, l₂, rfl, hset⟩ := exists_split htask
      cases h
      rw [hset]
      exact .release
    · cases h
  | join =>
    unfold step at h
    dsimp only at h
    split at h
    · rename_i key a ops htask
      obtain ⟨l₁, l₂, rfl, hset⟩ := exists_split htask
      cases h
      rw [hset]
      exact .join
    · cases h

/-! ## What every step keeps -/

theorem movesOf_append (l₁ l₂ : List (Spawned κ Op Res α)) :
    movesOf (l₁ ++ l₂) = movesOf l₁ + movesOf l₂ := by
  induction l₁ with
  | nil => simp [movesOf]
  | cons t ts ih =>
    rw [List.cons_append, movesOf, movesOf, ih]
    omega

theorem moves_step (h : Steps exec (s, w) (s', w')) : s'.moves = s.moves + 1 := by
  unfold moves
  cases h with
  | acquire =>
    simp only [movesOf_append, movesOf, Spawned.moves]
    omega
  | perform c =>
    simp only [movesOf_append, movesOf, Spawned.moves, List.length_append, List.length_singleton]
    omega
  | release =>
    simp only [movesOf_append, movesOf, Spawned.moves]
    omega
  | join =>
    simp only [movesOf_append, movesOf, Spawned.moves]
    omega

section
variable {limit permits : Nat} {starts : List (κ × Prog Op Res α)}

theorem spawn_eq_some (h : spawn limit permits starts = some s) :
    permits ≤ limit ∧ s = ⟨permits, starts.map fun start => ⟨start.1, .queued start.2, []⟩, []⟩ := by
  unfold spawn at h
  split at h
  · rename_i hle
    exact ⟨hle, (Option.some.inj h).symm⟩
  · cases h

theorem spawn_eq_none : spawn limit permits starts = none ↔ limit < permits := by
  unfold spawn
  split
  · rename_i hle
    simp [hle]
  · rename_i hgt
    simpa using hgt

theorem moves_spawn (h : spawn limit permits starts = some s) : s.moves = 0 := by
  obtain ⟨-, rfl⟩ := spawn_eq_some h
  unfold moves
  clear h
  induction starts with
  | nil => rfl
  | cons start starts ih =>
    rw [List.map_cons, movesOf, ih]
    rfl

end

theorem forall₂_replace {β γ : Type} {R : β → γ → Prop} {x x' : γ} (hx : ∀ b, R b x → R b x') :
    ∀ {bs : List β} {l₁ l₂ : List γ}, List.Forall₂ R bs (l₁ ++ x :: l₂) →
      List.Forall₂ R bs (l₁ ++ x' :: l₂)
  | _, [], _, .cons hb hbs => .cons (hx _ hb) hbs
  | _, _ :: _, _, .cons hb hbs => .cons hb (forall₂_replace hx hbs)

/-- What holds of a pool spawned with `starts` under `permits`, in any schedule. -/
structure Inv (ok : κ → (op : Op) → Res op → Prop) (permits : Nat)
    (starts : List (κ × Prog Op Res α)) (s : TaskPool κ Op Res α) : Prop where
  since : List.Forall₂ (Spawned.Since ok) starts s.tasks
  permits : s.permits + s.running = permits
  collected : s.collected.Perm (s.tasks.filterMap Spawned.joined?)

theorem inv_spawn (ok : κ → (op : Op) → Res op → Prop) {limit permits : Nat}
    {starts : List (κ × Prog Op Res α)} (h : spawn limit permits starts = some s) :
    Inv ok permits starts s := by
  obtain ⟨-, rfl⟩ := spawn_eq_some h
  refine ⟨?_, ?_, ?_⟩
  · rw [List.forall₂_map_right_iff]
    exact List.forall₂_same.mpr fun start _ => ⟨rfl, rfl, rfl⟩
  · simp [running, Spawned.isRunning, List.countP_map]
  · simp [Spawned.joined?, List.filterMap_map]

theorem inv_step {ok : κ → (op : Op) → Res op → Prop}
    (hok : ∀ key op c w, ok key op (exec key op c w).1) {permits : Nat}
    {starts : List (κ × Prog Op Res α)} (hinv : Inv ok permits starts s)
    (h : Steps exec (s, w) (s', w')) : Inv ok permits starts s' := by
  obtain ⟨hsince, hpermits, hcollected⟩ := hinv
  unfold running at hpermits
  cases h with
  | acquire =>
    refine ⟨forall₂_replace (fun start hs => ?_) hsince, ?_, ?_⟩
    · obtain ⟨hkey, rfl, rfl⟩ := hs
      exact ⟨hkey, Prog.path_nil.mpr rfl⟩
    · simp [running, List.countP_cons, Spawned.isRunning] at hpermits ⊢
      omega
    · simpa [List.filterMap_cons, Spawned.joined?] using hcollected
  | perform c =>
    refine ⟨forall₂_replace (fun start hs => ?_) hsince, ?_, ?_⟩
    · obtain ⟨rfl, hpath⟩ := hs
      exact ⟨rfl, hpath.snoc (hok _ _ _ _)⟩
    · simpa [running, List.countP_cons, Spawned.isRunning] using hpermits
    · simpa [List.filterMap_cons, Spawned.joined?] using hcollected
  | release =>
    refine ⟨forall₂_replace (fun start hs => ?_) hsince, ?_, ?_⟩
    · exact hs
    · simp [running, List.countP_cons, Spawned.isRunning] at hpermits ⊢
      omega
    · simpa [List.filterMap_cons, Spawned.joined?] using hcollected
  | @join _ l₁ l₂ key a ops collected =>
    refine ⟨forall₂_replace (fun start hs => ?_) hsince, ?_, ?_⟩
    · exact hs
    · simpa [running, List.countP_cons, Spawned.isRunning] using hpermits
    · simp only [List.filterMap_append, List.filterMap_cons, Spawned.joined?] at hcollected ⊢
      exact (List.perm_append_singleton a collected).trans
        ((hcollected.cons a).trans List.perm_middle.symm)

/-! ## What follows in every state -/

section
variable {ok : κ → (op : Op) → Res op → Prop} {permits : Nat} {starts : List (κ × Prog Op Res α)}

theorem Inv.running_le (h : Inv ok permits starts s) : s.running ≤ permits := by
  have := h.permits
  omega

theorem exists_since {tasks : List (Spawned κ Op Res α)}
    (h : List.Forall₂ (Spawned.Since ok) starts tasks) {t : Spawned κ Op Res α} (ht : t ∈ tasks) :
    ∃ start ∈ starts, Spawned.Since ok start t := by
  induction h with
  | nil => cases ht
  | cons hb hbs ih =>
    rcases List.mem_cons.mp ht with rfl | ht
    · exact ⟨_, List.mem_cons_self, hb⟩
    · obtain ⟨start, hstart, hs⟩ := ih ht
      exact ⟨start, List.mem_cons_of_mem _ hstart, hs⟩

/-- A bound on the programs is one on all schedules. -/
theorem Inv.moves_le (h : Inv ok permits starts s) {d : Nat}
    (hd : ∀ start ∈ starts, ∀ ops q, Prog.Path (ok start.1) start.2 ops q → ops.length ≤ d) :
    s.moves ≤ starts.length * (d + 3) := by
  obtain ⟨hsince, -, -⟩ := h
  unfold moves
  generalize s.tasks = tasks at hsince ⊢
  induction hsince with
  | nil => simp [movesOf]
  | @cons start t starts tasks hs _ ih =>
    have hrest := ih fun start h => hd start (List.mem_cons_of_mem _ h)
    have hops := hd start List.mem_cons_self
    have hmoves : t.moves ≤ d + 3 := by
      obtain ⟨key, work, ops⟩ := t
      obtain ⟨-, hs⟩ := hs
      cases work with
      | queued p =>
        obtain ⟨-, rfl⟩ := hs
        simp [Spawned.moves]
      | running p =>
        have := hops ops p hs
        simp only [Spawned.moves]
        omega
      | finished a =>
        have := hops ops _ hs
        simp only [Spawned.moves]
        omega
      | joined a =>
        have := hops ops _ hs
        simp only [Spawned.moves]
        omega
    rw [movesOf, List.length_cons, Nat.succ_mul]
    omega

/-- The value of a program, if it is the same in every schedule. -/
def HasValue (ok : κ → (op : Op) → Res op → Prop) (start : κ × Prog Op Res α) (value : α) : Prop :=
  ∀ ops a, Prog.Path (ok start.1) start.2 ops (.ret a) → a = value

/-- What is collected are the values of the programs, in some order. -/
theorem Inv.collected_perm (h : Inv ok permits starts s) (hall : s.allJoined = true)
    {values : List α} (hvalues : List.Forall₂ (HasValue ok) starts values) :
    s.collected.Perm values := by
  obtain ⟨hsince, -, hcollected⟩ := h
  unfold allJoined at hall
  suffices hmap : s.tasks.filterMap Spawned.joined? = values from hmap ▸ hcollected
  clear hcollected
  generalize s.tasks = tasks at hsince hall ⊢
  induction hsince generalizing values with
  | nil =>
    cases hvalues
    rfl
  | @cons start t starts tasks hs _ ih =>
    cases hvalues with
    | @cons _ value _ values hvalue hvalues =>
      rw [List.all_cons, Bool.and_eq_true] at hall
      have hrest := ih hvalues hall.2
      obtain ⟨key, work, ops⟩ := t
      cases work with
      | queued p => cases hall.1
      | running p => cases hall.1
      | finished a => cases hall.1
      | joined a =>
        obtain rfl := hvalue ops a hs.2
        have hcons : (⟨key, .joined a, ops⟩ :: tasks : List (Spawned κ Op Res α)).filterMap
            Spawned.joined? = a :: tasks.filterMap Spawned.joined? := rfl
        rw [hcons, hrest]

/-! Under distinct keys a key tells its task. -/

theorem tasks_of_key_none [DecidableEq κ] {tasks : List (Spawned κ Op Res α)}
    (h : List.Forall₂ (Spawned.Since ok) starts tasks) {key : κ}
    (hkey : key ∉ starts.map Prod.fst) : (tasks.filter fun t => t.key = key) = [] := by
  rw [List.filter_eq_nil_iff]
  intro t ht heq
  obtain ⟨start, hstart, hs, -⟩ := exists_since h ht
  refine hkey (List.mem_map.mpr ⟨start, hstart, ?_⟩)
  rw [← hs]
  exact of_decide_eq_true heq

theorem tasks_of_key [DecidableEq κ] {tasks : List (Spawned κ Op Res α)}
    (h : List.Forall₂ (Spawned.Since ok) starts tasks) (hnodup : (starts.map Prod.fst).Nodup)
    {start : κ × Prog Op Res α} (hstart : start ∈ starts) :
    ∃ t ∈ tasks, Spawned.Since ok start t ∧ (tasks.filter fun t => t.key = start.1) = [t] := by
  induction h with
  | nil => cases hstart
  | @cons first t starts tasks hs hrest ih =>
    rw [List.map_cons, List.nodup_cons] at hnodup
    rcases List.mem_cons.mp hstart with rfl | hstart
    · refine ⟨t, List.mem_cons_self, hs, ?_⟩
      rw [List.filter_cons_of_pos (by simp [hs.1]), tasks_of_key_none hrest hnodup.1]
    · obtain ⟨t', ht', hs', hfilter⟩ := ih hnodup.2 hstart
      have hne : ¬t.key = start.1 := by
        rw [hs.1]
        intro heq
        exact hnodup.1 (heq ▸ List.mem_map_of_mem hstart)
      refine ⟨t', List.mem_cons_of_mem _ ht', hs', ?_⟩
      rw [List.filter_cons_of_neg (by simp [hne]), hfilter]

/-- A task that holds a permit can go on. -/
theorem step_running {t : Spawned κ Op Res α} (ht : t ∈ s.tasks) (hrun : t.isRunning = true)
    (habort : t.work ≠ .running .abort) (c : C) :
    ∃ i turn, (s.step exec w i turn).isSome = true := by
  obtain ⟨i, hi⟩ := List.mem_iff_getElem?.mp ht
  obtain ⟨key, work, ops⟩ := t
  cases work with
  | queued p => cases hrun
  | finished a => cases hrun
  | joined a => cases hrun
  | running p =>
    cases p with
    | step op k => exact ⟨i, .perform c, by simp [step, hi]⟩
    | ret a => exact ⟨i, .release, by simp [step, hi]⟩
    | abort => exact absurd rfl habort

/-- As long as a task is not joined, some task can go on. -/
theorem Inv.progress (exec : κ → (op : Op) → C → σ → Res op × σ) (w : σ)
    (h : Inv ok permits starts s) (hpermits : 0 < permits)
    (habort : ∀ start ∈ starts, ∀ ops, ¬Prog.Path (ok start.1) start.2 ops .abort)
    (hall : s.allJoined = false) (c : C) :
    ∃ i turn, (s.step exec w i turn).isSome = true := by
  have hrunning : ∀ t ∈ s.tasks, t.isRunning = true →
      ∃ i turn, (s.step exec w i turn).isSome = true := by
    intro t ht hrun
    refine step_running ht hrun (fun hwork => ?_) c
    obtain ⟨start, hstart, -, hs⟩ := exists_since h.since ht
    rw [hwork] at hs
    exact habort start hstart t.ops hs
  obtain ⟨t, ht, hjoined⟩ := List.all_eq_false.mp hall
  obtain ⟨i, hi⟩ := List.mem_iff_getElem?.mp ht
  cases hwork : t.work with
  | queued p =>
    by_cases hfree : 0 < s.permits
    · obtain ⟨key, work, ops⟩ := t
      obtain rfl := hwork
      exact ⟨i, .acquire, by simp [step, hi, hfree]⟩
    · -- all permits are held
      have hheld := h.permits
      have hpos : 0 < s.tasks.countP Spawned.isRunning := by
        unfold running at hheld
        omega
      obtain ⟨t', ht', hrun⟩ := List.countP_pos_iff.mp hpos
      exact hrunning t' ht' hrun
  | running p =>
    apply hrunning t ht
    simp [Spawned.isRunning, hwork]
  | finished a =>
    obtain ⟨key, work, ops⟩ := t
    obtain rfl := hwork
    exact ⟨i, .join, by simp [step, hi]⟩
  | joined a => simp [Spawned.joined?, hwork] at hjoined

end

/-! ## Sorting what was collected -/

/-- Under distinct keys a sorted list is given by its elements. -/
theorem eq_of_sorted {β : Type} (key : β → Nat) {l₁ l₂ : List β} (hperm : l₁.Perm l₂)
    (hnodup : (l₁.map key).Nodup) (h₁ : l₁.Pairwise fun a b => key a ≤ key b)
    (h₂ : l₂.Pairwise fun a b => key a ≤ key b) : l₁ = l₂ := by
  refine hperm.eq_of_pairwise (fun a b ha hb hab hba => ?_) h₁ h₂
  exact List.inj_on_of_nodup_map hnodup ha (hperm.mem_iff.mpr hb) (le_antisymm hab hba)

theorem insertionSort_key_sorted {β : Type} (key : β → Nat) (l : List β) :
    (l.insertionSort fun a b => key a ≤ key b).Pairwise fun a b => key a ≤ key b := by
  have : Std.Total fun a b : β => key a ≤ key b := ⟨fun a b => le_total _ _⟩
  have : IsTrans β fun a b : β => key a ≤ key b := ⟨fun a b c => le_trans⟩
  exact List.pairwise_insertionSort _ l

/-- The order in which values under distinct keys are collected is lost by sorting. -/
theorem insertionSort_eq_of_perm {β : Type} (key : β → Nat) {l₁ l₂ : List β}
    (hperm : l₁.Perm l₂) (hnodup : (l₁.map key).Nodup) :
    l₁.insertionSort (fun a b => key a ≤ key b) = l₂.insertionSort fun a b => key a ≤ key b := by
  have hsorted := (List.perm_insertionSort (fun a b => key a ≤ key b) l₁)
  refine eq_of_sorted key (hsorted.trans (hperm.trans (List.perm_insertionSort _ l₂).symm)) ?_
    (insertionSort_key_sorted key l₁) (insertionSort_key_sorted key l₂)
  exact (hsorted.map key).nodup_iff.mpr hnodup

end TaskPool
