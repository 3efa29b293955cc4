import HttpSmtpRele.KeyLimits
import HttpSmtpRele.Lib.Session

/-!
# The sessions of a server's threads

`Thread.turn_cases` is all that a turn can do to a thread.  `Sessions` gives every
thread a stage: where it starts, how its operations and their answers move it.
`SessionStep` is what one event does to the list of
stages beside the list of threads, and `Lawful.run` carries an invariant of the
server, the stages and a log of observations over a whole run.
-/

namespace HttpSmtpRele

open Prog Api

variable {ρ : Type}

/-! ## What a turn does to a thread -/

namespace Thread

/-- A turn in which the thread performs no operation. -/
inductive Passes (D : Deps) : Thread → Thread → Prop
  | bodyRejected (rid : RequestId) (auth : AuthContext) (headers : HeaderMap)
      (rejection : BodyRejection) :
      Passes D (.receiving rid auth headers) (.cutOff rid auth (.bodyRejected rejection))
  | received (rid : RequestId) (auth : AuthContext) (headers : HeaderMap) (body : List UInt8) :
      Passes D (.receiving rid auth headers) (.handling rid auth (sendMail D rid auth headers body))
  | prepares (b : Bulk) (item : BulkItem) :
      Passes D (.message b (.waiting item)) (.message b
        (.preparing item (phase1Prepare D item.index item.rawMsg item.reqId b.auth b.cfg)))
  | rejected (b : Bulk) (item : BulkItem) (result : MessageResult) :
      Passes D (.message b (.preparing item (.ret (.error result))))
        (.message b (.rejected item result))
  | prepared (b : Bulk) (item : BulkItem) (q : PreparedMessage) :
      Passes D (.message b (.preparing item (.ret (.ok q)))) (.message b (.prepared q))
  | submits (b : Bulk) (q : PreparedMessage) :
      Passes D (.message b (.prepared q)) (.message b (.submitting q (phase2Submit b.cfg q)))
  | submitted (b : Bulk) (q : PreparedMessage) (result : MessageResult) :
      Passes D (.message b (.submitting q (.ret result))) (.message b (.submitted q result))

/-- The thread's next operation, and what becomes of the thread with each answer to it. -/
inductive Performs : Thread → (op : Op) → (op.Res → Thread) → Prop
  | handling (rid : RequestId) (auth : AuthContext) (op : Op) (k : op.Res → RelayM SendResult) :
      Performs (.handling rid auth (.step op k)) op fun r => .handling rid auth (k r)
  | preparing (b : Bulk) (item : BulkItem) (op : Op)
      (k : op.Res → RelayM (Except MessageResult PreparedMessage)) :
      Performs (.message b (.preparing item (.step op k))) op
        fun r => .message b (.preparing item (k r))
  | submitting (b : Bulk) (q : PreparedMessage) (op : Op) (k : op.Res → RelayM MessageResult) :
      Performs (.message b (.submitting q (.step op k))) op
        fun r => .message b (.submitting q (k r))
  | lookup (op : Op) (k : op.Res → RelayM (Option SubmissionStatusRecord)) :
      Performs (.lookup (.step op k)) op fun r => .lookup (k r)
  | sweep (op : Op) (k : op.Res → RelayM Unit) :
      Performs (.sweep (.step op k)) op fun r => .sweep (k r)

variable {D : Deps} {L : Limiter ρ}

theorem Passes.nextOp {t t' : Thread} (h : t.Passes D t') : t.nextOp = none := by
  cases h <;> rfl

theorem Performs.nextOp {t : Thread} {op : Op} {f : op.Res → Thread} (h : t.Performs op f) :
    t.nextOp = some op := by
  cases h <;> rfl

theorem Performs.turn {t : Thread} {op : Op} {f : op.Res → Thread} (h : t.Performs op f)
    (mayMove : Bool) (c : Choice) (w : World ρ) :
    t.turn D L mayMove c w = some (f (exec L op c w).1, (exec L op c w).2) := by
  cases h <;> rfl

/-- A thread is timed out for good. -/
theorem timeout_eq {t t' : Thread} (h : t.timeout = some t') :
    ∃ rid auth, t' = .cutOff rid auth .requestTimeout := by
  cases t with
  | receiving rid auth headers => exact ⟨rid, auth, (Option.some.inj h).symm⟩
  | handling rid auth p =>
    cases p with
    | step op k =>
      simp only [Thread.timeout] at h
      split at h
      · exact ⟨rid, auth, (Option.some.inj h).symm⟩
      · cases h
    | ret a => cases h
    | abort => cases h
  | _ => cases h

/-- A program that has not ended performs its next operation. -/
theorem advance_cases {α : Type} {p : RelayM α} {g : RelayM α → Thread} {t' : Thread} {c : Choice}
    {w w' : World ρ} (hg : ∀ op k, (g (.step op k)).Performs op fun r => g (k r))
    (h : ((advance (exec L) c w p).map fun x => (g x.1, x.2)) = some (t', w')) :
    ∃ op f, (g p).Performs op f ∧ t' = f (exec L op c w).1 ∧ w' = (exec L op c w).2 := by
  obtain ⟨⟨p', w''⟩, hadv, hx⟩ := Option.map_eq_some_iff.mp h
  cases hx
  obtain ⟨op, k, rfl, rfl, rfl⟩ := advance_eq_some hadv
  exact ⟨op, _, hg op k, rfl, rfl⟩

theorem turn_message_cases {b : Bulk} {m m' : MessageState} {mayMove : Bool} {c : Choice}
    {w w' : World ρ} (h : m.turn D L b mayMove c w = some (m', w')) :
    ((message b m).Passes D (message b m') ∧ w' = w) ∨
      ∃ op f, (message b m).Performs op f ∧ message b m' = f (exec L op c w).1 ∧
        w' = (exec L op c w).2 := by
  cases m with
  | waiting item =>
    simp only [MessageState.turn] at h
    split at h
    · cases h
      exact Or.inl ⟨.prepares b item, rfl⟩
    · cases h
  | preparing item p =>
    cases p with
    | ret out =>
      cases out with
      | error result =>
        cases h
        exact Or.inl ⟨.rejected b item result, rfl⟩
      | ok q =>
        cases h
        exact Or.inl ⟨.prepared b item q, rfl⟩
    | step op k =>
      cases h
      exact Or.inr ⟨op, _, .preparing b item op k, rfl, rfl⟩
    | abort => cases h
  | rejected item result => cases h
  | prepared q =>
    simp only [MessageState.turn] at h
    split at h
    · cases h
      exact Or.inl ⟨.submits b q, rfl⟩
    · cases h
  | submitting q p =>
    cases p with
    | ret result =>
      cases h
      exact Or.inl ⟨.submitted b q result, rfl⟩
    | step op k =>
      cases h
      exact Or.inr ⟨op, _, .submitting b q op k, rfl, rfl⟩
    | abort => cases h
  | submitted q result => cases h

/-- All that a turn can do. -/
theorem turn_cases {t t' : Thread} {mayMove : Bool} {c : Choice} {w w' : World ρ}
    (h : t.turn D L mayMove c w = some (t', w')) :
    (t.Passes D t' ∧ w' = w) ∨
      ∃ op f, t.Performs op f ∧ t' = f (exec L op c w).1 ∧ w' = (exec L op c w).2 := by
  cases t with
  | receiving rid auth headers =>
    simp only [turn] at h
    split at h
    · cases h
      exact Or.inl ⟨.bodyRejected rid auth headers _, rfl⟩
    · cases h
      exact Or.inl ⟨.received rid auth headers _, rfl⟩
  | handling rid auth p => exact Or.inr (advance_cases (.handling rid auth) h)
  | message b m =>
    obtain ⟨⟨m', w''⟩, hturn, hx⟩ := Option.map_eq_some_iff.mp h
    cases hx
    exact turn_message_cases hturn
  | lookup p => exact Or.inr (advance_cases .lookup h)
  | sweep p => exact Or.inr (advance_cases .sweep h)
  | unauthenticated rid rejection => cases h
  | cutOff rid auth answer => cases h
  | bulkRefused bulkId e => cases h
  | bulkCutOff number => cases h

end Thread

/-! ## Sessions -/

structure Sessions (Φ : Type) where
  Next : Φ → (op : Op) → op.Res → Φ → Prop
  /-- The thread may be in the stage. -/
  Ok : Thread → Φ → Prop
  /-- The stages in which threads start while a config is in force. -/
  Start : AppConfig → Φ → Prop

/-- The thread moves on, and nothing that is shared changes: it is timed out, or it takes
a turn in which it performs no operation. -/
inductive Idles (D : Deps) (i : Nat) (t t' : Thread) : Event → Prop
  | timesOut (timeout : t.timeout = some t') : Idles D i t t' (.timeout i)
  | passes {c : Choice} (passes : t.Passes D t') : Idles D i t t' (.turn i c)

/-- What an event does to a server and the stages of its threads. -/
inductive SessionStep {Φ : Type} (S : Sessions Φ) (D : Deps) (L : Limiter ρ) (s : Server ρ)
    (φs : List Φ) : Event → Server ρ → List Φ → Prop
  /-- a thread performs an operation -/
  | performs {i : Nat} {c : Choice} {t : Thread} {op : Op} {f : op.Res → Thread} {φ φ' : Φ}
      (thread : s.threads[i]? = some t) (stage : φs[i]? = some φ) (ok : S.Ok t φ)
      (performs : t.Performs op f) (next : S.Next φ op (exec L op c s.world).1 φ')
      (ok' : S.Ok (f (exec L op c s.world).1) φ') :
      SessionStep S D L s φs (.turn i c)
        { world := (exec L op c s.world).2
          threads := s.threads.set i (f (exec L op c s.world).1) } (φs.set i φ')
  /-- a thread moves without an operation -/
  | idles {e : Event} {i : Nat} {t t' : Thread} {φ : Φ} (thread : s.threads[i]? = some t)
      (stage : φs[i]? = some φ) (idles : Idles D i t t' e) (ok : S.Ok t φ) (ok' : S.Ok t' φ) :
      SessionStep S D L s φs e { s with threads := s.threads.set i t' } φs
  | arrives {e : Event} {new : List Φ} (event : ∀ i c, e ≠ .turn i c)
      (started : ∀ φ ∈ new, S.Start s.world.app.config φ)
      (ok' : List.Forall₂ S.Ok (s.arrivals D e) new) :
      SessionStep S D L s φs e { s with threads := s.threads ++ s.arrivals D e } (φs ++ new)
  | reloads (config : AppConfig) :
      SessionStep S D L s φs (.reload config)
        { s with world := { s.world with app := s.world.app.reloadConfig config } } φs

namespace Sessions

variable {Φ : Type} {S : Sessions Φ} {D : Deps} {L : Limiter ρ}

/-- The obligations on the threads. -/
structure Lawful (S : Sessions Φ) (D : Deps) (Legal : Server ρ → Event → Prop) : Prop where
  arrives : ∀ {s e t}, Legal s e → t ∈ s.arrivals D e →
    ∃ φ, S.Start s.world.app.config φ ∧ S.Ok t φ
  passes : ∀ {t t' φ}, S.Ok t φ → t.Passes D t' → S.Ok t' φ
  performs : ∀ {t φ op f}, S.Ok t φ → t.Performs op f → ∀ r, ∃ φ', S.Next φ op r φ' ∧ S.Ok (f r) φ'
  timesOut : ∀ {t t' φ}, S.Ok t φ → t.timeout = some t' → S.Ok t' φ

theorem forall₂_set {α β : Type} {R : α → β → Prop} {as : List α} {bs : List β} {a : α} {b : β}
    (h : List.Forall₂ R as bs) (hab : R a b) (i : Nat) :
    List.Forall₂ R (as.set i a) (bs.set i b) := by
  induction h generalizing i with
  | nil => exact .nil
  | cons hhead htail ih =>
    cases i with
    | zero => exact .cons hab htail
    | succ i => exact .cons hhead (ih i)

theorem forall₂_getElem? {α β : Type} {R : α → β → Prop} {as : List α} {bs : List β} {a : α}
    (h : List.Forall₂ R as bs) {i : Nat} (ha : as[i]? = some a) :
    ∃ b, bs[i]? = some b ∧ R a b := by
  induction h generalizing i with
  | nil => simp at ha
  | cons hhead htail ih =>
    cases i with
    | zero =>
      obtain rfl := Option.some.inj ha
      exact ⟨_, rfl, hhead⟩
    | succ i => exact ih ha

theorem set_self {β : Type} {bs : List β} {b : β} {i : Nat} (h : bs[i]? = some b) :
    bs.set i b = bs := by
  induction bs generalizing i with
  | nil => rfl
  | cons x bs ih =>
    cases i with
    | zero =>
      obtain rfl := Option.some.inj h
      rfl
    | succ i => exact congrArg (x :: ·) (ih h)

/-- The sum of what the threads weigh in their stages. -/
def total (weight : Thread → Φ → Nat) : List Thread → List Φ → Nat
  | t :: ts, φ :: φs => weight t φ + total weight ts φs
  | _, _ => 0

theorem total_set (weight : Thread → Φ → Nat) {ts : List Thread} {φs : List Φ} {i : Nat}
    {t : Thread} {φ : Φ} (ht : ts[i]? = some t) (hφ : φs[i]? = some φ) (t' : Thread) (φ' : Φ) :
    total weight (ts.set i t') (φs.set i φ') + weight t φ =
      total weight ts φs + weight t' φ' := by
  induction ts generalizing φs i with
  | nil => simp at ht
  | cons u us ih =>
    cases φs with
    | nil => simp at hφ
    | cons ψ ψs =>
      cases i with
      | zero =>
        obtain rfl := Option.some.inj ht
        obtain rfl := Option.some.inj hφ
        show weight t' φ' + total weight us ψs + weight u ψ =
          weight u ψ + total weight us ψs + weight t' φ'
        omega
      | succ i =>
        have h := ih ht hφ
        show weight u ψ + total weight (us.set i t') (ψs.set i φ') + weight t φ =
          weight u ψ + total weight us ψs + weight t' φ'
        omega

theorem total_append {R : Thread → Φ → Prop} {weight : Thread → Φ → Nat} {ts us : List Thread}
    {φs ψs : List Φ} (h : List.Forall₂ R ts φs) :
    total weight (ts ++ us) (φs ++ ψs) = total weight ts φs + total weight us ψs := by
  induction h with
  | nil => exact (Nat.zero_add _).symm
  | cons _ _ ih => exact (congrArg _ ih).trans (Nat.add_assoc ..).symm

theorem total_le_mul {weight : Thread → Φ → Nat} {k : Nat} {ts : List Thread} {φs : List Φ}
    (h : ∀ t, ∀ φ ∈ φs, weight t φ ≤ k) : total weight ts φs ≤ k * ts.length := by
  induction ts generalizing φs with
  | nil => exact Nat.zero_le _
  | cons t ts ih =>
    cases φs with
    | nil => exact Nat.zero_le _
    | cons φ φs =>
      have hhead := h t φ List.mem_cons_self
      have htail := ih fun u ψ hψ => h u ψ (List.mem_cons_of_mem _ hψ)
      show weight t φ + total weight ts φs ≤ k * (ts.length + 1)
      rw [Nat.mul_succ]
      omega

theorem total_eq_zero {weight : Thread → Φ → Nat} {ts : List Thread} {φs : List Φ}
    (h : ∀ t, ∀ φ ∈ φs, weight t φ = 0) : total weight ts φs = 0 := by
  have hle : total weight ts φs ≤ 0 * ts.length := total_le_mul fun t φ hφ => (h t φ hφ).le
  rw [Nat.zero_mul] at hle
  exact Nat.le_zero.mp hle

theorem total_le_countP {R : Thread → Φ → Prop} {weight : Thread → Φ → Nat} {P : Thread → Bool}
    {ts : List Thread} {φs : List Φ} (h : List.Forall₂ R ts φs)
    (hle : ∀ t φ, R t φ → weight t φ ≤ if P t then 1 else 0) :
    total weight ts φs ≤ ts.countP P := by
  induction h with
  | nil => exact Nat.zero_le _
  | cons hR _ ih =>
    have hhead := hle _ _ hR
    rw [List.countP_cons]
    exact (Nat.add_le_add hhead ih).trans_eq (Nat.add_comm _ _)

namespace Lawful

variable {Legal : Server ρ → Event → Prop} (h : S.Lawful D Legal)
include h

theorem mono {Legal' : Server ρ → Event → Prop} (hsub : ∀ s e, Legal' s e → Legal s e) :
    S.Lawful D Legal' where
  arrives hlegal := h.arrives (hsub _ _ hlegal)
  passes := h.passes
  performs := h.performs
  timesOut := h.timesOut

theorem starts {s : Server ρ} {e : Event} (hlegal : Legal s e) :
    ∃ new, (∀ φ ∈ new, S.Start s.world.app.config φ) ∧
      List.Forall₂ S.Ok (s.arrivals D e) new := by
  have hall : ∀ ts : List Thread, (∀ t ∈ ts, ∃ φ, S.Start s.world.app.config φ ∧ S.Ok t φ) →
      ∃ new, (∀ φ ∈ new, S.Start s.world.app.config φ) ∧ List.Forall₂ S.Ok ts new := by
    intro ts hts
    induction ts with
    | nil => exact ⟨[], fun _ hφ => (List.not_mem_nil hφ).elim, .nil⟩
    | cons t ts ih =>
      obtain ⟨φ, hstart, hok⟩ := hts t List.mem_cons_self
      obtain ⟨new, hnew, hall⟩ := ih fun t' ht' => hts t' (List.mem_cons_of_mem _ ht')
      refine ⟨φ :: new, fun ψ hψ => ?_, .cons hok hall⟩
      rcases List.mem_cons.mp hψ with rfl | hψ
      · exact hstart
      · exact hnew ψ hψ
  exact hall _ fun t ht => h.arrives hlegal ht

/-- One event is a step of the sessions. -/
theorem step {s s' : Server ρ} {e : Event} {φs : List Φ} (hok : List.Forall₂ S.Ok s.threads φs)
    (hlegal : Legal s e) (hs : s.step D L e = some s') :
    ∃ φs', List.Forall₂ S.Ok s'.threads φs' ∧ SessionStep S D L s φs e s' φs' := by
  have harrive : (∀ i c, e ≠ .turn i c) → s' = { s with threads := s.threads ++ s.arrivals D e } →
      ∃ φs', List.Forall₂ S.Ok s'.threads φs' ∧ SessionStep S D L s φs e s' φs' := by
    rintro hne rfl
    obtain ⟨new, hnew, hall⟩ := h.starts hlegal
    exact ⟨φs ++ new, List.rel_append hok hall, .arrives hne hnew hall⟩
  cases e with
  | turn i c =>
    obtain ⟨t, ht, hs⟩ := Option.bind_eq_some_iff.mp hs
    obtain ⟨⟨t', w'⟩, hturn, hs⟩ := Option.bind_eq_some_iff.mp hs
    cases hs
    obtain ⟨φ, hφ, htφ⟩ := forall₂_getElem? hok ht
    rcases Thread.turn_cases hturn with ⟨hpasses, rfl⟩ | ⟨op, f, hperforms, rfl, rfl⟩
    · have hok' := h.passes htφ hpasses
      refine ⟨φs, ?_, .idles ht hφ (.passes hpasses) htφ hok'⟩
      have hset := forall₂_set hok hok' i
      rwa [set_self hφ] at hset
    · obtain ⟨φ', hnext, hok'⟩ := h.performs htφ hperforms (exec L op c s.world).1
      exact ⟨_, forall₂_set hok hok' i, .performs ht hφ htφ hperforms hnext hok'⟩
  | timeout i =>
    obtain ⟨t, ht, hs⟩ := Option.bind_eq_some_iff.mp hs
    obtain ⟨t', htimeout, hs⟩ := Option.bind_eq_some_iff.mp hs
    cases hs
    obtain ⟨φ, hφ, htφ⟩ := forall₂_getElem? hok ht
    have hok' := h.timesOut htφ htimeout
    refine ⟨φs, ?_, .idles ht hφ (.timesOut htimeout) htφ hok'⟩
    have hset := forall₂_set hok hok' i
    rwa [set_self hφ] at hset
  | reload config =>
    cases hs
    exact ⟨φs, hok, .reloads config⟩
  | post rid parts => exact harrive (fun _ _ he => by cases he) (Option.some.inj hs).symm
  | postBulk bulkId auth messages =>
    exact harrive (fun _ _ he => by cases he) (Option.some.inj hs).symm
  | lookup rid keyId => exact harrive (fun _ _ he => by cases he) (Option.some.inj hs).symm
  | sweep => exact harrive (fun _ _ he => by cases he) (Option.some.inj hs).symm
  | timeoutBulk i => exact harrive (fun _ _ he => by cases he) (Option.some.inj hs).symm

end Lawful

/-! ## Two sessions side by side -/

def prod {Ψ : Type} (S : Sessions Φ) (T : Sessions Ψ) : Sessions (Φ × Ψ) where
  Next φ op r φ' := S.Next φ.1 op r φ'.1 ∧ T.Next φ.2 op r φ'.2
  Ok t φ := S.Ok t φ.1 ∧ T.Ok t φ.2
  Start config φ := S.Start config φ.1 ∧ T.Start config φ.2

theorem Lawful.prod {Ψ : Type} {T : Sessions Ψ} {Legal : Server ρ → Event → Prop}
    (hS : S.Lawful D Legal) (hT : T.Lawful D Legal) : (S.prod T).Lawful D Legal where
  arrives hlegal ht := by
    obtain ⟨φ, hφ, hok⟩ := hS.arrives hlegal ht
    obtain ⟨ψ, hψ, hok'⟩ := hT.arrives hlegal ht
    exact ⟨(φ, ψ), ⟨hφ, hψ⟩, hok, hok'⟩
  passes hok hpasses := ⟨hS.passes hok.1 hpasses, hT.passes hok.2 hpasses⟩
  performs hok hperforms r := by
    obtain ⟨φ, hφ, hok'⟩ := hS.performs hok.1 hperforms r
    obtain ⟨ψ, hψ, hok''⟩ := hT.performs hok.2 hperforms r
    exact ⟨(φ, ψ), ⟨hφ, hψ⟩, hok', hok''⟩
  timesOut hok htimeout := ⟨hS.timesOut hok.1 htimeout, hT.timesOut hok.2 htimeout⟩

theorem forall₂_snd {Ψ : Type} {T : Sessions Ψ} {ts : List Thread} {ps : List (Φ × Ψ)}
    (h : List.Forall₂ (S.prod T).Ok ts ps) : List.Forall₂ T.Ok ts (ps.map Prod.snd) := by
  induction h with
  | nil => exact .nil
  | cons hhead _ ih => exact .cons hhead.2 ih

end Sessions

/-- A step of two sessions is one of the second. -/
theorem SessionStep.snd {Φ Ψ : Type} {S : Sessions Φ} {T : Sessions Ψ} {D : Deps} {L : Limiter ρ}
    {s s' : Server ρ} {e : Event} {ps ps' : List (Φ × Ψ)}
    (h : SessionStep (S.prod T) D L s ps e s' ps') :
    SessionStep T D L s (ps.map Prod.snd) e s' (ps'.map Prod.snd) := by
  cases h with
  | performs hthread hstage hok hperforms hnext hok' =>
    rw [List.map_set]
    refine .performs hthread ?_ hok.2 hperforms hnext.2 hok'.2
    rw [List.getElem?_map, hstage]
    rfl
  | idles hthread hstage hidles hok hok' =>
    refine .idles hthread ?_ hidles hok.2 hok'.2
    rw [List.getElem?_map, hstage]
    rfl
  | arrives hevent hstarted hoks =>
    rw [List.map_append]
    refine .arrives hevent ?_ (Sessions.forall₂_snd hoks)
    intro ψ hψ
    obtain ⟨p, hp, rfl⟩ := List.mem_map.mp hψ
    exact (hstarted p hp).2
  | reloads config => exact .reloads config

/-! ## What a run shows -/

namespace Server

/-- What the events of a run show, in order. -/
def observe {β : Type} (D : Deps) (L : Limiter ρ) (f : Server ρ → Event → List β) :
    Server ρ → List Event → List β
  | _, [] => []
  | s, e :: es =>
    match s.step D L e with
    | none => []
    | some s' => f s e ++ observe D L f s' es

variable {D : Deps} {L : Limiter ρ}

theorem eachStep_of_forall {C : Server ρ → Event → Prop}
    (h : ∀ s e, C s e) (s : Server ρ) (es : List Event) : s.EachStep D L C es := by
  induction es generalizing s with
  | nil => trivial
  | cons e es ih => exact fun s' _ => ⟨h s e, ih s'⟩

theorem EachStep.of_mem {C : Server ρ → Event → Prop} {s : Server ρ} {es : List Event}
    (h : ∀ s, ∀ e ∈ es, C s e) : s.EachStep D L C es := by
  induction es generalizing s with
  | nil => trivial
  | cons e es ih =>
    intro s' _
    exact ⟨h s e List.mem_cons_self, ih fun s e he => h s e (List.mem_cons_of_mem _ he)⟩

theorem EachStep.and {C C' : Server ρ → Event → Prop} {s : Server ρ} {es : List Event}
    (h : s.EachStep D L C es) (h' : s.EachStep D L C' es) :
    s.EachStep D L (fun s e => C s e ∧ C' s e) es := by
  induction es generalizing s with
  | nil => trivial
  | cons e es ih =>
    intro s' hs'
    exact ⟨⟨(h s' hs').1, (h' s' hs').1⟩, ih (h s' hs').2 (h' s' hs').2⟩

end Server

/-- What one event preserves of the server, the stages and the log, a run preserves. -/
theorem Sessions.Lawful.run {Φ β : Type} {S : Sessions Φ} {D : Deps} {L : Limiter ρ}
    {Legal : Server ρ → Event → Prop} (h : S.Lawful D Legal) {f : Server ρ → Event → List β}
    {I : Server ρ → List Φ → List β → Prop}
    (hstep : ∀ {s s' e φs φs' log}, List.Forall₂ S.Ok s.threads φs → Legal s e →
      SessionStep S D L s φs e s' φs' → I s φs log → I s' φs' (log ++ f s e))
    {es : List Event} {s s' : Server ρ} {φs : List Φ} {log : List β}
    (hok : List.Forall₂ S.Ok s.threads φs) (hI : I s φs log)
    (hlegal : s.EachStep D L Legal es) (hrun : s.run D L es = some s') :
    ∃ φs', List.Forall₂ S.Ok s'.threads φs' ∧ I s' φs' (log ++ s.observe D L f es) := by
  induction es generalizing s φs log with
  | nil =>
    cases hrun
    exact ⟨φs, hok, by simpa [Server.observe] using hI⟩
  | cons e es ih =>
    obtain ⟨s₁, hs₁, hrun⟩ := Option.bind_eq_some_iff.mp hrun
    obtain ⟨hlegal₁, hrest⟩ := hlegal s₁ hs₁
    obtain ⟨φs₁, hok₁, hmove⟩ := h.step hok hlegal₁ hs₁
    obtain ⟨φs', hok', hI'⟩ := ih hok₁ (hstep hok hlegal₁ hmove hI) hrest hrun
    refine ⟨φs', hok', ?_⟩
    simpa [Server.observe, hs₁, List.append_assoc] using hI'

end HttpSmtpRele
