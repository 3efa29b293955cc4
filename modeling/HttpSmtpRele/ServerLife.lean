import Mathlib.Data.List.Count
import HttpSmtpRele.HandlerLife
import HttpSmtpRele.Server

/-!
# The server keeps to the life of a record

Every thread follows the automaton of its own id (`Thread.Ok`).  For one id
`rid`, drawn at most once, this gives an invariant of whole runs: there is a
phase `φ` which the thread of `rid` is in, if there is one, and which the record
of `rid` keeps up with (`Inv`).  `inv_step` says what one step does to it: either
it is an operation of the automaton, or `rid` is left alone.
-/

namespace HttpSmtpRele

open Prog Api LPhase

variable {ρ : Type} {D : Deps} {L : Limiter ρ} {rid : RequestId} {E : DateTime}

/-- The operations of a status lookup. -/
def lookupNext (u : Unit) (op : Op) : Option Unit :=
  if op.target = none ∧ op.isSweep = false then some u else none

/-- A round of the cleanup task, at a time before `E`. -/
def SweepOk (E : DateTime) (p : RelayM Unit) : Prop :=
  p = cleanup ∨ (∃ now ≤ E, p = Relay.expireOldRecords now) ∨ p = .ret ()

def MessageState.Ok (b : Bulk) (m : MessageState) (φ : LPhase) : Prop :=
  match m with
  | waiting _ => φ = .fresh
  | preparing item p =>
    Follows (messageNext item.reqId) (PrepareEnds item.reqId b.auth.keyId) φ p
  | rejected item result => MessageEnds item.reqId b.auth.keyId result φ
  | prepared q => q.keyId = b.auth.keyId ∧ φ = .received q.keyId
  | submitting q p =>
    q.keyId = b.auth.keyId ∧ Follows (messageNext q.reqId) (MessageEnds q.reqId q.keyId) φ p
  | submitted q result => q.keyId = b.auth.keyId ∧ MessageEnds q.reqId q.keyId result φ

/-- The thread may be in the phase `φ` of its id, and sweeps before `E`. -/
def Thread.Ok (E : DateTime) (t : Thread) (φ : LPhase) : Prop :=
  match t with
  | unauthenticated _ _ => φ = .fresh
  | receiving _ _ _ => φ = .fresh
  | handling rid auth p => Follows (messageNext rid) (SendEnds rid auth.keyId) φ p
  | cutOff _ _ _ => True
  | bulkRefused _ _ => True
  | bulkCutOff _ => True
  | message b m => m.Ok b φ
  | lookup p => Follows lookupNext (fun _ _ => True) () p
  | sweep p => SweepOk E p

/-- What the operation of a thread does to the phase of its id. -/
def Moves (id : Option RequestId) (φ : LPhase) (op : Op) (φ' : LPhase) : Prop :=
  match id with
  | some rid => messageNext rid φ op = some φ'
  | none => op.target = none ∧ φ' = φ

/-- The outcome of a turn: nothing is performed, or the next operation `next`. -/
def TurnMoves (L : Limiter ρ) (c : Choice) (w w' : World ρ) (next : Option Op)
    (id : Option RequestId) (φ φ' : LPhase) : Prop :=
  (w' = w ∧ φ' = φ) ∨ ∃ op, next = some op ∧ w' = (exec L op c w).2 ∧ Moves id φ op φ'

namespace ServerLife

/-! ## One thread -/

theorem follows_lookup (requestId : RequestId) (keyId : String) :
    Follows lookupNext (fun _ _ => True) () (getSubmissionStatus requestId keyId) := by
  apply Follows.step (ψ := ()) rfl
  intro found
  cases found with
  | absent => trivial
  | live r => trivial
  | expired => exact Follows.step (ψ := ()) rfl fun _ => trivial

/-- A turn of a program on the id `rid`. -/
theorem advance_moves {α : Type} {Q : α → LPhase → Prop} {φ : LPhase} {p p' : RelayM α}
    {c : Choice} {w w' : World ρ} (hp : Follows (messageNext rid) Q φ p)
    (h : advance (exec L) c w p = some (p', w')) :
    ∃ φ', Follows (messageNext rid) Q φ' p' ∧ TurnMoves L c w w' p.head? (some rid) φ φ' := by
  obtain ⟨op, φ', hhead, hn, hp', hw⟩ := hp.advance h
  exact ⟨φ', hp', Or.inr ⟨op, hhead, hw, hn⟩⟩

theorem advance_lookup {α : Type} {p p' : RelayM α} {c : Choice} {w w' : World ρ}
    (hp : Follows lookupNext (fun _ _ => True) () p)
    (h : advance (exec L) c w p = some (p', w')) (φ : LPhase) :
    Follows lookupNext (fun _ _ => True) () p' ∧ TurnMoves L c w w' p.head? none φ φ := by
  obtain ⟨op, φ', hhead, hn, hp', hw⟩ := hp.advance h
  refine ⟨hp', Or.inr ⟨op, hhead, hw, ?_, rfl⟩⟩
  by_contra ht
  simp [lookupNext, ht] at hn

theorem advance_sweep {p p' : RelayM Unit} {c : Choice} {w w' : World ρ} (hp : SweepOk E p)
    (hE : c.utc ≤ E) (h : advance (exec L) c w p = some (p', w')) (φ : LPhase) :
    SweepOk E p' ∧ TurnMoves L c w w' p.head? none φ φ := by
  rcases hp with rfl | ⟨now, hnow, rfl⟩ | rfl
  · cases h
    exact ⟨Or.inr (Or.inl ⟨c.utc, hE, rfl⟩), Or.inr ⟨_, rfl, rfl, rfl, rfl⟩⟩
  · cases h
    exact ⟨Or.inr (Or.inr rfl), Or.inr ⟨_, rfl, rfl, rfl, rfl⟩⟩
  · cases h

theorem message_turn_ok {b : Bulk} {m m' : MessageState} {φ : LPhase} {mayMove : Bool}
    {c : Choice} {w w' : World ρ} (hok : m.Ok b φ)
    (h : m.turn D L b mayMove c w = some (m', w')) :
    m'.id = m.id ∧ ∃ φ', m'.Ok b φ' ∧
      TurnMoves L c w w' (Thread.message b m).nextOp (some m.id) φ φ' := by
  have hstay : TurnMoves L c w w (Thread.message b m).nextOp (some m.id) φ φ := Or.inl ⟨rfl, rfl⟩
  cases m with
  | waiting item =>
    simp only [MessageState.turn] at h
    split at h
    · cases h
      obtain rfl : φ = .fresh := hok
      exact ⟨rfl, _, follows_phase1Prepare, hstay⟩
    · cases h
  | preparing item p =>
    cases p with
    | ret out =>
      cases out with
      | error result =>
        cases h
        exact ⟨rfl, φ, hok, hstay⟩
      | ok q =>
        cases h
        obtain ⟨hid, hkey, rfl⟩ := hok
        exact ⟨hid, _, ⟨hkey, by rw [hkey]⟩, hstay⟩
    | step op k =>
      simp only [MessageState.turn, Option.map_eq_some_iff] at h
      obtain ⟨⟨p', w''⟩, hadv, hx⟩ := h
      cases hx
      obtain ⟨φ', hp', hmoves⟩ := advance_moves hok hadv
      exact ⟨rfl, φ', hp', hmoves⟩
    | abort => cases h
  | rejected item result => cases h
  | prepared q =>
    simp only [MessageState.turn] at h
    split at h
    · cases h
      obtain ⟨hkey, rfl⟩ := hok
      exact ⟨rfl, _, ⟨hkey, follows_phase2Submit⟩, hstay⟩
    · cases h
  | submitting q p =>
    cases p with
    | ret result =>
      cases h
      exact ⟨rfl, φ, hok, hstay⟩
    | step op k =>
      simp only [MessageState.turn, Option.map_eq_some_iff] at h
      obtain ⟨⟨p', w''⟩, hadv, hx⟩ := h
      cases hx
      obtain ⟨φ', hp', hmoves⟩ := advance_moves hok.2 hadv
      exact ⟨rfl, φ', ⟨hok.1, hp'⟩, hmoves⟩
    | abort => cases h
  | submitted q result => cases h

theorem thread_turn_ok {t t' : Thread} {φ : LPhase} {mayMove : Bool} {c : Choice}
    {w w' : World ρ} (hok : t.Ok E φ) (hE : c.utc ≤ E)
    (h : t.turn D L mayMove c w = some (t', w')) :
    t'.id = t.id ∧ ∃ φ', t'.Ok E φ' ∧ TurnMoves L c w w' t.nextOp t.id φ φ' := by
  cases t with
  | receiving rid auth headers =>
    simp only [Thread.turn] at h
    split at h
    · cases h
      exact ⟨rfl, φ, trivial, Or.inl ⟨rfl, rfl⟩⟩
    · cases h
      obtain rfl : φ = .fresh := hok
      exact ⟨rfl, _, follows_sendMail, Or.inl ⟨rfl, rfl⟩⟩
  | handling rid auth p =>
    obtain ⟨⟨p', w''⟩, hadv, hx⟩ := Option.map_eq_some_iff.mp h
    cases hx
    obtain ⟨φ', hp', hmoves⟩ := advance_moves hok hadv
    exact ⟨rfl, φ', hp', hmoves⟩
  | message b m =>
    obtain ⟨⟨m', w''⟩, hturn, hx⟩ := Option.map_eq_some_iff.mp h
    cases hx
    obtain ⟨hid, φ', hm', hmoves⟩ := message_turn_ok hok hturn
    exact ⟨congrArg some hid, φ', hm', hmoves⟩
  | lookup p =>
    obtain ⟨⟨p', w''⟩, hadv, hx⟩ := Option.map_eq_some_iff.mp h
    cases hx
    obtain ⟨hp', hmoves⟩ := advance_lookup hok hadv φ
    exact ⟨rfl, φ, hp', hmoves⟩
  | sweep p =>
    obtain ⟨⟨p', w''⟩, hadv, hx⟩ := Option.map_eq_some_iff.mp h
    cases hx
    obtain ⟨hp', hmoves⟩ := advance_sweep hok hE hadv φ
    exact ⟨rfl, φ, hp', hmoves⟩
  | _ => cases h

theorem thread_timeout_ok {t t' : Thread} (h : t.timeout = some t') :
    t'.id = t.id ∧ ∀ φ, t'.Ok E φ := by
  cases t with
  | receiving rid auth headers =>
    cases h
    exact ⟨rfl, fun _ => trivial⟩
  | handling rid auth p =>
    cases p with
    | step op k =>
      simp only [Thread.timeout] at h
      split at h
      · cases h
        exact ⟨rfl, fun _ => trivial⟩
      · cases h
    | _ => cases h
  | _ => cases h

/-! ## One id -/

/-- A thread of another id takes no step that is watched for `rid`. -/
theorem watchNext_of_foreign_moves {id : Option RequestId} {ψ ψ' : LPhase} {op : Op}
    (hid : id ≠ some rid) (hmoves : Moves id ψ op ψ') (φ : LPhase) :
    watchNext rid φ op = some φ := by
  cases id with
  | none =>
    unfold watchNext
    rw [hmoves.1]
  | some id => exact watchNext_of_foreign (fun h => hid (congrArg some h)) hmoves φ

/-- The occurrences of `rid` among the threads. -/
def occurrences (rid : RequestId) (threads : List Thread) : Nat :=
  (threads.map Thread.id).count (some rid)

/-- Two threads of one id are one. -/
theorem eq_of_count_le_one {α : Type} [BEq α] [LawfulBEq α] {l : List α} {a : α} (h : l.count a ≤ 1)
    {i j : Nat} (hi : l[i]? = some a) (hj : l[j]? = some a) : i = j := by
  induction l generalizing i j with
  | nil => simp at hi
  | cons b l ih =>
    rw [List.count_cons] at h
    have hmem : ∀ {k : Nat}, l[k]? = some a → 1 ≤ l.count a := fun hk =>
      List.count_pos_iff.mpr (List.mem_of_getElem? hk)
    cases i with
    | zero =>
      cases j with
      | zero => rfl
      | succ j =>
        obtain rfl : b = a := by simpa using hi
        have := hmem (by simpa using hj)
        simp only [beq_self_eq_true, if_true] at h
        omega
    | succ i =>
      cases j with
      | zero =>
        obtain rfl : b = a := by simpa using hj
        have := hmem (by simpa using hi)
        simp only [beq_self_eq_true, if_true] at h
        omega
      | succ j =>
        have := ih (by omega) (by simpa using hi) (by simpa using hj)
        omega

theorem occurrences_set {threads : List Thread} {i : Nat} {t t' : Thread}
    (ht : threads[i]? = some t) (hid : t'.id = t.id) :
    occurrences rid (threads.set i t') = occurrences rid threads := by
  have hset : (threads.set i t').map Thread.id = threads.map Thread.id := by
    rw [List.map_set, hid]
    apply List.ext_getElem?
    intro j
    rw [List.getElem?_set]
    split
    · rename_i hij
      subst hij
      split <;> simp_all
    · rfl
  rw [occurrences, hset, occurrences]

/-- Another thread than the one that moves is of another id. -/
theorem mem_set_of_once {threads : List Thread} {i : Nat} {t t' u : Thread}
    (honce : occurrences rid threads ≤ 1) (ht : threads[i]? = some t) (hid : t.id = some rid)
    (hu : u ∈ threads.set i t') (huid : u.id = some rid) : u = t' := by
  obtain ⟨j, hj⟩ := List.getElem?_of_mem hu
  rw [List.getElem?_set] at hj
  split at hj
  · split at hj
    · exact (Option.some.inj hj).symm
    · cases hj
  · rename_i hij
    have hi' : (threads.map Thread.id)[i]? = some (some rid) := by simp [ht, hid]
    have hj' : (threads.map Thread.id)[j]? = some (some rid) := by simp [hj, huid]
    exact absurd (eq_of_count_le_one honce hi' hj') hij

end ServerLife

open ServerLife in
/-- The threads follow their automata, that of `rid` in the phase `φ`; the
record of `rid` keeps up with it. -/
structure Inv (rid : RequestId) (E : DateTime) (φ : LPhase) (s : Server ρ) : Prop where
  threads : ∀ t ∈ s.threads, ∃ φ', t.Ok E φ'
  owner : ∀ t ∈ s.threads, t.id = some rid → t.Ok E φ
  absent : occurrences rid s.threads = 0 → φ = .fresh
  tracks : Tracks E φ (s.world.find rid)

namespace ServerLife

theorem inv_start {w : World ρ} (hfresh : w.find rid = none) :
    Inv rid E .fresh ({ world := w, threads := [] } : Server ρ) where
  threads := by simp
  owner := by simp
  absent _ := rfl
  tracks := ⟨fun _ => hfresh, fun r hr => by simp [hfresh] at hr⟩

/-- A thread takes the place of another of its id. -/
theorem inv_set {s : Server ρ} {i : Nat} {t t' : Thread} {w' : World ρ} {φ φ' ψ : LPhase}
    (hinv : Inv rid E φ s) (honce : occurrences rid s.threads ≤ 1) (ht : s.threads[i]? = some t)
    (hid : t'.id = t.id) (hok : t'.Ok E ψ) (hown : t.id = some rid → ψ = φ')
    (hother : t.id ≠ some rid → φ' = φ) (htracks : Tracks E φ' (w'.find rid)) :
    Inv rid E φ' { world := w', threads := s.threads.set i t' } where
  threads u hu := by
    rcases List.mem_or_eq_of_mem_set hu with hu | rfl
    · exact hinv.threads u hu
    · exact ⟨ψ, hok⟩
  owner u hu huid := by
    by_cases htid : t.id = some rid
    · rw [mem_set_of_once honce ht htid hu huid, ← hown htid]
      exact hok
    · rw [hother htid]
      rcases List.mem_or_eq_of_mem_set hu with hu | rfl
      · exact hinv.owner u hu huid
      · exact absurd (hid ▸ huid) htid
  absent h := by
    rw [occurrences_set ht hid] at h
    have htid : t.id ≠ some rid := fun htid =>
      List.count_eq_zero.mp h (List.mem_map.mpr ⟨t, List.mem_of_getElem? ht, htid⟩)
    rw [hother htid]
    exact hinv.absent h
  tracks := htracks

/-- New threads start in the phase `fresh`. -/
theorem arrivals_ok {s : Server ρ} {e : Event} {t : Thread} (ht : t ∈ s.arrivals D e) :
    t.Ok E .fresh := by
  cases e with
  | post rid parts =>
    simp only [Server.arrivals] at ht
    split at ht
    · obtain rfl := List.mem_singleton.mp ht
      rfl
    · obtain rfl := List.mem_singleton.mp ht
      rfl
  | postBulk bulkId auth messages =>
    simp only [Server.arrivals] at ht
    split at ht
    · obtain rfl := List.mem_singleton.mp ht
      trivial
    · obtain ⟨item, -, rfl⟩ := List.mem_map.mp ht
      rfl
  | lookup id keyId =>
    obtain rfl := List.mem_singleton.mp ht
    exact follows_lookup id keyId
  | sweep =>
    obtain rfl := List.mem_singleton.mp ht
    exact Or.inl rfl
  | timeoutBulk i =>
    obtain ⟨number, rfl⟩ := Server.mem_arrivals_timeoutBulk ht
    trivial
  | _ => cases ht

theorem bulkItems_ids (messages : List (MailRequest × RequestId)) :
    (bulkItems (messages.map Prod.fst) (messages.map Prod.snd)).map BulkItem.reqId =
      messages.map Prod.snd := by
  rw [bulkItems_eq]
  apply List.ext_getElem?
  intro i
  simp [Function.comp_def]

/-- The ids of new threads are among those the event draws. -/
theorem occurrences_arrivals (s : Server ρ) (e : Event) :
    occurrences rid (s.arrivals D e) ≤ e.ids.count rid := by
  cases e with
  | post rid' parts =>
    have hone : ∀ t : Thread, t.id = some rid' → occurrences rid [t] = [rid'].count rid := by
      intro t ht
      simp [occurrences, ht, List.count_singleton]
    simp only [Server.arrivals]
    split
    · exact (hone _ rfl).le
    · exact (hone _ rfl).le
  | postBulk bulkId auth messages =>
    simp only [Server.arrivals]
    split
    · simp [occurrences, Thread.id]
    · have hids : ∀ (b : Bulk) (items : List BulkItem),
          (items.map fun item => Thread.message b (.waiting item)).map Thread.id =
            (items.map BulkItem.reqId).map some := by simp [Thread.id, MessageState.id]
      rw [occurrences, hids, bulkItems_ids, Event.ids,
        List.count_map_of_injective _ _ (Option.some_injective _)]
  | lookup id keyId => simp [Server.arrivals, occurrences, Thread.id]
  | sweep => simp [Server.arrivals, occurrences, Thread.id]
  | timeoutBulk i =>
    rcases s.arrivals_timeoutBulk (D := D) i with h | ⟨b, m, -, -, -, -, h⟩
    · simp [h, occurrences]
    · simp [h, occurrences, Thread.id]
  | _ => simp [Server.arrivals, occurrences]

theorem inv_append {s : Server ρ} {new : List Thread} {φ : LPhase} (hinv : Inv rid E φ s)
    (honce : occurrences rid s.threads + occurrences rid new ≤ 1)
    (hnew : ∀ t ∈ new, t.Ok E .fresh) :
    Inv rid E φ { s with threads := s.threads ++ new } where
  threads t ht := by
    rcases List.mem_append.mp ht with ht | ht
    · exact hinv.threads t ht
    · exact ⟨_, hnew t ht⟩
  owner t ht hid := by
    rcases List.mem_append.mp ht with ht | ht
    · exact hinv.owner t ht hid
    · -- `rid` is new, so no thread of it was there
      have hpos : 0 < occurrences rid new :=
        List.count_pos_iff.mpr (List.mem_map.mpr ⟨t, ht, hid⟩)
      rw [hinv.absent (by omega)]
      exact hnew t ht
  absent h := by
    rw [occurrences, List.map_append, List.count_append] at h
    exact hinv.absent (Nat.eq_zero_of_add_eq_zero_right h)
  tracks := hinv.tracks

/-- The event is the turn of a thread that performs `op`. -/
def Performs (s : Server ρ) (e : Event) (op : Op) : Prop :=
  ∃ i c t, e = .turn i c ∧ s.threads[i]? = some t ∧ t.nextOp = some op

/-- What a step does to `rid`: one operation of its automaton, or nothing. -/
def StepMoves (L : Limiter ρ) (rid : RequestId) (E : DateTime) (φ φ' : LPhase) (s : Server ρ)
    (e : Event) (s' : Server ρ) : Prop :=
  (φ' = φ ∧ s'.world.find rid = s.world.find rid) ∨
    ∃ op c, Performs s e op ∧ s'.world = (exec L op c s.world).2 ∧
      watchNext rid φ op = some φ' ∧ c.utc ≤ E

theorem tracks_of_stepMoves {φ φ' : LPhase} {s s' : Server ρ} {e : Event}
    (hT : Tracks E φ (s.world.find rid))
    (h : StepMoves L rid E φ φ' s e s') : Tracks E φ' (s'.world.find rid) := by
  rcases h with ⟨rfl, hfind⟩ | ⟨op, c, -, hw, hn, hE⟩
  · rw [hfind]
    exact hT
  · rw [hw]
    exact exec_tracks hn hT hE

/-- A turn takes the automaton one operation further, or does nothing. -/
theorem stepMoves_turn {s : Server ρ} {i : Nat} {c : Choice} {t t' : Thread} {w' : World ρ}
    {φ φ' : LPhase} (ht : s.threads[i]? = some t) (hE : c.utc ≤ E)
    (h : (φ' = φ ∧ w' = s.world) ∨ ∃ op, t.nextOp = some op ∧
      w' = (exec L op c s.world).2 ∧ watchNext rid φ op = some φ') :
    StepMoves L rid E φ φ' s (.turn i c) { world := w', threads := s.threads.set i t' } := by
  rcases h with ⟨rfl, rfl⟩ | ⟨op, hnext, rfl, hn⟩
  · exact Or.inl ⟨rfl, rfl⟩
  · exact Or.inr ⟨op, c, ⟨i, c, t, rfl, ht, hnext⟩, rfl, hn, hE⟩

/-- A turn of the thread of `rid` moves its automaton; a turn of another leaves it. -/
theorem inv_turn {s : Server ρ} {i : Nat} {c : Choice} {t t' : Thread} {w' : World ρ}
    {φ : LPhase} (hinv : Inv rid E φ s) (honce : occurrences rid s.threads ≤ 1)
    (hE : c.utc ≤ E) (ht : s.threads[i]? = some t)
    (hturn : t.turn D L (s.mayMove i t) c s.world = some (t', w')) :
    t'.id = t.id ∧ ∃ φ', Inv rid E φ' { world := w', threads := s.threads.set i t' } ∧
      StepMoves L rid E φ φ' s (.turn i c) { world := w', threads := s.threads.set i t' } := by
  have hmem := List.mem_of_getElem? ht
  by_cases hid : t.id = some rid
  · obtain ⟨hid', φ', hok', hmoves⟩ := thread_turn_ok (hinv.owner t hmem hid) hE hturn
    rw [hid] at hmoves
    have hstep : StepMoves L rid E φ φ' s (.turn i c)
        { world := w', threads := s.threads.set i t' } := by
      apply stepMoves_turn ht hE
      rcases hmoves with h | ⟨op, hnext, hw, hop⟩
      · exact Or.inl h.symm
      · exact Or.inr ⟨op, hnext, hw, watchNext_of_messageNext hop⟩
    refine ⟨hid', φ', ?_, hstep⟩
    exact inv_set hinv honce ht hid' hok' (fun _ => rfl) (fun h => absurd hid h)
      (tracks_of_stepMoves hinv.tracks hstep)
  · obtain ⟨ψ, hψ⟩ := hinv.threads t hmem
    obtain ⟨hid', ψ', hok', hmoves⟩ := thread_turn_ok hψ hE hturn
    have hstep : StepMoves L rid E φ φ s (.turn i c)
        { world := w', threads := s.threads.set i t' } := by
      apply stepMoves_turn ht hE
      rcases hmoves with ⟨hw, -⟩ | ⟨op, hnext, hw, hop⟩
      · exact Or.inl ⟨rfl, hw⟩
      · exact Or.inr ⟨op, hnext, hw, watchNext_of_foreign_moves hid hop φ⟩
    refine ⟨hid', φ, ?_, hstep⟩
    exact inv_set hinv honce ht hid' hok' (fun h => absurd h hid) (fun _ => rfl)
      (tracks_of_stepMoves hinv.tracks hstep)

theorem inv_step {s s' : Server ρ} {e : Event} {φ : LPhase} (h : s.step D L e = some s')
    (hinv : Inv rid E φ s) (honce : occurrences rid s.threads + e.ids.count rid ≤ 1)
    (hE : e.Before E) :
    ∃ φ', Inv rid E φ' s' ∧ StepMoves L rid E φ φ' s e s' ∧
      occurrences rid s'.threads ≤ occurrences rid s.threads + e.ids.count rid := by
  have harrive : ∀ new : List Thread, (∀ t ∈ new, t.Ok E .fresh) →
      occurrences rid new ≤ e.ids.count rid → s' = { s with threads := s.threads ++ new } →
      ∃ φ', Inv rid E φ' s' ∧ StepMoves L rid E φ φ' s e s' ∧
        occurrences rid s'.threads ≤ occurrences rid s.threads + e.ids.count rid := by
    rintro new hnew hcount rfl
    refine ⟨φ, inv_append hinv (by omega) hnew, Or.inl ⟨rfl, rfl⟩, ?_⟩
    rw [occurrences, List.map_append, List.count_append]
    exact Nat.add_le_add_left hcount _
  cases e with
  | turn i c =>
    obtain ⟨t, ht, h⟩ := Option.bind_eq_some_iff.mp h
    obtain ⟨⟨t', w'⟩, hturn, h⟩ := Option.bind_eq_some_iff.mp h
    cases h
    have honce' : occurrences rid s.threads ≤ 1 := by omega
    obtain ⟨hid', φ', hinv', hstep⟩ := inv_turn hinv honce' hE ht hturn
    refine ⟨φ', hinv', hstep, ?_⟩
    rw [occurrences_set ht hid']
    exact Nat.le_add_right _ _
  | timeout i =>
    obtain ⟨t, ht, h⟩ := Option.bind_eq_some_iff.mp h
    obtain ⟨t', htimeout, h⟩ := Option.bind_eq_some_iff.mp h
    cases h
    obtain ⟨hid', hok'⟩ := thread_timeout_ok htimeout
    refine ⟨φ, inv_set hinv (by omega) ht hid' (hok' φ) (fun _ => rfl) (fun _ => rfl)
      hinv.tracks, Or.inl ⟨rfl, rfl⟩, ?_⟩
    rw [occurrences_set ht hid']
    exact Nat.le_add_right _ _
  | reload config =>
    cases h
    have hfind : (s.world.app.reloadConfig config).statusStore.find rid = s.world.find rid := by
      simp only [AppState.reloadConfig, World.find]
      cases s.world.app.statusStore <;> rfl
    refine ⟨φ, ⟨hinv.threads, hinv.owner, hinv.absent, ?_⟩, Or.inl ⟨rfl, hfind⟩,
      Nat.le_add_right _ _⟩
    change Tracks E φ ((s.world.app.reloadConfig config).statusStore.find rid)
    rw [hfind]
    exact hinv.tracks
  | _ => exact harrive _ (fun t => arrivals_ok) (occurrences_arrivals s _) (Option.some.inj h).symm

end ServerLife

end HttpSmtpRele
