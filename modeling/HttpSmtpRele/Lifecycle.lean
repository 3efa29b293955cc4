import HttpSmtpRele.Api.SendBulk

/-!
# The life of a submission record

`LPhase` is where a submission stands; `LPhase.step` the operations that may
come next and where they lead: received once, then rejected, or started and then
accepted or failed.  The handlers follow this automaton for the id they process
(`follows_sendMail`, `follows_phase1Prepare`, `follows_phase2Submit`), whatever
the answers to their operations are, and write no other record.

On the other side, `exec_tracks` says that the record in the store keeps up with
the automaton, up to a deadline `E` that no clock reading passes: if the record
is still held and expires no earlier than `E`, it says what the phase says.
-/

namespace HttpSmtpRele

/-- The id whose record the operation writes. -/
def Op.target : Op → Option RequestId
  | .putReceived record => some record.requestId
  | .setRecipientMetadata id _ _ _ => some id
  | .updateStatus id _ _ => some id
  | _ => none

/-- The operation of the cleanup task. -/
def Op.isSweep : Op → Bool
  | .expireOldRecords _ => true
  | _ => false

inductive LPhase
  | fresh
  | received (keyId : String)
  | started (keyId : String)
  | ended (keyId : String) (status : SubmissionStatus) (code : Option ErrorCode)
  deriving DecidableEq

namespace LPhase

/-- The status updates that may come in a phase. -/
def update (keyId : String) (u : StatusUpdate) : LPhase → Option LPhase
  | received k =>
    if k = keyId then
      match u.status with
      | .rejected => some (ended k .rejected u.code)
      | .smtpSubmissionStarted => some (started k)
      | _ => none
    else none
  | started k =>
    if k = keyId then
      match u.status with
      | .smtpAccepted => some (ended k .smtpAccepted u.code)
      | .smtpFailed => some (ended k .smtpFailed u.code)
      | _ => none
    else none
  | _ => none

/-- What an operation on the record of the submission does to its phase. -/
def step (φ : LPhase) : Op → Option LPhase
  | .putReceived record =>
    match φ with
    | fresh => if record.status = .received then some (received record.keyId) else none
    | _ => none
  | .setRecipientMetadata _ keyId _ _ =>
    match φ with
    | received k => if k = keyId then some φ else none
    | _ => none
  | .updateStatus _ keyId u => φ.update keyId u
  | _ => some φ

/-- The automaton of a program that works on `rid` and on no other record. -/
def messageNext (rid : RequestId) (φ : LPhase) (op : Op) : Option LPhase :=
  match op.target with
  | none => if op.isSweep then none else some φ
  | some id => if id = rid then φ.step op else none

/-- The automaton of a program that may also work on other records. -/
def watchNext (rid : RequestId) (φ : LPhase) (op : Op) : Option LPhase :=
  match op.target with
  | none => some φ
  | some id => if id = rid then φ.step op else some φ

/-- The record agrees with the phase. -/
def Agrees : LPhase → SubmissionStatusRecord → Prop
  | fresh, _ => False
  | received k, r => r.keyId = k ∧ r.status = .received
  | started k, r => r.keyId = k ∧ r.status = .smtpSubmissionStarted
  | ended k s c, r => r.keyId = k ∧ r.status = s ∧ r.code = c

/-- Nothing is held yet; or what is held, and expires no earlier than `E`, agrees. -/
structure Tracks (E : DateTime) (φ : LPhase) (o : Option SubmissionStatusRecord) : Prop where
  fresh : φ = .fresh → o = none
  agrees : ∀ r, o = some r → E ≤ r.expiresAt → Agrees φ r

theorem Tracks.mono {E : DateTime} {φ : LPhase} {o o' : Option SubmissionStatusRecord}
    (h : Tracks E φ o) (ho : o' = none ∨ o' = o) : Tracks E φ o' := by
  rcases ho with rfl | rfl
  · exact ⟨fun _ => rfl, fun r hr => nomatch hr⟩
  · exact h

/-- The status updates that may come, and where they lead. -/
theorem update_cases {φ φ' : LPhase} {keyId : String} {u : StatusUpdate}
    (h : φ.update keyId u = some φ') :
    (φ = .received keyId ∧ u.status = .rejected ∧ φ' = .ended keyId u.status u.code) ∨
      (φ = .received keyId ∧ u.status = .smtpSubmissionStarted ∧ φ' = .started keyId) ∨
      φ = .started keyId ∧ (u.status = .smtpAccepted ∨ u.status = .smtpFailed) ∧
        φ' = .ended keyId u.status u.code := by
  cases φ with
  | received k =>
    simp only [update] at h
    split at h
    · rename_i hkey
      subst hkey
      split at h
      · rename_i hu
        cases h
        exact Or.inl ⟨rfl, hu, by rw [hu]⟩
      · rename_i hu
        cases h
        exact Or.inr (Or.inl ⟨rfl, hu, rfl⟩)
      · cases h
    · cases h
  | started k =>
    simp only [update] at h
    split at h
    · rename_i hkey
      subst hkey
      split at h
      · rename_i hu
        cases h
        exact Or.inr (Or.inr ⟨rfl, Or.inl hu, by rw [hu]⟩)
      · rename_i hu
        cases h
        exact Or.inr (Or.inr ⟨rfl, Or.inr hu, by rw [hu]⟩)
      · cases h
    · cases h
  | _ => cases h

theorem update_ne_fresh {φ φ' : LPhase} {keyId : String} {u : StatusUpdate}
    (h : φ.update keyId u = some φ') : φ' ≠ .fresh := by
  rcases update_cases h with ⟨-, -, rfl⟩ | ⟨-, -, rfl⟩ | ⟨-, -, rfl⟩ <;> exact LPhase.noConfusion

theorem watchNext_of_target_ne {rid : RequestId} {op : Op} (h : op.target ≠ some rid)
    (φ : LPhase) : watchNext rid φ op = some φ := by
  unfold watchNext
  cases ht : op.target with
  | none => rfl
  | some id => exact if_neg fun hid => h (by rw [ht, hid])

/-- All that a watched operation can be and do. -/
theorem watchNext_acts {rid : RequestId} {φ φ' : LPhase} {op : Op}
    (h : watchNext rid φ op = some φ') :
    (op.target ≠ some rid ∧ φ' = φ) ∨
      (∃ record, op = .putReceived record ∧ record.requestId = rid ∧ φ = .fresh ∧
        record.status = .received ∧ φ' = .received record.keyId) ∨
      (∃ keyId domains count, op = .setRecipientMetadata rid keyId domains count ∧
        φ = .received keyId ∧ φ' = φ) ∨
      ∃ keyId u, op = .updateStatus rid keyId u ∧ φ.update keyId u = some φ' := by
  by_cases htarget : op.target = some rid
  · apply Or.inr
    unfold watchNext at h
    rw [htarget] at h
    simp only [if_true] at h
    cases op with
    | putReceived record =>
      cases φ with
      | fresh =>
        simp only [step] at h
        split at h
        · rename_i hstatus
          cases h
          exact Or.inl ⟨record, rfl, Option.some.inj htarget, rfl, hstatus, rfl⟩
        · cases h
      | _ => cases h
    | setRecipientMetadata id keyId domains count =>
      cases htarget
      simp only [step] at h
      split at h
      · split at h
        · rename_i hkey
          subst hkey
          exact Or.inr (Or.inl ⟨_, domains, count, rfl, rfl, (Option.some.inj h).symm⟩)
        · cases h
      · cases h
    | updateStatus id keyId u =>
      cases htarget
      exact Or.inr (Or.inr ⟨keyId, u, rfl, h⟩)
    | _ => cases htarget
  · rw [watchNext_of_target_ne htarget] at h
    exact Or.inl ⟨htarget, (Option.some.inj h).symm⟩

/-- The edges of the automaton. -/
theorem watchNext_cases {rid : RequestId} {φ φ' : LPhase} {op : Op}
    (h : watchNext rid φ op = some φ') :
    φ' = φ ∨ (∃ k, φ = .fresh ∧ φ' = .received k) ∨
      (∃ k c, φ = .received k ∧ φ' = .ended k .rejected c) ∨
      (∃ k, φ = .received k ∧ φ' = .started k) ∨
      ∃ k s c, φ = .started k ∧ φ' = .ended k s c ∧ (s = .smtpAccepted ∨ s = .smtpFailed) := by
  rcases watchNext_acts h with ⟨-, rfl⟩ | ⟨record, -, -, rfl, -, rfl⟩ |
    ⟨keyId, domains, count, -, -, rfl⟩ | ⟨keyId, u, -, hu⟩
  · exact Or.inl rfl
  · exact Or.inr (Or.inl ⟨_, rfl, rfl⟩)
  · exact Or.inl rfl
  · rcases update_cases hu with ⟨rfl, hstatus, rfl⟩ | ⟨rfl, -, rfl⟩ | ⟨rfl, hstatus, rfl⟩
    · rw [hstatus]
      exact Or.inr (Or.inr (Or.inl ⟨_, _, rfl, rfl⟩))
    · exact Or.inr (Or.inr (Or.inr (Or.inl ⟨_, rfl, rfl⟩)))
    · exact Or.inr (Or.inr (Or.inr (Or.inr ⟨_, _, _, rfl, rfl, hstatus⟩)))

/-! ## Records keep up with the phase -/

/-- A status update on a record that agrees with the phase takes it to the next. -/
theorem agrees_withStatus {E t₁ t₂ : DateTime} {φ φ' : LPhase} {keyId : String}
    {u : StatusUpdate} {r : SubmissionStatusRecord} (hn : φ.update keyId u = some φ')
    (hr : Agrees φ r) (ht : t₁ ≤ E) (hE : E ≤ r.expiresAt) :
    Agrees φ' (r.withStatus keyId u t₁ t₂) := by
  have hupd : r.keyId = keyId → r.status.isTerminal = false → r.Updatable keyId t₁ :=
    fun hk hs => SubmissionStatusRecord.updatable_iff.mpr ⟨hk, le_trans ht hE, hs⟩
  have hresult : r.keyId = keyId → r.status.isTerminal = false →
      (r.withStatus keyId u t₁ t₂).keyId = r.keyId ∧
        (r.withStatus keyId u t₁ t₂).status = u.status ∧
        (r.withStatus keyId u t₁ t₂).code = u.code := by
    intro hk hs
    rw [SubmissionStatusRecord.withStatus, if_pos (hupd hk hs)]
    exact ⟨rfl, rfl, rfl⟩
  rcases update_cases hn with ⟨rfl, -, rfl⟩ | ⟨rfl, hu, rfl⟩ | ⟨rfl, -, rfl⟩
  · obtain ⟨hk, hs⟩ := hr
    obtain ⟨h₁, h₂, h₃⟩ := hresult hk (by rw [hs]; rfl)
    exact ⟨h₁.trans hk, h₂, h₃⟩
  · obtain ⟨hk, hs⟩ := hr
    obtain ⟨h₁, h₂, -⟩ := hresult hk (by rw [hs]; rfl)
    exact ⟨h₁.trans hk, h₂.trans hu⟩
  · obtain ⟨hk, hs⟩ := hr
    obtain ⟨h₁, h₂, h₃⟩ := hresult hk (by rw [hs]; rfl)
    exact ⟨h₁.trans hk, h₂, h₃⟩

theorem agrees_withRecipientMetadata {φ : LPhase} {keyId : String} {domains : List Domain}
    {count : Nat} {t₁ t₂ : DateTime} {r : SubmissionStatusRecord} (hr : Agrees φ r) :
    Agrees φ (r.withRecipientMetadata keyId domains count t₁ t₂) := by
  have hsame : (r.withRecipientMetadata keyId domains count t₁ t₂).keyId = r.keyId ∧
      (r.withRecipientMetadata keyId domains count t₁ t₂).status = r.status ∧
      (r.withRecipientMetadata keyId domains count t₁ t₂).code = r.code := by
    unfold SubmissionStatusRecord.withRecipientMetadata
    split <;> exact ⟨rfl, rfl, rfl⟩
  obtain ⟨h₁, h₂, h₃⟩ := hsame
  cases φ with
  | fresh => exact hr
  | received k => exact ⟨h₁.trans hr.1, h₂.trans hr.2⟩
  | started k => exact ⟨h₁.trans hr.1, h₂.trans hr.2⟩
  | ended k s c => exact ⟨h₁.trans hr.1, h₂.trans hr.2.1, h₃.trans hr.2.2⟩

end LPhase

/-- The rest of a record's life, seen from outside: an operation that does not
write it leaves it or removes it. -/
theorem find_exec_of_target_ne {ρ : Type} {L : Limiter ρ} {op : Op} {c : Choice} {w : World ρ}
    {rid : RequestId} (h : op.target ≠ some rid) :
    (exec L op c w).2.find rid = none ∨ (exec L op c w).2.find rid = w.find rid := by
  have hstore : ∀ f : InMemoryStatusStore → InMemoryStatusStore,
      (∀ s, (f s).find rid = none ∨ (f s).find rid = s.find rid) →
        (w.updateStore f).find rid = none ∨ (w.updateStore f).find rid = w.find rid := by
    intro f hf
    rw [find_updateStore, World.find]
    cases w.app.statusStore with
    | noop => exact Or.inl rfl
    | memory s => exact hf s
  cases op with
  | putReceived record =>
    refine hstore _ fun s => InMemoryStatusStore.find_putReceived_ne c.order s fun he => h ?_
    rw [he, Op.target]
  | setRecipientMetadata id keyId domains count =>
    refine hstore _ fun s => Or.inr ?_
    have hne : rid ≠ id := fun he => h (by rw [he, Op.target])
    rw [InMemoryStatusStore.find_setRecipientMetadata, if_neg hne]
  | updateStatus id keyId update =>
    refine hstore _ fun s => Or.inr ?_
    have hne : rid ≠ id := fun he => h (by rw [he, Op.target])
    rw [InMemoryStatusStore.find_updateStatus, if_neg hne]
  | getExpire id =>
    apply hstore _
    intro s
    rw [InMemoryStatusStore.find_getExpire]
    split
    · cases s.find rid with
      | none => exact Or.inl rfl
      | some r => cases he : r.isExpired c.utc <;> simp [Option.filter_some, he]
    · exact Or.inr rfl
  | expireOldRecords now =>
    exact hstore _ fun s => InMemoryStatusStore.find_expireOldRecords c.order s now rid
  | _ => exact Or.inr rfl

open LPhase in
/-- A write that keeps when the record expires takes it to the next phase. -/
theorem LPhase.Tracks.map {E : DateTime} {φ φ' : LPhase} {o : Option SubmissionStatusRecord}
    {f : SubmissionStatusRecord → SubmissionStatusRecord} (h : Tracks E φ o)
    (hfresh : φ' ≠ .fresh) (hexpires : ∀ r, (f r).expiresAt = r.expiresAt)
    (hf : ∀ r, Agrees φ r → E ≤ r.expiresAt → Agrees φ' (f r)) : Tracks E φ' (o.map f) := by
  constructor
  · intro he
    exact absurd he hfresh
  · intro r hr hexp
    obtain ⟨r₀, hr₀, rfl⟩ := Option.map_eq_some_iff.mp hr
    rw [hexpires r₀] at hexp
    exact hf r₀ (h.agrees r₀ hr₀ hexp) hexp

open LPhase in
/-- One operation of the automaton: the record keeps up, while no clock reading
passes the deadline. -/
theorem exec_tracks {ρ : Type} {L : Limiter ρ} {op : Op} {c : Choice} {w : World ρ}
    {rid : RequestId} {E : DateTime} {φ φ' : LPhase} (hn : watchNext rid φ op = some φ')
    (hT : Tracks E φ (w.find rid)) (hE : c.utc ≤ E) :
    Tracks E φ' ((exec L op c w).2.find rid) := by
  rcases watchNext_acts hn with ⟨htarget, rfl⟩ | ⟨record, rfl, rfl, rfl, hstatus, rfl⟩ |
    ⟨keyId, domains, count, rfl, rfl, rfl⟩ | ⟨keyId, u, rfl, hu⟩
  · exact hT.mono (find_exec_of_target_ne htarget)
  · have hput := find_putReceived_fresh c.order (hT.fresh rfl)
    simp only [exec, hput]
    refine ⟨LPhase.noConfusion, fun r hr _ => ?_⟩
    cases hst : w.app.statusStore with
    | noop => simp [hst] at hr
    | memory s =>
      rw [hst] at hr
      cases hr
      exact ⟨rfl, hstatus⟩
  · simp only [exec, find_setRecipientMetadata_self]
    apply hT.map LPhase.noConfusion
    · intro r
      exact SubmissionStatusRecord.expiresAt_withRecipientMetadata ..
    · intro r hr _
      exact agrees_withRecipientMetadata hr
  · simp only [exec, find_updateStatus_self]
    apply hT.map (update_ne_fresh hu)
    · intro r
      exact SubmissionStatusRecord.expiresAt_withStatus ..
    · intro r hr hexp
      exact agrees_withStatus hu hr hE hexp

/-! ## A program among others -/

/-- A program that works on `rid` only takes the steps watched for `rid`. -/
theorem watchNext_of_messageNext {rid : RequestId} {φ φ' : LPhase} {op : Op}
    (h : LPhase.messageNext rid φ op = some φ') : LPhase.watchNext rid φ op = some φ' := by
  unfold LPhase.messageNext at h
  unfold LPhase.watchNext
  cases ht : op.target with
  | none =>
    simp only [ht] at h
    split at h
    · cases h
    · exact h
  | some id =>
    rw [ht] at h
    by_cases hid : id = rid
    · simpa [hid] using h
    · simp [hid] at h

/-- A program that works on another id leaves every phase of `rid` alone. -/
theorem watchNext_of_foreign {rid rid' : RequestId} {φ φ' : LPhase} {op : Op} (hne : rid' ≠ rid)
    (h : LPhase.messageNext rid' φ op = some φ') (ψ : LPhase) :
    LPhase.watchNext rid ψ op = some ψ := by
  apply LPhase.watchNext_of_target_ne
  intro ht
  rw [LPhase.messageNext, ht] at h
  simp [hne.symm] at h

theorem follows_watch {α : Type} {rid : RequestId} {Q : α → LPhase → Prop} {φ : LPhase}
    {p : RelayM α} (h : Prog.Follows (LPhase.messageNext rid) Q φ p) :
    Prog.Follows (LPhase.watchNext rid) Q φ p := by
  refine (h.simulate (R := Eq) ?_ rfl).mono fun a ψ ⟨φ', hφ, hQ⟩ => hφ ▸ hQ
  rintro φ ψ op φ' rfl hn
  exact ⟨φ', watchNext_of_messageNext hn, rfl⟩

end HttpSmtpRele
