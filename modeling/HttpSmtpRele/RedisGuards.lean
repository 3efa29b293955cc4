import HttpSmtpRele.BackendAgreement
import HttpSmtpRele.StatusRedis

/-!
# Concurrent writes to the Redis store

Any number of instances, their calls for one request id interleaved command by
command, any command failing, and the key expiring at any moment.  The guards
of the write methods are checks followed by an act: they hold in a run exactly
if they hold wherever a `SET EX` lands over a value that was stored after the
call's own read, or that its failed `EXISTS` did not report.
-/

namespace HttpSmtpRele

open RedisStatusStore CheckThenAct

/-- A write call, with the clock readings it will make. -/
inductive RedisCall
  | putReceived (ttlSeconds : Nat) (record : SubmissionStatusRecord)
  | setRecipientMetadata (keyId : String) (domains : List Domain) (count : Nat)
      (checkedAt now remainingAt : DateTime)
  | updateStatus (keyId : String) (update : StatusUpdate)
      (checkedAt now remainingAt : DateTime)

namespace RedisCall

def isPut : RedisCall → Bool
  | putReceived _ _ => true
  | _ => false

/-- What the call sets, given what the key holds; `none` where its read fails. -/
def act (S : RedisDeps) (c : RedisCall) (answer : Option (Option SetEx)) : Option SetEx :=
  match c with
  | putReceived ttlSeconds record =>
    RedisStatusStore.putReceived S ttlSeconds record (answer.map Option.isSome)
  | setRecipientMetadata keyId domains count t₁ t₂ t₃ =>
    RedisStatusStore.setRecipientMetadata S keyId domains count t₁ t₂ t₃
      (answer.map (Option.map SetEx.json))
  | updateStatus keyId update t₁ t₂ t₃ =>
    RedisStatusStore.updateStatus S keyId update t₁ t₂ t₃ (answer.map (Option.map SetEx.json))

/-- A put replaces nothing; no call changes the outcome of a terminal record. -/
def Permits (S : RedisDeps) (c : RedisCall) (cell : Option SetEx) (v : SetEx) : Prop :=
  (c.isPut = true → cell = none) ∧
    ∀ v₀, cell = some v₀ → Terminal S v₀ → outcome S v = outcome S v₀

end RedisCall

/-- The calls on the key of one request id. -/
def redisCalls (S : RedisDeps) : CheckThenAct RedisCall SetEx where
  act := RedisCall.act S
  Permits := RedisCall.Permits S

theorem redisCalls_sound {S : RedisDeps} (hS : S.RoundTrip) : (redisCalls S).Sound where
  checked := by
    intro c cell v h
    cases c with
    | putReceived ttlSeconds record =>
      have hfound := putReceived_eq_some (S := S) h
      have hnone : cell = none := by
        cases cell with
        | none => rfl
        | some v₀ => exact absurd rfl hfound
      subst hnone
      exact ⟨fun _ => rfl, fun v₀ hv₀ => by cases hv₀⟩
    | setRecipientMetadata keyId domains count t₁ t₂ t₃ =>
      obtain ⟨v₀, rfl, hsame⟩ := outcome_setRecipientMetadata hS h
      refine ⟨fun hput => (by cases hput), fun v₁ hv₁ _ => ?_⟩
      rw [hsame, Option.some.inj hv₁]
    | updateStatus keyId update t₁ t₂ t₃ =>
      obtain ⟨v₀, rfl, hnot⟩ := not_terminal_of_updateStatus h
      refine ⟨fun hput => (by cases hput), fun v₁ hv₁ hterm => ?_⟩
      rw [← Option.some.inj hv₁] at hterm
      exact absurd hterm hnot
  empty := by
    intro c v
    exact ⟨fun _ => rfl, fun v₀ hv₀ => by cases hv₀⟩

/-! ## Guards over a run -/

abbrev RedisWorld := CheckThenAct.World RedisCall SetEx

abbrev RedisEvent := CheckThenAct.Event RedisCall

/-- In one step no put replaces a record, and the outcome of a terminal record stays for as
long as the key is there. -/
structure GuardedStep (S : RedisDeps) (w : RedisWorld) (e : RedisEvent) : Prop where
  insertOnly : ∀ i p, e = .write i true → w.pending[i]? = some p → p.call.isPut = true →
    w.cell = none
  final : ∀ v, w.cell = some v → Terminal S v →
    ∀ v', ((redisCalls S).step w e).cell = some v' → outcome S v' = outcome S v

/-- A `SET EX` that lands over a value which the call's read did not report belongs to no put,
and does not land on a terminal record of another outcome. -/
def UndisturbedStep (S : RedisDeps) (w : RedisWorld) (e : RedisEvent) : Prop :=
  ∀ i p, e = .write i true → w.pending[i]? = some p → Overtaken w p →
    p.call.isPut = false ∧
      ∀ v, w.cell = some v → Terminal S v → outcome S p.value = outcome S v

theorem guardedStep_iff {S : RedisDeps} {w : RedisWorld} {e : RedisEvent} :
    GuardedStep S w e ↔
      OnWrite (fun w p => (redisCalls S).Permits p.call w.cell p.value) w e := by
  constructor
  · intro h
    cases e with
    | write i lands =>
      cases lands with
      | true =>
        intro p hp
        refine ⟨fun hput => h.insertOnly i p rfl hp hput, fun v hv hterm => ?_⟩
        apply h.final v hv hterm p.value
        simp [step, hp]
      | false => trivial
    | read call answered => trivial
    | vanish => trivial
  · intro h
    constructor
    · rintro i p rfl hp hput
      exact (h p hp).1 hput
    · intro v hv hterm v' hv'
      rcases cell_step hv' with hsame | ⟨i, p, rfl, hp, rfl⟩
      · rw [Option.some.inj (hsame.symm.trans hv)]
      · exact (h p hp).2 v hv hterm

theorem undisturbedStep_iff {S : RedisDeps} {w : RedisWorld} {e : RedisEvent} :
    UndisturbedStep S w e ↔
      OnWrite (fun w p => Overtaken w p → (redisCalls S).Permits p.call w.cell p.value) w e := by
  constructor
  · intro h
    cases e with
    | write i lands =>
      cases lands with
      | true =>
        intro p hp hover
        obtain ⟨hnot, hsame⟩ := h i p rfl hp hover
        refine ⟨fun hput => ?_, hsame⟩
        rw [hnot] at hput
        cases hput
      | false => trivial
    | read call answered => trivial
    | vanish => trivial
  · rintro h i p rfl hp hover
    obtain ⟨hput, hsame⟩ := h p hp hover
    refine ⟨?_, hsame⟩
    by_contra hne
    have hempty := hput (Bool.not_eq_false _ ▸ hne)
    have hpresent := hover.1
    rw [hempty] at hpresent
    cases hpresent

/-- The guards hold throughout a run exactly if it is undisturbed. -/
theorem redis_guards_iff {S : RedisDeps} (hS : S.RoundTrip) (cell : Option SetEx)
    (es : List RedisEvent) :
    (redisCalls S).Throughout (GuardedStep S) (.init cell) es ↔
      (redisCalls S).Throughout (UndisturbedStep S) (.init cell) es := by
  have h := (redisCalls_sound hS).permitted_iff es (inv_init cell)
  rwa [← throughout_congr (fun _ _ => guardedStep_iff),
    ← throughout_congr (fun _ _ => undisturbedStep_iff)] at h

/-! ## Three races -/

namespace RedisGuards

open BackendAgreement

def acceptedRecord : SubmissionStatusRecord :=
  { sampleRecord with
    status := .smtpAccepted
    message := some "Accepted."
    updatedAt := 1000000000 }

def addressedRecord : SubmissionStatusRecord :=
  { sampleRecord with
    recipientDomains := [⟨"example.org"⟩]
    recipientCount := 1
    updatedAt := 1000000000 }

/-- The text of a record of `sampleUlid` that expires after three seconds. -/
def jsonText (status message domains count updated : String) : String :=
  "\x7b\"request_id\":\"req_01ARZ3NDEKTSV4RRFFQ69G5FAV\",\"key_id\":\"svc\",\"status\":\"" ++
    (status ++ ("\",\"code\":null,\"message\":\"" ++ (message ++
      ("\",\"recipient_domains\":" ++ (domains ++ (",\"recipient_count\":" ++ (count ++
        (",\"created_at\":\"1970-01-01T00:00:00Z\",\"updated_at\":\"" ++ (updated ++
          "\",\"expires_at\":\"1970-01-01T00:00:03Z\"\x7d")))))))))

def receivedJson : String :=
  jsonText "received" "Submission received." "[]" "0" "1970-01-01T00:00:00Z"

def acceptedJson : String := jsonText "smtp_accepted" "Accepted." "[]" "0" "1970-01-01T00:00:01Z"

def addressedJson : String :=
  jsonText "received" "Submission received." "[\"example.org\"]" "1" "1970-01-01T00:00:01Z"

def sampleJson : RedisDeps where
  toJson r :=
    if r = sampleRecord then some receivedJson
    else if r = acceptedRecord then some acceptedJson
    else if r = addressedRecord then some addressedJson
    else none
  fromJson raw :=
    if raw = receivedJson then some sampleRecord
    else if raw = acceptedJson then some acceptedRecord
    else if raw = addressedJson then some addressedRecord
    else none

theorem append_ne {pre s t : String} (h : s ≠ t) : pre ++ s ≠ pre ++ t := by
  intro he
  have hlist := congrArg String.toList he
  rw [String.toList_append, String.toList_append] at hlist
  exact h (String.toList_injective (List.append_cancel_left hlist))

theorem head_ne {s t u v : String} (h : s.toList.head? ≠ t.toList.head?)
    (hs : s.toList ≠ []) (ht : t.toList ≠ []) : s ++ u ≠ t ++ v := by
  intro he
  have hlist := congrArg (fun x : String => x.toList.head?) he
  simp only [String.toList_append] at hlist
  rw [List.head?_append_of_ne_nil _ hs, List.head?_append_of_ne_nil _ ht] at hlist
  exact h hlist

theorem acceptedJson_ne : acceptedJson ≠ receivedJson :=
  append_ne (head_ne (by decide) (by decide) (by decide))

theorem addressedJson_ne_received : addressedJson ≠ receivedJson := by
  refine append_ne (append_ne (append_ne (append_ne (append_ne ?_))))
  show "[" ++ ("\"example.org\"]" ++ _) ≠ "[" ++ ("]" ++ _)
  exact append_ne (head_ne (by decide) (by decide) (by decide))

theorem addressedJson_ne_accepted : addressedJson ≠ acceptedJson :=
  append_ne (head_ne (by decide) (by decide) (by decide))

theorem acceptedRecord_ne : acceptedRecord ≠ sampleRecord := fun h => by
  cases congrArg SubmissionStatusRecord.status h

theorem addressedRecord_ne : addressedRecord ≠ sampleRecord ∧ addressedRecord ≠ acceptedRecord :=
  ⟨fun h => (by cases congrArg SubmissionStatusRecord.recipientCount h),
    fun h => (by cases congrArg SubmissionStatusRecord.status h)⟩

theorem fromJson_received : sampleJson.fromJson receivedJson = some sampleRecord := by
  simp [sampleJson]

theorem fromJson_accepted : sampleJson.fromJson acceptedJson = some acceptedRecord := by
  simp [sampleJson, acceptedJson_ne]

theorem fromJson_addressed : sampleJson.fromJson addressedJson = some addressedRecord := by
  simp [sampleJson, addressedJson_ne_received, addressedJson_ne_accepted]

theorem toJson_sample : sampleJson.toJson sampleRecord = some receivedJson := by
  simp [sampleJson]

theorem toJson_accepted : sampleJson.toJson acceptedRecord = some acceptedJson := by
  simp [sampleJson, acceptedRecord_ne]

theorem toJson_addressed : sampleJson.toJson addressedRecord = some addressedJson := by
  simp [sampleJson, addressedRecord_ne]

theorem sampleJson_roundTrip : sampleJson.RoundTrip := by
  intro r raw h
  have hcases : r = sampleRecord ∨ r = acceptedRecord ∨ r = addressedRecord := by
    by_contra hnot
    rw [not_or, not_or] at hnot
    simp [sampleJson, hnot] at h
  rcases hcases with rfl | rfl | rfl
  · rw [toJson_sample] at h
    rw [← Option.some.inj h, fromJson_received]
  · rw [toJson_accepted] at h
    rw [← Option.some.inj h, fromJson_accepted]
  · rw [toJson_addressed] at h
    rw [← Option.some.inj h, fromJson_addressed]

def put : RedisCall := .putReceived 3 sampleRecord

def accept : RedisCall :=
  .updateStatus "svc" ⟨.smtpAccepted, none, some "Accepted."⟩ 1000000000 1000000000 1000000000

def address : RedisCall :=
  .setRecipientMetadata "svc" [⟨"example.org"⟩] 1 1000000000 1000000000 1000000000

theorem act_put : put.act sampleJson (some none) = some ⟨receivedJson, 3⟩ := by
  simp [put, RedisCall.act, RedisStatusStore.putReceived, toJson_sample]

theorem act_put_found (v : SetEx) : put.act sampleJson (some (some v)) = none := rfl

theorem act_put_unanswered : put.act sampleJson none = some ⟨receivedJson, 3⟩ := by
  simp [put, RedisCall.act, RedisStatusStore.putReceived, toJson_sample]

theorem act_accept : accept.act sampleJson (some (some ⟨receivedJson, 3⟩)) =
    some ⟨acceptedJson, 2⟩ := by
  have hguard : ¬(sampleRecord.keyId ≠ "svc" ∨ sampleRecord.isExpired 1000000000 = true ∨
      sampleRecord.status.isTerminal = true) := by decide
  simp only [accept, RedisCall.act, RedisStatusStore.updateStatus, Option.map_some,
    fromJson_received, if_neg hguard]
  exact congrArg (Option.map fun json => (⟨json, 2⟩ : SetEx)) toJson_accepted

theorem act_address : address.act sampleJson (some (some ⟨receivedJson, 3⟩)) =
    some ⟨addressedJson, 2⟩ := by
  have hguard : sampleRecord.keyId = "svc" ∧ sampleRecord.isExpired 1000000000 = false := by decide
  simp only [address, RedisCall.act, RedisStatusStore.setRecipientMetadata, Option.map_some,
    Option.getD_some, fromJson_received, if_pos hguard]
  exact congrArg (Option.map fun json => (⟨json, 2⟩ : SetEx)) toJson_addressed

/-- Two instances put the same id. -/
def racingPuts : List RedisEvent :=
  [.read put true, .read put true, .write 0 true, .write 0 true]

/-- The metadata of a record is written back after its status has become final. -/
def lateMetadata : List RedisEvent :=
  [.read put true, .write 0 true, .read address true, .read accept true, .write 1 true,
    .write 0 true]

/-- A put whose `EXISTS` fails. -/
def failedExists : List RedisEvent :=
  [.read put true, .write 0 true, .read accept true, .write 0 true, .read put false,
    .write 0 true]

/-- One call after the other, with a failed `GET` and a lost `SET EX`. -/
def oneByOne : List RedisEvent :=
  [.read put true, .write 0 true, .read put true, .read address true, .write 0 false,
    .read address true, .write 0 true, .read accept false]

end RedisGuards

open RedisGuards

theorem redis_guards_race :
    ¬(redisCalls sampleJson).Throughout (GuardedStep sampleJson) (.init none) racingPuts ∧
      ¬(redisCalls sampleJson).Throughout (GuardedStep sampleJson) (.init none) lateMetadata ∧
      ¬(redisCalls sampleJson).Throughout (GuardedStep sampleJson) (.init none) failedExists := by
  have hput : put.isPut = true := rfl
  have haccepted : Terminal sampleJson ⟨acceptedJson, 2⟩ :=
    ⟨acceptedRecord, fromJson_accepted, rfl⟩
  refine ⟨fun h => ?_, fun h => ?_, fun h => ?_⟩
  all_goals
    rw [throughout_congr fun _ _ => guardedStep_iff] at h
  · simp [racingPuts, Throughout, OnWrite, step, redisCalls, RedisCall.Permits,
      CheckThenAct.World.init, act_put, hput] at h
  · simp [lateMetadata, Throughout, OnWrite, step, redisCalls, RedisCall.Permits,
      CheckThenAct.World.init, act_put, act_address, act_accept, haccepted, outcome, fromJson_accepted,
      fromJson_addressed] at h
    have hstatus := h.2.2.1
    cases hstatus
  · simp [failedExists, Throughout, OnWrite, step, redisCalls, RedisCall.Permits,
      CheckThenAct.World.init, act_put, act_put_unanswered, act_accept, hput] at h

/-- One call after the other, with a failed `GET` and a lost `SET EX`. -/
theorem redis_guards_one_by_one :
    (redisCalls sampleJson).Throughout (GuardedStep sampleJson) (.init none) oneByOne := by
  apply (redis_guards_iff sampleJson_roundTrip none oneByOne).mpr
  rw [throughout_congr fun _ _ => undisturbedStep_iff]
  simp [oneByOne, Throughout, OnWrite, Overtaken, step, redisCalls, CheckThenAct.World.init,
    act_put, act_put_found, act_address]

end HttpSmtpRele
