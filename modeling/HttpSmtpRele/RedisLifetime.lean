import HttpSmtpRele.RedisGuards

/-!
# The lifetime of a key in Redis

Every write of a record sets the TTL of its key anew, to what is left until
`expires_at` in whole seconds, and at least one.  Each is computed from the
record, not from the TTL before it, so the roundings do not add up.
-/

namespace HttpSmtpRele

open RedisStatusStore

/-- A key with its value, and the instant at which Redis drops it. -/
structure RedisKey where
  value : SetEx
  deadline : DateTime

/-- A write to a record that is there. -/
inductive RedisUpdate
  | setRecipientMetadata (keyId : String) (domains : List Domain) (count : Nat)
  | updateStatus (keyId : String) (update : StatusUpdate)

/-- What the call sets, if its clock reads `now` throughout. -/
def RedisUpdate.act (S : RedisDeps) (u : RedisUpdate) (now : DateTime) (raw : String) :
    Option SetEx :=
  match u with
  | setRecipientMetadata keyId domains count =>
    RedisStatusStore.setRecipientMetadata S keyId domains count now now now (some (some raw))
  | updateStatus keyId update =>
    RedisStatusStore.updateStatus S keyId update now now now (some (some raw))

namespace RedisKey

variable (S : RedisDeps)

/-- `SET EX` at `now`; `none` if the call does not write. -/
def write (key : RedisKey) (u : RedisUpdate) (now : DateTime) : Option RedisKey :=
  (u.act S now key.value.json).map fun v => ⟨v, now + v.ttl * 1000000000⟩

/-- Writes at these instants, all of them successful. -/
def writes : RedisKey → List (RedisUpdate × DateTime) → Option RedisKey
  | key, [] => some key
  | key, w :: ws => (key.write S w.1 w.2).bind fun key' => writes key' ws

end RedisKey

/-- A whole number of seconds, and at least one, is no further than one second off. -/
theorem remaining_close {expiresAt now : Int} (h : now ≤ expiresAt) :
    expiresAt - 1000000000 ≤ now + remaining expiresAt now * 1000000000 ∧
      now + remaining expiresAt now * 1000000000 ≤ expiresAt + 1000000000 := by
  have hdiv : Int.tdiv (expiresAt - now) 1000000000 = (expiresAt - now) / 1000000000 :=
    Int.tdiv_eq_ediv_of_nonneg (by omega)
  have hnat : (remaining expiresAt now : Int) = max ((expiresAt - now) / 1000000000) 1 := by
    unfold remaining
    rw [hdiv]
    exact Int.toNat_of_nonneg (by omega)
  rw [hnat]
  omega

variable {S : RedisDeps}

/-- A write keeps `expires_at`, and takes the TTL from it. -/
theorem RedisUpdate.act_spec (hS : S.RoundTrip) {u : RedisUpdate} {now : DateTime} {raw : String}
    {r : SubmissionStatusRecord} {v : SetEx} (hread : S.fromJson raw = some r)
    (h : u.act S now raw = some v) :
    now ≤ r.expiresAt ∧ v.ttl = remaining r.expiresAt now ∧
      ∃ r', S.fromJson v.json = some r' ∧ r'.expiresAt = r.expiresAt := by
  cases u with
  | setRecipientMetadata keyId domains count =>
    simp only [act, RedisStatusStore.setRecipientMetadata, Option.getD_some, hread] at h
    split at h
    · rename_i hguard
      obtain ⟨json, hjson, rfl⟩ := Option.map_eq_some_iff.mp h
      exact ⟨SubmissionStatusRecord.isExpired_eq_false.mp hguard.2, rfl, _, hS _ _ hjson, rfl⟩
    · cases h
  | updateStatus keyId update =>
    simp only [act, RedisStatusStore.updateStatus, hread] at h
    split at h
    · cases h
    · rename_i hguard
      rw [not_or, not_or, Bool.not_eq_true] at hguard
      obtain ⟨json, hjson, rfl⟩ := Option.map_eq_some_iff.mp h
      exact ⟨SubmissionStatusRecord.isExpired_eq_false.mp hguard.2.1, rfl, _, hS _ _ hjson, rfl⟩

namespace RedisKey

/-- The deadline is that of a record which expires at `expiresAt`. -/
def Punctual (expiresAt : DateTime) (key : RedisKey) : Prop :=
  expiresAt - 1000000000 ≤ key.deadline ∧ key.deadline ≤ expiresAt + 1000000000

theorem write_spec (hS : S.RoundTrip) {key key' : RedisKey} {u : RedisUpdate} {now : DateTime}
    {r : SubmissionStatusRecord} (hread : S.fromJson key.value.json = some r)
    (h : key.write S u now = some key') :
    key'.Punctual r.expiresAt ∧
      ∃ r', S.fromJson key'.value.json = some r' ∧ r'.expiresAt = r.expiresAt := by
  obtain ⟨v, hv, rfl⟩ := Option.map_eq_some_iff.mp h
  obtain ⟨hnow, httl, hkept⟩ := RedisUpdate.act_spec hS hread hv
  refine ⟨?_, hkept⟩
  unfold Punctual
  rw [httl]
  exact remaining_close hnow

/-- After any successful writes the record still says when it expires, and the
deadline, if they set it, agrees. -/
theorem writes_spec (hS : S.RoundTrip) {key key' : RedisKey} {ws : List (RedisUpdate × DateTime)}
    {r : SubmissionStatusRecord} (hread : S.fromJson key.value.json = some r)
    (h : key.writes S ws = some key') :
    (ws ≠ [] ∨ key.Punctual r.expiresAt → key'.Punctual r.expiresAt) ∧
      ∃ r', S.fromJson key'.value.json = some r' ∧ r'.expiresAt = r.expiresAt := by
  induction ws generalizing key r with
  | nil =>
    cases h
    refine ⟨?_, r, hread, rfl⟩
    rintro (hne | hkey)
    · exact absurd rfl hne
    · exact hkey
  | cons w ws ih =>
    obtain ⟨next, hwrite, hrest⟩ := Option.bind_eq_some_iff.mp h
    obtain ⟨hpunctual, r', hread', hexp⟩ := write_spec hS hread hwrite
    rw [← hexp] at hpunctual ⊢
    obtain ⟨hlast, hkept⟩ := ih hread' hrest
    exact ⟨fun _ => hlast (Or.inr hpunctual), hkept⟩

end RedisKey

theorem RedisStatusStore.get_expired {keyId serdeError raw : String} {now : DateTime}
    {metrics : Metrics} {r : SubmissionStatusRecord} (hread : S.fromJson raw = some r)
    (h : r.expiresAt < now) :
    (RedisStatusStore.get S keyId now serdeError (.ok (some raw)) metrics).result = .ok none := by
  simp only [RedisStatusStore.get, hread]
  split
  · rfl
  · rw [if_pos (SubmissionStatusRecord.isExpired_eq_true.mpr h)]

/-- However many writes were made: the deadline of the key is within a second of
`expires_at`, and a `get` after `expires_at` finds nothing, whether or not Redis
has dropped the key. -/
theorem redis_lifetime_kept (hS : S.RoundTrip) {key key' : RedisKey} {r : SubmissionStatusRecord}
    {ws : List (RedisUpdate × DateTime)} (hread : S.fromJson key.value.json = some r)
    (hws : key.writes S ws = some key') :
    (ws ≠ [] → r.expiresAt - 1000000000 ≤ key'.deadline ∧
      key'.deadline ≤ r.expiresAt + 1000000000) ∧
      ∀ keyId now serdeError metrics, r.expiresAt < now →
        ∀ raw, raw = none ∨ raw = some key'.value.json →
          (RedisStatusStore.get S keyId now serdeError (.ok raw) metrics).result = .ok none := by
  obtain ⟨hpunctual, r', hread', hexp⟩ := RedisKey.writes_spec hS hread hws
  refine ⟨fun hne => hpunctual (Or.inl hne), ?_⟩
  rintro keyId now serdeError metrics hnow raw (rfl | rfl)
  · rfl
  · apply get_expired hread'
    rw [hexp]
    exact hnow

open RedisGuards BackendAgreement

/-- A record that expires at three seconds, and its texts: as it is put, and as three
writes at 0.4, 0.9 and 2.7 seconds leave it. -/
def lifeRecords : List (SubmissionStatusRecord × String) :=
  let addressed : SubmissionStatusRecord :=
    { sampleRecord with
      recipientDomains := [⟨"example.org"⟩]
      recipientCount := 1
      updatedAt := 400000000 }
  let started : SubmissionStatusRecord :=
    { addressed with status := .smtpSubmissionStarted, updatedAt := 900000000 }
  let accepted : SubmissionStatusRecord :=
    { started with status := .smtpAccepted, message := some "Accepted.", updatedAt := 2700000000 }
  [(sampleRecord, receivedJson),
    (addressed, jsonText "received" "Submission received." "[\"example.org\"]" "1"
      "1970-01-01T00:00:00.400Z"),
    (started, jsonText "smtp_submission_started" "Submission received." "[\"example.org\"]" "1"
      "1970-01-01T00:00:00.900Z"),
    (accepted, jsonText "smtp_accepted" "Accepted." "[\"example.org\"]" "1"
      "1970-01-01T00:00:02.700Z")]

def lifeJson : RedisDeps where
  toJson r := (lifeRecords.find? fun p => p.1 = r).map Prod.snd
  fromJson raw := (lifeRecords.find? fun p => p.2 = raw).map Prod.fst

theorem lifeJson_roundTrip : lifeJson.RoundTrip := by
  have hread : ∀ p ∈ lifeRecords, lifeJson.fromJson p.2 = some p.1 := by decide +kernel
  intro r raw h
  obtain ⟨p, hp, rfl⟩ := Option.map_eq_some_iff.mp h
  have hr : p.1 = r := by simpa using List.find?_some hp
  rw [hread p (List.mem_of_find?_eq_some hp), hr]

def lifeWrites : List (RedisUpdate × DateTime) :=
  [(.setRecipientMetadata "svc" [⟨"example.org"⟩] 1, 400000000),
    (.updateStatus "svc" ⟨.smtpSubmissionStarted, none, none⟩, 900000000),
    (.updateStatus "svc" ⟨.smtpAccepted, none, some "Accepted."⟩, 2700000000)]

/-- The deadline comes to 2.4 and 2.9 seconds, each cut down to a whole TTL, and to 3.7,
where the TTL is one and a `get` in between finds nothing. -/
theorem redis_lifetime_kept_accepted :
    ∃ first second last : RedisKey,
      (⟨⟨receivedJson, 3⟩, 3000000000⟩ : RedisKey).writes lifeJson (lifeWrites.take 1) =
        some first ∧ first.deadline = 2400000000 ∧
      (⟨⟨receivedJson, 3⟩, 3000000000⟩ : RedisKey).writes lifeJson (lifeWrites.take 2) =
        some second ∧ second.deadline = 2900000000 ∧
      (⟨⟨receivedJson, 3⟩, 3000000000⟩ : RedisKey).writes lifeJson lifeWrites = some last ∧
      last.deadline = 3700000000 ∧ last.deadline ≤ sampleRecord.expiresAt + 1000000000 ∧
      (RedisStatusStore.get lifeJson "svc" 3500000000 "" (.ok (some last.value.json))
        {}).result = .ok none := by
  have hends : (lifeWrites.inits.tail.map fun ws =>
      ((⟨⟨receivedJson, 3⟩, 3000000000⟩ : RedisKey).writes lifeJson ws).map
        RedisKey.deadline) = [some 2400000000, some 2900000000, some 3700000000] := by
    decide +kernel
  obtain ⟨hfirst, hends⟩ := List.cons.inj hends
  obtain ⟨hsecond, hends⟩ := List.cons.inj hends
  obtain ⟨hlast, -⟩ := List.cons.inj hends
  obtain ⟨first, hfirst, hfirst'⟩ := Option.map_eq_some_iff.mp hfirst
  obtain ⟨second, hsecond, hsecond'⟩ := Option.map_eq_some_iff.mp hsecond
  obtain ⟨last, hlast, hlast'⟩ := Option.map_eq_some_iff.mp hlast
  have hread : lifeJson.fromJson (⟨⟨receivedJson, 3⟩, 3000000000⟩ : RedisKey).value.json =
      some sampleRecord := by decide +kernel
  obtain ⟨hdeadline, hget⟩ := redis_lifetime_kept lifeJson_roundTrip hread hlast
  have hlate : sampleRecord.expiresAt < 3500000000 := by decide
  exact ⟨first, second, last, hfirst, hfirst', hsecond, hsecond', hlast, hlast',
    (hdeadline (List.cons_ne_nil _ _)).2,
    hget "svc" 3500000000 "" {} hlate (some last.value.json) (Or.inr rfl)⟩

end HttpSmtpRele
