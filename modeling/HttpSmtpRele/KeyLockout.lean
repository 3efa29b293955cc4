import HttpSmtpRele.BucketEnvelope
import HttpSmtpRele.ConfigValidate

/-!
# Keys that are locked out

A bucket with a positive rate fills again, and `retry_after_secs` is long enough
to wait.  One whose rate is zero is empty for ever once its burst is used up.
`0` reaches the bucket as an override that is `Some(0)` or as the default.
-/

namespace HttpSmtpRele

namespace TokenBucket

/-- The bucket has this rate and burst, and no debts. -/
structure Sized (b : TokenBucket) (perMinute burst : Nat) : Prop where
  capacity : b.capacity = burst
  rate : b.tokensPerSec = perMinute / 60
  nonneg : 0 ≤ b.tokens

variable {b : TokenBucket} {perMinute burst : Nat} {now : Instant}

theorem new_sized (perMinute burst : Nat) (now : Instant) :
    (new perMinute burst now).Sized perMinute burst :=
  ⟨rfl, rfl, Nat.cast_nonneg burst⟩

theorem Sized.refill (h : b.Sized perMinute burst) (now : Instant) :
    (b.refill now).Sized perMinute burst := by
  refine ⟨h.capacity, h.rate, ?_⟩
  have hrate : 0 ≤ b.tokensPerSec := by
    rw [h.rate]
    exact div_nonneg (Nat.cast_nonneg perMinute) (by norm_num)
  have hadded : 0 ≤ seconds (now - b.lastRefill) * b.tokensPerSec :=
    mul_nonneg (seconds_nonneg _) hrate
  have hcap : 0 ≤ b.capacity := by
    rw [h.capacity]
    exact Nat.cast_nonneg burst
  exact le_min (add_nonneg h.nonneg hadded) hcap

theorem Sized.tryConsume (h : b.Sized perMinute burst) (now : Instant) :
    (b.tryConsume now).2.Sized perMinute burst := by
  have hrefill := h.refill now
  by_cases hfull : 1 ≤ (b.refill now).tokens
  · rw [tryConsume_of_full hfull]
    exact ⟨hrefill.capacity, hrefill.rate, sub_nonneg.mpr hfull⟩
  · rw [tryConsume_of_empty hfull]
    exact hrefill

/-- The wait is long enough for what is missing. -/
theorem le_wait_mul {missing rate : ℚ} (hrate : 0 < rate) (hfits : missing / rate ≤ u64Max) :
    missing ≤ wait missing rate * rate := by
  have hceil : missing / rate ≤ (wait missing rate : ℚ) := by
    unfold wait
    rw [if_neg hrate.ne', Nat.cast_min]
    refine le_min ?_ hfits
    have hle : missing / rate ≤ (⌈missing / rate⌉ : ℚ) := Int.le_ceil _
    have hnat : ((⌈missing / rate⌉ : Int) : ℚ) ≤ ((⌈missing / rate⌉.toNat : Nat) : ℚ) := by
      exact_mod_cast Int.self_le_toNat _
    exact hle.trans hnat
  exact (div_le_iff₀ hrate).mp hceil

/-- After the advertised wait a call succeeds, if there was none in between. -/
theorem isOk_after_wait (h : b.Sized perMinute burst) (hrate : 0 < perMinute) (hburst : 0 < burst)
    {retryAfter : Nat} (hrefused : (b.tryConsume now).1 = .error retryAfter) {later : Instant}
    (hlater : now + retryAfter * 1000000000 ≤ later) :
    ((b.tryConsume now).2.tryConsume later).1.isOk = true := by
  have hempty : ¬1 ≤ (b.refill now).tokens := by
    intro hfull
    rw [tryConsume_of_full hfull] at hrefused
    cases hrefused
  have hsized := h.refill now
  rw [tryConsume_of_empty hempty] at hrefused ⊢
  have hretry : wait (1 - (b.refill now).tokens) (b.refill now).tokensPerSec ≤ retryAfter := by
    rw [← Except.error.inj hrefused]
    exact le_max_left _ _
  rw [isOk_tryConsume_iff]
  have hperSec : (0 : ℚ) < (b.refill now).tokensPerSec := by
    rw [hsized.rate]
    exact div_pos (Nat.cast_pos.mpr hrate) (by norm_num)
  have helapsed : (retryAfter : ℚ) ≤ seconds (later - (b.refill now).lastRefill) := by
    have hspan : retryAfter * 1000000000 ≤ later - now := Nat.le_sub_of_add_le' hlater
    have hcast : ((retryAfter * 1000000000 : Nat) : ℚ) ≤ ((later - now : Nat) : ℚ) :=
      Nat.cast_le.mpr hspan
    push_cast at hcast
    show (retryAfter : ℚ) ≤ ((later - now : Nat) : ℚ) / 1000000000
    rw [le_div_iff₀ (by norm_num)]
    exact hcast
  have hmissing : 1 - (b.refill now).tokens ≤
      wait (1 - (b.refill now).tokens) (b.refill now).tokensPerSec *
        (b.refill now).tokensPerSec := by
    apply le_wait_mul hperSec
    -- at most one token is missing, and there is one a minute at least
    have hone : (1 : ℚ) ≤ perMinute := by exact_mod_cast hrate
    have hnonneg := hsized.nonneg
    rw [div_le_iff₀ hperSec, hsized.rate]
    have hmax : (60 : ℚ) ≤ u64Max := by
      unfold u64Max
      norm_num
    have : (60 : ℚ) * (perMinute / 60) ≤ u64Max * (perMinute / 60) :=
      mul_le_mul_of_nonneg_right hmax (div_nonneg (Nat.cast_nonneg _) (by norm_num))
    linarith
  refine le_min ?_ ?_
  · have hwaited : (wait (1 - (b.refill now).tokens) (b.refill now).tokensPerSec : ℚ) ≤
        seconds (later - (b.refill now).lastRefill) :=
      (Nat.cast_le.mpr hretry).trans helapsed
    have := mul_le_mul_of_nonneg_right hwaited hperSec.le
    linarith
  · show (1 : ℚ) ≤ (b.refill now).capacity
    rw [hsized.capacity]
    exact_mod_cast hburst

/-- `n` of the burst are used up, and the rate is zero. -/
def drained (burst n : Nat) (lastRefill : Instant) : TokenBucket where
  capacity := burst
  tokensPerSec := 0
  tokens := burst - n
  lastRefill := lastRefill

/-- A bucket whose rate is zero gets nothing back. -/
theorem refill_drained (burst n : Nat) (last now : Instant) :
    (drained burst n last).refill now = drained burst n now := by
  have hle : ((burst : ℚ) - n) ≤ burst := sub_le_self _ (Nat.cast_nonneg n)
  have htokens : min ((burst : ℚ) - n + seconds (now - last) * 0) burst = burst - n := by
    rw [mul_zero, add_zero, min_eq_left hle]
  exact congrArg (fun tokens => (⟨burst, 0, tokens, now⟩ : TokenBucket)) htokens

theorem tryConsume_drained {burst n : Nat} (h : n < burst) (last now : Instant) :
    (drained burst n last).tryConsume now = (.ok (), drained burst (n + 1) now) := by
  have hfull : 1 ≤ ((drained burst n last).refill now).tokens := by
    have hcast : (n : ℚ) + 1 ≤ burst := by exact_mod_cast h
    rw [refill_drained]
    show (1 : ℚ) ≤ burst - n
    linarith
  rw [tryConsume_of_full hfull, refill_drained]
  have htokens : (drained burst n now).tokens - 1 = (drained burst (n + 1) now).tokens := by
    show (burst : ℚ) - n - 1 = burst - (n + 1 : Nat)
    push_cast
    ring
  rw [htokens]
  rfl

/-- Once the burst is used up, it is for ever. -/
theorem isOk_drained (burst : Nat) (last now : Instant) :
    ((drained burst burst last).tryConsume now).1.isOk = false ∧
      ((drained burst burst last).tryConsume now).2 = drained burst burst now := by
  have hempty : ¬1 ≤ ((drained burst burst last).refill now).tokens := by
    rw [refill_drained]
    show ¬(1 : ℚ) ≤ burst - burst
    norm_num
  rw [tryConsume_of_empty hempty, refill_drained]
  exact ⟨rfl, rfl⟩

end TokenBucket

/-! ## The limits of a key -/

/-- The rate `check_key` gives a new bucket of the key. -/
def keyRate (cfg : RateLimitConfig) (k : ApiKeyConfig) : Nat :=
  k.rateLimitPerMin.getD cfg.perKeyPerMin

def keyBurst (cfg : RateLimitConfig) (k : ApiKeyConfig) : Nat :=
  if k.burst > 0 then k.burst else cfg.effectivePerKeyBurst

theorem keyBurst_pos (cfg : RateLimitConfig) (k : ApiKeyConfig) : 0 < keyBurst cfg k := by
  unfold keyBurst
  split
  · assumption
  · exact RateLimitConfig.effectiveBurst_pos (by decide)

namespace RateLimiter

/-- The check of the key, with the overrides its entry supplies. -/
def keyCheck (k : ApiKeyConfig) : Check := .key k.id k.rateLimitPerMin k.burst

/-- In these calls nobody uses the key's id with other overrides. -/
def SuppliedBy (k : ApiKeyConfig) (calls : List (Check × Instant)) : Prop :=
  ∀ c ∈ calls, c.1.keyId? = some k.id → c.1 = keyCheck k

def Unused (k : ApiKeyConfig) (calls : List (Check × Instant)) : Prop :=
  ∀ c ∈ calls, c.1.keyId? ≠ some k.id

/-- The bucket the key's next check consults. -/
def bucketOf (k : ApiKeyConfig) (now : Instant) (l : RateLimiter) : TokenBucket :=
  l.keyBucket k.id k.rateLimitPerMin k.burst now

variable {cfg : RateLimitConfig} {k : ApiKeyConfig} {l : RateLimiter}

/-- The bucket of the key, if it has one yet, is of the key's limits. -/
structure KeySized (cfg : RateLimitConfig) (k : ApiKeyConfig) (l : RateLimiter) : Prop where
  rate : l.keyPerMin = cfg.perKeyPerMin
  burst : l.keyBurst = cfg.effectivePerKeyBurst
  bucket : ∀ b, l.byKey.get k.id = some b → b.Sized (keyRate cfg k) (HttpSmtpRele.keyBurst cfg k)

theorem new_keySized (cfg : RateLimitConfig) (k : ApiKeyConfig) (start : Instant) :
    (new cfg start).KeySized cfg k := by
  refine ⟨rfl, rfl, fun b hb => ?_⟩
  cases hb

theorem KeySized.bucketOf (h : l.KeySized cfg k) (now : Instant) :
    (l.bucketOf k now).Sized (keyRate cfg k) (HttpSmtpRele.keyBurst cfg k) := by
  unfold RateLimiter.bucketOf keyBucket
  cases hb : l.byKey.get k.id with
  | none =>
    rw [Option.getD_none, h.rate, h.burst]
    exact TokenBucket.new_sized _ _ _
  | some b => exact h.bucket b hb

theorem KeySized.check (h : l.KeySized cfg k) {c : Check} (hc : c.keyId? = some k.id → c = keyCheck k)
    (now : Instant) : (l.check c now).2.KeySized cfg k := by
  obtain ⟨hrate, hburst⟩ := keyDefaults_check c now l
  refine ⟨hrate.trans h.rate, hburst.trans h.burst, fun b hb => ?_⟩
  by_cases hid : c.keyId? = some k.id
  · rw [hc hid] at hb
    have hget := get_checkKey k.id k.rateLimitPerMin k.burst now l k.id
    rw [if_pos rfl] at hget
    have hb' := Option.some.inj (hget.symm.trans hb)
    rw [← hb']
    exact (h.bucketOf now).tryConsume now
  · rw [get_check_of_ne hid] at hb
    exact h.bucket b hb

theorem KeySized.checks (h : l.KeySized cfg k) {calls : List (Check × Instant)}
    (hcalls : SuppliedBy k calls) : (l.checks calls).KeySized cfg k := by
  induction calls generalizing l with
  | nil => exact h
  | cons c calls ih =>
    apply ih (h.check (hcalls c List.mem_cons_self) c.2)
    intro c' hc'
    exact hcalls c' (List.mem_cons_of_mem _ hc')

end RateLimiter

open RateLimiter

/-- The clock does not go back from `start` over the calls to `now`. -/
def Ordered (start : Instant) (calls : List (Check × Instant)) (now : Instant) : Prop :=
  (start :: (calls.map Prod.snd ++ [now])).Pairwise (· ≤ ·)

/-- In every run of the limiter: whenever the key is refused, there is a wait after
which it is admitted, whatever happens in between other than its own use. -/
def NeverLockedOut (cfg : RateLimitConfig) (k : ApiKeyConfig) : Prop :=
  ∀ start calls now, SuppliedBy k calls → Ordered start calls now →
    let l := (RateLimiter.new cfg start).checks calls
    (l.check (keyCheck k) now).1.isOk = false →
    ∃ nanos, ∀ others later, Unused k others → Ordered now others later → now + nanos ≤ later →
      (((l.check (keyCheck k) now).2.checks others).check (keyCheck k) later).1.isOk = true

/-- In no run of the limiter does a refusal of the key divide by zero. -/
def NeverDividesByZero (cfg : RateLimitConfig) (k : ApiKeyConfig) : Prop :=
  ∀ start calls now, SuppliedBy k calls → Ordered start calls now →
    let l := (RateLimiter.new cfg start).checks calls
    (l.check (keyCheck k) now).1.isOk = false → (l.bucketOf k now).tokensPerSec ≠ 0

namespace RateLimiter

variable {cfg : RateLimitConfig} {k : ApiKeyConfig} {l : RateLimiter}

theorem isOk_keyCheck (k : ApiKeyConfig) (now : Instant) (l : RateLimiter) :
    (l.check (keyCheck k) now).1.isOk = ((l.bucketOf k now).tryConsume now).1.isOk :=
  isOk_checkKey ..

/-- Until its next use the key's bucket stays as its last check left it. -/
theorem bucketOf_after_keyCheck {others : List (Check × Instant)} (h : Unused k others)
    (now later : Instant) (l : RateLimiter) :
    ((l.check (keyCheck k) now).2.checks others).bucketOf k later =
      ((l.bucketOf k now).tryConsume now).2 := by
  have hget := get_checkKey k.id k.rateLimitPerMin k.burst now l k.id
  rw [if_pos rfl] at hget
  have hkept := get_checks_of_ne h (l.check (keyCheck k) now).2
  unfold bucketOf keyBucket
  rw [hkept.trans hget, Option.getD_some]
  rfl

/-- `retry_after_secs` is a wait that is long enough. -/
theorem isOk_after_retry (h : l.KeySized cfg k) (hrate : 0 < keyRate cfg k) {now : Instant}
    (hrefused : (l.check (keyCheck k) now).1.isOk = false) :
    ∃ nanos, ∀ others later, Unused k others → now + nanos ≤ later →
      (((l.check (keyCheck k) now).2.checks others).check (keyCheck k) later).1.isOk = true := by
  rw [isOk_keyCheck] at hrefused
  have hsized := h.bucketOf now
  cases hres : ((l.bucketOf k now).tryConsume now).1 with
  | ok u =>
    rw [hres] at hrefused
    cases hrefused
  | error retryAfter =>
    refine ⟨retryAfter * 1000000000, fun others later hunused hlater => ?_⟩
    rw [isOk_keyCheck, bucketOf_after_keyCheck hunused]
    exact TokenBucket.isOk_after_wait hsized hrate (keyBurst_pos cfg k) hres hlater

/-! ## A rate of zero -/

/-- What `n` checks of the key at one instant leave of the burst. -/
theorem bucketOf_drained (hzero : keyRate cfg k = 0) (n : Nat)
    (hn : n ≤ HttpSmtpRele.keyBurst cfg k) :
    ((new cfg 0).checks (List.replicate n (keyCheck k, 0))).bucketOf k 0 =
      .drained (HttpSmtpRele.keyBurst cfg k) n 0 := by
  induction n with
  | zero =>
    show TokenBucket.new (keyRate cfg k) (HttpSmtpRele.keyBurst cfg k) 0 = _
    rw [hzero]
    simp [TokenBucket.new, TokenBucket.drained]
  | succ n ih =>
    have hunused : Unused k [] := fun c hc => by cases hc
    have hstep := bucketOf_after_keyCheck hunused 0 0
      ((new cfg 0).checks (List.replicate n (keyCheck k, 0)))
    rw [ih (Nat.le_of_succ_le hn), TokenBucket.tryConsume_drained hn] at hstep
    rw [List.replicate_succ', checks, List.foldl_append]
    exact hstep

/-- The run that locks the key out: its burst, at one instant. -/
def drainingRun (cfg : RateLimitConfig) (k : ApiKeyConfig) : List (Check × Instant) :=
  List.replicate (HttpSmtpRele.keyBurst cfg k) (keyCheck k, 0)

theorem drainingRun_supplied (cfg : RateLimitConfig) (k : ApiKeyConfig) :
    SuppliedBy k (drainingRun cfg k) := by
  intro c hc _
  rw [List.eq_of_mem_replicate hc]

theorem drainingRun_ordered (cfg : RateLimitConfig) (k : ApiKeyConfig) :
    Ordered 0 (drainingRun cfg k) 0 := by
  have hzero : (0 :: ((drainingRun cfg k).map Prod.snd ++ [0])) =
      List.replicate (HttpSmtpRele.keyBurst cfg k + 2) (0 : Instant) := by
    rw [drainingRun, List.map_replicate, ← List.replicate_succ', ← List.replicate_succ]
  unfold Ordered
  rw [hzero]
  exact List.pairwise_replicate.mpr (Or.inr le_rfl)

/-- After it the key is refused, at any time. -/
theorem refused_after_drainingRun (hzero : keyRate cfg k = 0) :
    let l := (new cfg 0).checks (drainingRun cfg k)
    l.bucketOf k 0 = .drained (HttpSmtpRele.keyBurst cfg k) (HttpSmtpRele.keyBurst cfg k) 0 ∧
      (l.check (keyCheck k) 0).1.isOk = false ∧
      ∀ later, (((l.check (keyCheck k) 0).2.checks []).check (keyCheck k) later).1.isOk = false := by
  intro l
  have hbucket := bucketOf_drained hzero (HttpSmtpRele.keyBurst cfg k) le_rfl
  have hunused : Unused k [] := fun c hc => by cases hc
  obtain ⟨hrefused, hstays⟩ := TokenBucket.isOk_drained (HttpSmtpRele.keyBurst cfg k) 0 0
  refine ⟨hbucket, ?_, fun later => ?_⟩
  · rw [isOk_keyCheck]
    exact (congrArg (fun b => (TokenBucket.tryConsume 0 b).1.isOk) hbucket).trans hrefused
  · rw [isOk_keyCheck, bucketOf_after_keyCheck hunused]
    have hnext : ((l.bucketOf k 0).tryConsume 0).2 = .drained _ _ 0 :=
      (congrArg (fun b => (TokenBucket.tryConsume 0 b).2) hbucket).trans hstays
    rw [hnext]
    exact (TokenBucket.isOk_drained _ 0 later).1

end RateLimiter

theorem not_neverLockedOut {cfg : RateLimitConfig} {k : ApiKeyConfig} (hzero : keyRate cfg k = 0) :
    ¬NeverLockedOut cfg k := by
  intro hnever
  obtain ⟨-, hrefused, hstill⟩ := refused_after_drainingRun hzero
  obtain ⟨nanos, hwait⟩ := hnever 0 _ 0 (drainingRun_supplied _ _) (drainingRun_ordered _ _)
    hrefused
  have hlater : Ordered 0 [] (0 + nanos) := List.pairwise_pair.mpr (Nat.le_add_right 0 nanos)
  have hadmitted := hwait [] (0 + nanos) (fun c hc => by cases hc) hlater le_rfl
  rw [hstill] at hadmitted
  cases hadmitted

/-- A key is never locked out, and never divided by zero for, exactly if the rate
that `check_key` uses for it is not zero. -/
theorem neverLockedOut_iff (cfg : AppConfig) (k : ApiKeyConfig) :
    (NeverLockedOut cfg.rateLimit k ↔ keyRate cfg.rateLimit k ≠ 0) ∧
      (NeverDividesByZero cfg.rateLimit k ↔ keyRate cfg.rateLimit k ≠ 0) := by
  refine ⟨⟨?_, ?_⟩, ⟨?_, ?_⟩⟩
  · intro hnever hzero
    exact not_neverLockedOut hzero hnever
  · intro hrate start calls now hcalls _ l hrefused
    have hsized := (new_keySized cfg.rateLimit k start).checks hcalls
    obtain ⟨nanos, hwait⟩ := isOk_after_retry hsized (Nat.pos_of_ne_zero hrate) hrefused
    exact ⟨nanos, fun others later hunused _ hlater => hwait others later hunused hlater⟩
  · intro hnever hzero
    obtain ⟨hbucket, hrefused, -⟩ := refused_after_drainingRun hzero
    apply hnever 0 _ 0 (drainingRun_supplied _ _) (drainingRun_ordered _ _) hrefused
    rw [hbucket]
    rfl
  · intro hrate start calls now hcalls _ l _
    have hsized := ((new_keySized cfg.rateLimit k start).checks hcalls).bucketOf now
    rw [hsized.rate]
    exact div_ne_zero (Nat.cast_ne_zero.mpr hrate) (by norm_num)

/-- An enabled key whose rate is written as `0`, which the docs say is the default's. -/
def zeroRateKey : ApiKeyConfig :=
  { ApiKeyConfig.default "svc" ⟨"0123456789abcdef0123456789abcdef"⟩ with
    rateLimitPerMin := some 0 }

def zeroRateConfig : AppConfig := .default "127.0.0.1:8080" "relay@example.com" [zeroRateKey]

/-- Once its five checks are used up, the key is refused at any time. -/
theorem zeroRateKey_locked_out :
    ConfigValidate.Accepted {} .plain zeroRateConfig ∧
      zeroRateKey ∈ zeroRateConfig.security.apiKeys ∧ zeroRateKey.enabled = true ∧
      (let l := (RateLimiter.new zeroRateConfig.rateLimit 0).checks
        (List.replicate 5 (keyCheck zeroRateKey, 0))
      (l.check (keyCheck zeroRateKey) 0).1.isOk = false ∧
        ∀ later, ((l.check (keyCheck zeroRateKey) 0).2.check (keyCheck zeroRateKey) later).1.isOk =
          false) ∧
      ¬NeverLockedOut zeroRateConfig.rateLimit zeroRateKey := by
  have hzero : keyRate zeroRateConfig.rateLimit zeroRateKey = 0 := rfl
  obtain ⟨-, hrefused, hstill⟩ := refused_after_drainingRun hzero
  refine ⟨?_, List.mem_cons_self, rfl, ⟨hrefused, hstill⟩, not_neverLockedOut hzero⟩
  unfold ConfigValidate.Accepted
  decide

end HttpSmtpRele
