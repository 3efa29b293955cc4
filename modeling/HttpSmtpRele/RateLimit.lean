import Mathlib.Data.Rat.Floor
import HttpSmtpRele.AppState
import HttpSmtpRele.Lib.RateEnvelope
import HttpSmtpRele.Lib.Table

/-!
# `rate_limit.rs`: three tiers of token buckets

Each check reads the clock once here: a bucket that has just been created is
full, so that the second reading of the source changes nothing.  Tokens are
rational numbers where the source has `f64`.
-/

namespace HttpSmtpRele

/-- `Duration::as_secs_f64`. -/
def seconds (nanos : Nat) : ℚ := nanos / 1000000000

/-- `u64::MAX`. -/
def u64Max : Nat := 18446744073709551615

structure TokenBucket where
  capacity : ℚ
  tokensPerSec : ℚ
  tokens : ℚ
  lastRefill : Instant
  deriving DecidableEq

namespace TokenBucket

def new (perMinute burst : Nat) (now : Instant) : TokenBucket where
  capacity := burst
  tokensPerSec := perMinute / 60
  tokens := burst
  lastRefill := now

/-- `duration_since` is zero for an instant in the future. -/
def refill (now : Instant) (b : TokenBucket) : TokenBucket :=
  let elapsed := seconds (now - b.lastRefill)
  { b with
    tokens := min (b.tokens + elapsed * b.tokensPerSec) b.capacity
    lastRefill := now }

/-- `(missing / rate).ceil() as u64`: a division by zero is infinite, and the cast saturates. -/
def wait (missing rate : ℚ) : Nat :=
  if rate = 0 then u64Max else min ⌈missing / rate⌉.toNat u64Max

def tryConsume (now : Instant) (b : TokenBucket) : Except Nat Unit × TokenBucket :=
  let b := b.refill now
  if b.tokens ≥ 1 then (.ok (), { b with tokens := b.tokens - 1 })
  else (.error (max (wait (1 - b.tokens) b.tokensPerSec) 1), b)

end TokenBucket

structure RateLimitedError where
  tier : String
  retryAfterSecs : Nat
  deriving DecidableEq

/-! ## The capped map -/

/-- `order` is the order of insertion. -/
structure LruMap (κ : Type) where
  map : Table κ TokenBucket
  order : List κ
  cap : Nat

namespace LruMap

variable {κ : Type} [DecidableEq κ]

def new (cap : Nat) : LruMap κ where
  map := ∅
  order := []
  cap := cap

/-- Make room for a key that is not there. -/
def evict (key : κ) (m : LruMap κ) : LruMap κ :=
  if m.cap > 0 ∧ m.map.contains key = false ∧ m.map.size ≥ m.cap then
    match m.order with
    | oldest :: order => { m with map := m.map.erase oldest, order := order }
    | [] => m
  else m

/-- The bucket of the key, and the map that holds it. -/
def getOrInsert (key : κ) (perMinute burst : Nat) (now : Instant) (m : LruMap κ) :
    TokenBucket × LruMap κ :=
  let m := m.evict key
  match m.map.get key with
  | some b => (b, m)
  | none =>
    let b := TokenBucket.new perMinute burst now
    (b, { m with map := m.map.insert key b, order := m.order ++ [key] })

/-- A change through the reference that `get_or_insert` returns. -/
def set (key : κ) (b : TokenBucket) (m : LruMap κ) : LruMap κ :=
  { m with map := m.map.insert key b }

/-- `order` lists the keys, and there are no more of them than the cap. -/
structure Inv (m : LruMap κ) : Prop where
  order : m.order.Perm m.map.keys
  capped : m.cap = 0 ∨ m.map.size ≤ m.cap

/-- Nothing has to be evicted for the key. -/
def HasRoom (key : κ) (m : LruMap κ) : Prop :=
  m.cap = 0 ∨ m.map.contains key = true ∨ m.map.size < m.cap

omit [DecidableEq κ] in
theorem new_inv (cap : Nat) : (new cap : LruMap κ).Inv :=
  ⟨List.Perm.refl _, Or.inr (Nat.zero_le cap)⟩

instance (key : κ) (m : LruMap κ) : Decidable (m.HasRoom key) :=
  inferInstanceAs (Decidable (_ ∨ _ ∨ _))

theorem evict_of_hasRoom {key : κ} {m : LruMap κ} (h : m.HasRoom key) : m.evict key = m := by
  refine if_neg fun ⟨hcap, hkey, hfull⟩ => ?_
  rcases h with hzero | hmem | hroom
  · omega
  · rw [hmem] at hkey
    cases hkey
  · omega

theorem evict_inv {m : LruMap κ} (h : m.Inv) (key : κ) :
    (m.evict key).Inv ∧ (m.evict key).HasRoom key := by
  by_cases hroom : m.HasRoom key
  · rw [evict_of_hasRoom hroom]
    exact ⟨h, hroom⟩
  · unfold HasRoom at hroom
    simp only [not_or, Bool.not_eq_true, Nat.not_lt] at hroom
    obtain ⟨hcap, hkey, hfull⟩ := hroom
    have hlen : m.order.length = m.map.size := by
      rw [h.order.length_eq, Table.size_eq_length_keys]
    have hcond : m.cap > 0 ∧ m.map.contains key = false ∧ m.map.size ≥ m.cap :=
      ⟨Nat.pos_of_ne_zero hcap, hkey, hfull⟩
    unfold evict
    rw [if_pos hcond]
    cases horder : m.order with
    | nil =>
      rw [horder] at hlen
      have : m.map.size = 0 := hlen.symm
      omega
    | cons oldest order =>
      have hperm := h.order
      rw [horder] at hperm
      have hmem : oldest ∈ m.map.keys := hperm.subset List.mem_cons_self
      have hsize := Table.size_erase hmem
      have hcapped : m.map.size ≤ m.cap := h.capped.resolve_left hcap
      refine ⟨⟨?_, Or.inr ?_⟩, Or.inr (Or.inr ?_)⟩
      · show order.Perm (AList.erase oldest m.map).keys
        rw [AList.keys_erase]
        exact (List.cons_perm_iff_perm_erase.mp hperm).2
      · show Table.size (AList.erase oldest m.map) ≤ m.cap
        omega
      · show Table.size (AList.erase oldest m.map) < m.cap
        omega

theorem getOrInsert_of_some {m : LruMap κ} {key : κ} {b : TokenBucket}
    (h : (m.evict key).map.get key = some b) (perMinute burst : Nat) (now : Instant) :
    m.getOrInsert key perMinute burst now = (b, m.evict key) := by
  unfold getOrInsert
  simp only [h]

theorem getOrInsert_of_none {m : LruMap κ} {key : κ} (h : (m.evict key).map.get key = none)
    (perMinute burst : Nat) (now : Instant) :
    m.getOrInsert key perMinute burst now =
      (.new perMinute burst now,
        { m.evict key with
          map := (m.evict key).map.insert key (.new perMinute burst now)
          order := (m.evict key).order ++ [key] }) := by
  unfold getOrInsert
  simp only [h]

/-- A check through the map: it keeps the invariant. -/
theorem getOrInsert_inv {m : LruMap κ} (h : m.Inv) (key : κ) (perMinute burst : Nat)
    (now : Instant) (b : TokenBucket) :
    ((m.getOrInsert key perMinute burst now).2.set key b).Inv := by
  obtain ⟨hinv, hroom⟩ := evict_inv h key
  have hset : ∀ {m' : LruMap κ}, m'.Inv → key ∈ m'.map.keys → (m'.set key b).Inv := by
    intro m' hinv' hmem
    have hkeys : (m'.map.insert key b).keys.Perm m'.map.keys := by
      rw [AList.keys_insert]
      exact (List.perm_cons_erase hmem).symm
    refine ⟨hinv'.order.trans hkeys.symm, hinv'.capped.imp_right fun hcapped => ?_⟩
    exact (Table.size_insert_of_mem hmem b).trans_le hcapped
  cases hget : (m.evict key).map.get key with
  | some b₀ =>
    rw [getOrInsert_of_some hget]
    exact hset hinv (Table.mem_keys_of_get hget)
  | none =>
    rw [getOrInsert_of_none hget]
    have hnew : key ∉ (m.evict key).map.keys := AList.lookup_eq_none.mp hget
    have hkeys : ((m.evict key).map.insert key (.new perMinute burst now)).keys =
        key :: (m.evict key).map.keys := by
      rw [AList.keys_insert, List.erase_of_not_mem hnew]
    refine hset ⟨?_, ?_⟩ ?_
    · show ((m.evict key).order ++ [key]).Perm
        ((m.evict key).map.insert key (.new perMinute burst now)).keys
      rw [hkeys]
      exact (List.perm_append_singleton _ _).trans (hinv.order.cons key)
    · rcases hroom with hzero | hmem | hroom
      · exact Or.inl hzero
      · unfold Table.contains at hmem
        rw [hget] at hmem
        cases hmem
      · exact Or.inr ((Table.size_insert_of_not_mem hnew _).trans_le hroom)
    · show key ∈ ((m.evict key).map.insert key (.new perMinute burst now)).keys
      rw [hkeys]
      exact List.mem_cons_self

/-- Where there is room, a check through the map is about its own key. -/
theorem get_getOrInsert {m : LruMap κ} {key : κ} (h : m.HasRoom key) (perMinute burst : Nat)
    (now : Instant) (b : TokenBucket) (key' : κ) :
    (m.getOrInsert key perMinute burst now).1 =
        (m.map.get key).getD (.new perMinute burst now) ∧
      ((m.getOrInsert key perMinute burst now).2.set key b).map.get key' =
        if key' = key then some b else m.map.get key' := by
  have hevict := evict_of_hasRoom h
  cases hget : m.map.get key with
  | some b₀ =>
    rw [getOrInsert_of_some (hevict.symm ▸ hget), hevict]
    exact ⟨rfl, Table.get_insert _ _ _ _⟩
  | none =>
    rw [getOrInsert_of_none (hevict.symm ▸ hget), hevict]
    refine ⟨rfl, (Table.get_insert _ _ _ _).trans ?_⟩
    by_cases hkey : key' = key
    · rw [if_pos hkey, if_pos hkey]
    · rw [if_neg hkey, if_neg hkey]
      exact (Table.get_insert _ _ _ _).trans (if_neg hkey)

theorem cap_getOrInsert (m : LruMap κ) (key : κ) (perMinute burst : Nat) (now : Instant)
    (b : TokenBucket) : ((m.getOrInsert key perMinute burst now).2.set key b).cap = m.cap := by
  have hevict : (m.evict key).cap = m.cap := by
    unfold evict
    split
    · split <;> rfl
    · rfl
  cases hget : (m.evict key).map.get key with
  | some b₀ =>
    rw [getOrInsert_of_some hget]
    exact hevict
  | none =>
    rw [getOrInsert_of_none hget]
    exact hevict

end LruMap

/-! ## The limiter -/

structure RateLimiter where
  global : TokenBucket
  byIp : LruMap IpAddr
  byKey : Table String TokenBucket
  ipPerMin : Nat
  ipBurst : Nat
  keyPerMin : Nat
  keyBurst : Nat

namespace RateLimiter

def new (cfg : RateLimitConfig) (now : Instant) : RateLimiter where
  global := .new cfg.globalPerMin cfg.effectiveGlobalBurst now
  byIp := .new cfg.ipTableSize
  byKey := ∅
  ipPerMin := cfg.perIpPerMin
  ipBurst := cfg.effectivePerIpBurst
  keyPerMin := cfg.perKeyPerMin
  keyBurst := cfg.effectivePerKeyBurst

/-- `map_err(|s| RateLimitedError { tier, retry_after_secs: s })`. -/
def inTier (tier : String) (res : Except Nat Unit) : Except RateLimitedError Unit :=
  res.mapError fun s => ⟨tier, s⟩

def checkGlobal (now : Instant) (l : RateLimiter) : Except RateLimitedError Unit × RateLimiter :=
  let (res, b) := l.global.tryConsume now
  (inTier "global" res, { l with global := b })

def checkIp (ip : IpAddr) (now : Instant) (l : RateLimiter) :
    Except RateLimitedError Unit × RateLimiter :=
  let (b, m) := l.byIp.getOrInsert ip l.ipPerMin l.ipBurst now
  let (res, b) := b.tryConsume now
  (inTier "ip" res, { l with byIp := m.set ip b })

/-- The bucket `check_key` consults: the key's own, or a new one. -/
def keyBucket (keyId : String) (perMinOverride : Option Nat) (burstOverride : Nat) (now : Instant)
    (l : RateLimiter) : TokenBucket :=
  let pm := perMinOverride.getD l.keyPerMin
  let burst := if burstOverride > 0 then burstOverride else l.keyBurst
  (l.byKey.get keyId).getD (.new pm burst now)

def checkKey (keyId : String) (perMinOverride : Option Nat) (burstOverride : Nat) (now : Instant)
    (l : RateLimiter) : Except RateLimitedError Unit × RateLimiter :=
  let (res, b) := (l.keyBucket keyId perMinOverride burstOverride now).tryConsume now
  (inTier "key" res, { l with byKey := l.byKey.insert keyId b })

/-- A call of one of the three checks, with its arguments. -/
inductive Check
  | global
  | ip (ip : IpAddr)
  | key (keyId : String) (perMinOverride : Option Nat) (burstOverride : Nat)
  deriving DecidableEq

def Check.keyId? : Check → Option String
  | key keyId _ _ => some keyId
  | _ => none

def check (c : Check) (now : Instant) (l : RateLimiter) :
    Except RateLimitedError Unit × RateLimiter :=
  match c with
  | .global => l.checkGlobal now
  | .ip ip => l.checkIp ip now
  | .key keyId perMin burst => l.checkKey keyId perMin burst now

/-- After these calls, in order. -/
def checks (l : RateLimiter) (calls : List (Check × Instant)) : RateLimiter :=
  calls.foldl (fun l c => (l.check c.1 c.2).2) l

/-- The tier is only logged. -/
def retryAfter (x : Except RateLimitedError Unit × RateLimiter) : Except Nat Unit × RateLimiter :=
  (x.1.mapError RateLimitedError.retryAfterSecs, x.2)

/-! ## Effect on the per-address tier -/

/-- The bucket `check_ip` consults, where nothing is evicted. -/
def ipBucket (ip : IpAddr) (now : Instant) (l : RateLimiter) : TokenBucket :=
  (l.byIp.map.get ip).getD (.new l.ipPerMin l.ipBurst now)

theorem fst_checkIp {l : RateLimiter} {ip : IpAddr} (h : l.byIp.HasRoom ip) (now : Instant) :
    (l.checkIp ip now).1 = inTier "ip" ((l.ipBucket ip now).tryConsume now).1 := by
  have hbucket := (LruMap.get_getOrInsert h l.ipPerMin l.ipBurst now l.global ip).1
  unfold ipBucket
  rw [← hbucket]
  rfl

theorem get_checkIp {l : RateLimiter} {ip : IpAddr} (h : l.byIp.HasRoom ip) (now : Instant)
    (ip' : IpAddr) :
    (l.checkIp ip now).2.byIp.map.get ip' =
      if ip' = ip then some ((l.ipBucket ip now).tryConsume now).2 else l.byIp.map.get ip' := by
  have hget := LruMap.get_getOrInsert h l.ipPerMin l.ipBurst now
    ((l.ipBucket ip now).tryConsume now).2 ip'
  have hbucket : (l.byIp.getOrInsert ip l.ipPerMin l.ipBurst now).1 = l.ipBucket ip now := hget.1
  rw [← hget.2, ← hbucket]
  rfl

theorem inv_checkIp {l : RateLimiter} (h : l.byIp.Inv) (ip : IpAddr) (now : Instant) :
    (l.checkIp ip now).2.byIp.Inv :=
  LruMap.getOrInsert_inv h ip _ _ _ _

theorem cap_checkIp (l : RateLimiter) (ip : IpAddr) (now : Instant) :
    (l.checkIp ip now).2.byIp.cap = l.byIp.cap :=
  LruMap.cap_getOrInsert _ _ _ _ _ _

/-! ## Effect on the per-key tier -/

@[simp] theorem isOk_inTier (tier : String) (res : Except Nat Unit) :
    (inTier tier res).isOk = res.isOk := by
  cases res <;> rfl

theorem isOk_checkKey (keyId : String) (perMin : Option Nat) (burst : Nat) (now : Instant)
    (l : RateLimiter) :
    (l.checkKey keyId perMin burst now).1.isOk =
      ((l.keyBucket keyId perMin burst now).tryConsume now).1.isOk :=
  isOk_inTier _ _

theorem get_checkKey (keyId : String) (perMin : Option Nat) (burst : Nat) (now : Instant)
    (l : RateLimiter) (keyId' : String) :
    (l.checkKey keyId perMin burst now).2.byKey.get keyId' =
      if keyId' = keyId then some ((l.keyBucket keyId perMin burst now).tryConsume now).2
      else l.byKey.get keyId' :=
  Table.get_insert _ _ _ _

/-- The default limits of the per-key tier are set once. -/
theorem keyDefaults_check (c : Check) (now : Instant) (l : RateLimiter) :
    (l.check c now).2.keyPerMin = l.keyPerMin ∧ (l.check c now).2.keyBurst = l.keyBurst := by
  cases c <;> exact ⟨rfl, rfl⟩

theorem get_check_of_ne {c : Check} {keyId : String} (h : c.keyId? ≠ some keyId) (now : Instant)
    (l : RateLimiter) : (l.check c now).2.byKey.get keyId = l.byKey.get keyId := by
  cases c with
  | global => rfl
  | ip ip => rfl
  | key keyId' perMin burst =>
    have hne : keyId ≠ keyId' := fun heq => h (congrArg some heq.symm)
    exact (get_checkKey keyId' perMin burst now l keyId).trans (if_neg hne)

theorem get_checks_of_ne {keyId : String} {calls : List (Check × Instant)}
    (h : ∀ c ∈ calls, c.1.keyId? ≠ some keyId) (l : RateLimiter) :
    (l.checks calls).byKey.get keyId = l.byKey.get keyId := by
  induction calls generalizing l with
  | nil => rfl
  | cons c calls ih =>
    have hrest := ih (fun c' hc' => h c' (List.mem_cons_of_mem _ hc')) (l.check c.1 c.2).2
    exact hrest.trans (get_check_of_ne (h c List.mem_cons_self) c.2 l)

end RateLimiter

/-- The limiter that the server is built with. -/
def rateLimiter : Limiter RateLimiter where
  checkGlobal now l := RateLimiter.retryAfter (l.checkGlobal now)
  checkIp ip now l := RateLimiter.retryAfter (l.checkIp ip now)
  checkKey keyId perMin burst now l := RateLimiter.retryAfter (l.checkKey keyId perMin burst now)

end HttpSmtpRele
