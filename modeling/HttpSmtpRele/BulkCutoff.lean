import HttpSmtpRele.BulkAgreement
import HttpSmtpRele.Lib.Triple
import HttpSmtpRele.RetryAfter

/-!
# Rate limiting inside a bulk request

The messages of one request draw on the same three buckets.  At one clock
reading each that passes takes a token from all three, and one that is refused
leaves at least one of them below a token.  So the messages that pass are the
first ones, as many as every bucket has whole tokens.
-/

namespace HttpSmtpRele

open Prog Api

namespace TokenBucket

variable {b : TokenBucket} {now : Instant}

/-- What the bucket holds at `now`. -/
def level (now : Instant) (b : TokenBucket) : ℚ := (b.refill now).tokens

theorem level_of_lastRefill (hlast : b.lastRefill = now) (hcap : b.tokens ≤ b.capacity) :
    b.level now = b.tokens := by
  show min (b.tokens + seconds (now - b.lastRefill) * b.tokensPerSec) b.capacity = b.tokens
  have hzero : seconds (now - b.lastRefill) = 0 := by
    rw [hlast, Nat.sub_self]
    exact zero_div _
  rw [hzero, zero_mul, add_zero, min_eq_left hcap]

/-- At the instant of a call, what it has left. -/
theorem level_tryConsume (now : Instant) (b : TokenBucket) :
    (b.tryConsume now).2.level now =
      if 1 ≤ b.level now then b.level now - 1 else b.level now := by
  have hcap : (b.refill now).tokens ≤ (b.refill now).capacity := min_le_right _ _
  by_cases hfull : 1 ≤ (b.refill now).tokens
  · rw [tryConsume_of_full hfull]
    refine (level_of_lastRefill rfl ?_).trans (if_pos hfull).symm
    exact (sub_le_self _ zero_le_one).trans hcap
  · rw [tryConsume_of_empty hfull]
    exact (level_of_lastRefill rfl hcap).trans (if_neg hfull).symm

end TokenBucket

/-- What the three buckets of a caller hold. -/
structure Levels where
  global : ℚ
  ip : ℚ
  key : ℚ

namespace Levels

/-- As many calls as every bucket has whole tokens. -/
def calls (v : Levels) : Nat := min ⌊v.global⌋₊ (min ⌊v.ip⌋₊ ⌊v.key⌋₊)

theorem calls_pos_iff {v : Levels} : 0 < v.calls ↔ 1 ≤ v.global ∧ 1 ≤ v.ip ∧ 1 ≤ v.key := by
  unfold calls
  rw [lt_min_iff, lt_min_iff, Nat.floor_pos, Nat.floor_pos, Nat.floor_pos]

/-- A token from each. -/
theorem calls_pred (v : Levels) :
    (⟨v.global - 1, v.ip - 1, v.key - 1⟩ : Levels).calls = v.calls - 1 := by
  unfold calls
  simp only [Nat.floor_sub_one]
  omega

end Levels

namespace RateLimiter

variable {auth : AuthContext} {now : Instant} {l : RateLimiter}

/-- What the buckets that the caller's checks consult hold at `now`. -/
def levels (auth : AuthContext) (now : Instant) (l : RateLimiter) : Levels where
  global := l.global.level now
  ip := (l.ipBucket auth.clientIp now).level now
  key := (l.keyBucket auth.keyId auth.keyRateLimitPerMin auth.keyBurst now).level now

theorem fst_checkGlobal (now : Instant) (l : RateLimiter) :
    (rateLimiter.checkGlobal now l).1 = (l.global.tryConsume now).1 :=
  fst_check_outer .global now l

theorem fst_checkIp_consulted (ip : IpAddr) (now : Instant) (l : RateLimiter) :
    (rateLimiter.checkIp ip now l).1 = ((l.ipBucket ip now).tryConsume now).1 :=
  fst_check_outer (.ip ip) now l

theorem fst_checkKey (keyId : String) (perMin : Option Nat) (burst : Nat) (now : Instant)
    (l : RateLimiter) :
    (rateLimiter.checkKey keyId perMin burst now l).1 =
      ((l.keyBucket keyId perMin burst now).tryConsume now).1 := by
  show (inTier "key" ((l.keyBucket keyId perMin burst now).tryConsume now).1).mapError
    RateLimitedError.retryAfterSecs = _
  cases ((l.keyBucket keyId perMin burst now).tryConsume now).1 <;> rfl

theorem ipBucket_checkIp (ip : IpAddr) (now : Instant) (l : RateLimiter) :
    (l.checkIp ip now).2.ipBucket ip now = ((l.ipBucket ip now).tryConsume now).2 := by
  have hget : (l.checkIp ip now).2.byIp.map.get ip =
      some ((l.ipBucket ip now).tryConsume now).2 := LruMap.get_step_self l.byIp (l.ipCall ip now)
  unfold ipBucket at hget ⊢
  rw [hget]
  rfl

theorem keyBucket_checkKey (keyId : String) (perMin : Option Nat) (burst : Nat) (now : Instant)
    (l : RateLimiter) :
    (l.checkKey keyId perMin burst now).2.keyBucket keyId perMin burst now =
      ((l.keyBucket keyId perMin burst now).tryConsume now).2 := by
  have hget := get_checkKey keyId perMin burst now l keyId
  rw [if_pos rfl] at hget
  unfold keyBucket at hget ⊢
  rw [hget]
  rfl

/-- A check passes if its bucket holds a token, and takes it. -/
theorem levels_checkGlobal (auth : AuthContext) (now : Instant) (l : RateLimiter) :
    ((rateLimiter.checkGlobal now l).1.isOk = true ↔ 1 ≤ (l.levels auth now).global) ∧
      (rateLimiter.checkGlobal now l).2.levels auth now =
        { l.levels auth now with
          global := if 1 ≤ (l.levels auth now).global then (l.levels auth now).global - 1
            else (l.levels auth now).global } := by
  rw [fst_checkGlobal]
  refine ⟨TokenBucket.isOk_tryConsume_iff _ _, ?_⟩
  exact congrArg (Levels.mk · _ _) (TokenBucket.level_tryConsume now l.global)

theorem levels_checkIp (auth : AuthContext) (now : Instant) (l : RateLimiter) :
    ((rateLimiter.checkIp auth.clientIp now l).1.isOk = true ↔ 1 ≤ (l.levels auth now).ip) ∧
      (rateLimiter.checkIp auth.clientIp now l).2.levels auth now =
        { l.levels auth now with
          ip := if 1 ≤ (l.levels auth now).ip then (l.levels auth now).ip - 1
            else (l.levels auth now).ip } := by
  rw [fst_checkIp_consulted]
  refine ⟨TokenBucket.isOk_tryConsume_iff _ _, ?_⟩
  have hlevel := TokenBucket.level_tryConsume now (l.ipBucket auth.clientIp now)
  rw [← ipBucket_checkIp] at hlevel
  exact congrArg (Levels.mk _ · _) hlevel

theorem levels_checkKey (auth : AuthContext) (now : Instant) (l : RateLimiter) :
    ((rateLimiter.checkKey auth.keyId auth.keyRateLimitPerMin auth.keyBurst now l).1.isOk = true ↔
        1 ≤ (l.levels auth now).key) ∧
      (rateLimiter.checkKey auth.keyId auth.keyRateLimitPerMin auth.keyBurst now l).2.levels auth
          now =
        { l.levels auth now with
          key := if 1 ≤ (l.levels auth now).key then (l.levels auth now).key - 1
            else (l.levels auth now).key } := by
  rw [fst_checkKey]
  refine ⟨TokenBucket.isOk_tryConsume_iff _ _, ?_⟩
  have hlevel := TokenBucket.level_tryConsume now
    (l.keyBucket auth.keyId auth.keyRateLimitPerMin auth.keyBurst now)
  rw [← keyBucket_checkKey] at hlevel
  exact congrArg (Levels.mk _ _ ·) hlevel

/-- The calls that are left. -/
def left (auth : AuthContext) (now : Instant) (l : RateLimiter) : Nat := (l.levels auth now).calls

end RateLimiter

/-! ## One message -/

namespace BulkCutoff

variable {D : Deps} {auth : AuthContext} {cfg : AppConfig} {now : Instant}

def rateLimitedCode (r : MessageResult) : Bool := r.code == some "rate_limited"

/-- The verdict on the message at `index`: past the limiter, or `rate_limited`. -/
def Judged (index : Nat) (passes : Prop) : Except MessageResult PreparedMessage → Prop
  | .ok p => passes ∧ p.index = index
  | .error r => r.index = index ∧ r.status = "rejected" ∧ (rateLimitedCode r = true ↔ ¬passes)

/-- Triples of a request at one reading of the clock. -/
abbrev AtOnce {α : Type} (now : Instant) :=
  Triple (α := α) (exec rateLimiter) fun c : Choice => c.instant = now

/-- The limiter is one of these. -/
def Limits (P : RateLimiter → Prop) (w : World RateLimiter) : Prop := P w.app.rateLimiter

variable {P : RateLimiter → Prop}

theorem putNewReceived_limits (reqId : RequestId) (keyId : String) (ttl : Nat) :
    AtOnce now (Limits P) (putNewReceived reqId keyId ttl) fun _ => Limits P := by
  unfold putNewReceived
  rw [perform_bind]
  refine Triple.keep (fun c w _ hw => hw) fun utc => ?_
  cases SubmissionStatusRecord.newReceived reqId keyId ttl utc with
  | none => exact Triple.abort
  | some record => exact Triple.keep (fun c w _ hw => hw) fun _ => Triple.ret fun w hw => hw

theorem updateStatus_limits (reqId : RequestId) (keyId : String) (update : StatusUpdate) :
    AtOnce now (Limits P) (Relay.updateStatus reqId keyId update) fun _ => Limits P :=
  Triple.perform fun _ _ _ hw => hw

theorem rateLimitedMessage_judged (index : Nat) (reqId : RequestId) (text : String)
    {passes : Prop} (hnot : ¬passes) :
    AtOnce now (Limits P) (rateLimitedMessage index reqId auth cfg text) fun outcome w =>
      Judged index passes outcome ∧ Limits P w := by
  have hstored : AtOnce now (Limits P)
      (storeRejected reqId auth.keyId .rateLimited text cfg.status.ttlSeconds) fun _ => Limits P :=
    (putNewReceived_limits _ _ _).bind fun _ => updateStatus_limits _ _ _
  refine hstored.bind fun _ => Triple.ret fun w hw => ⟨⟨rfl, rfl, ?_⟩, hw⟩
  exact ⟨fun _ => hnot, fun _ => rfl⟩

/-- Past the limiter no rejection has the code `rate_limited`. -/
theorem rejectedResult_judged (index : Nat) (reqId : RequestId) {code : ErrorCode}
    (hcode : code ≠ .rateLimited) (text : String) {passes : Prop} (hpasses : passes) :
    Judged index passes (.error (rejectedResult index reqId code text)) := by
  refine ⟨rfl, rfl, fun hlimited => ?_, fun hnot => absurd hpasses hnot⟩
  have hname : code.asStr = ErrorCode.rateLimited.asStr :=
    Option.some.inj (beq_iff_eq.mp hlimited)
  exact absurd (ErrorCode.asStr_injective hname) hcode

theorem prepareValidated_judged (index : Nat) (reqId : RequestId) (v : ValidatedMailRequest)
    {passes : Prop} (hpasses : passes) :
    AtOnce now (Limits P) (prepareValidated D index reqId auth cfg v) fun outcome w =>
      Judged index passes outcome ∧ Limits P w := by
  unfold prepareValidated
  rw [perform_bind]
  refine Triple.keep (fun c w _ hw => hw) fun _ => ?_
  cases Mail.buildMessage D v cfg with
  | error e =>
    refine (updateStatus_limits _ _ _).bind fun _ => Triple.ret fun w hw => ⟨?_, hw⟩
    exact rejectedResult_judged index reqId (by decide) _ hpasses
  | ok message => exact Triple.ret fun w hw => ⟨⟨hpasses, rfl⟩, hw⟩

theorem prepareAdmitted_judged (index : Nat) (m : MailRequest) (reqId : RequestId)
    {passes : Prop} (hpasses : passes) :
    AtOnce now (Limits P) (prepareAdmitted D index m reqId auth cfg) fun outcome w =>
      Judged index passes outcome ∧ Limits P w := by
  refine (putNewReceived_limits _ _ _).bind fun _ => ?_
  cases hv : Validation.validateMailRequest D m cfg auth with
  | error e =>
    refine (updateStatus_limits _ _ _).bind fun _ => Triple.ret fun w hw => ⟨?_, hw⟩
    refine rejectedResult_judged index reqId ?_ _ hpasses
    rcases Validation.validate_error D hv with hgate | ⟨-, message, rfl⟩
    · obtain ⟨feature, rfl⟩ := Validation.checkFeatureGates_error hgate
      simp [apperrToCode]
    · simp [apperrToCode]
  | ok v => exact prepareValidated_judged index reqId v hpasses

open RateLimiter

/-- A refusal leaves no calls. -/
theorem refused_judged (index : Nat) (reqId : RequestId) (text : String) {l l' : RateLimiter}
    (hl : ¬0 < l.left auth now) (hl' : ¬0 < l'.left auth now) :
    AtOnce now (Limits (· = l')) (rateLimitedMessage index reqId auth cfg text) fun outcome w =>
      Judged index (0 < l.left auth now) outcome ∧
        Limits (fun l'' => l''.left auth now = l.left auth now - 1) w := by
  refine (rateLimitedMessage_judged index reqId text hl).conseq (fun _ hw => hw) ?_
  rintro outcome w ⟨hjudged, rfl⟩
  refine ⟨hjudged, ?_⟩
  show w.app.rateLimiter.left auth now = l.left auth now - 1
  omega

theorem checkGlobal_limits (l : RateLimiter) :
    AtOnce now (Limits (· = l)) Relay.checkGlobal fun r w =>
      r = (rateLimiter.checkGlobal now l).1 ∧ Limits (· = (rateLimiter.checkGlobal now l).2) w := by
  apply Triple.perform
  rintro c w rfl rfl
  exact ⟨rfl, rfl⟩

theorem checkIp_limits (ip : IpAddr) (l : RateLimiter) :
    AtOnce now (Limits (· = l)) (Relay.checkIp ip) fun r w =>
      r = (rateLimiter.checkIp ip now l).1 ∧ Limits (· = (rateLimiter.checkIp ip now l).2) w := by
  apply Triple.perform
  rintro c w rfl rfl
  exact ⟨rfl, rfl⟩

theorem checkKey_limits (keyId : String) (perMin : Option Nat) (burst : Nat) (l : RateLimiter) :
    AtOnce now (Limits (· = l)) (Relay.checkKey keyId perMin burst) fun r w =>
      r = (rateLimiter.checkKey keyId perMin burst now l).1 ∧
        Limits (· = (rateLimiter.checkKey keyId perMin burst now l).2) w := by
  apply Triple.perform
  rintro c w rfl rfl
  exact ⟨rfl, rfl⟩

/-- A check whose bucket holds `tier` tokens refuses the message or lets it go on. -/
theorem checked_judged (index : Nat) (reqId : RequestId) (text : String) {l l₀ : RateLimiter}
    {check : RelayM (Except Nat Unit)} {checked : Except Nat Unit × RateLimiter} {tier : ℚ}
    {next : RelayM (Except MessageResult PreparedMessage)}
    (hcheck : AtOnce now (Limits (· = l₀)) check fun r w =>
      r = checked.1 ∧ Limits (· = checked.2) w)
    (hr : checked.1.isOk = true ↔ 1 ≤ tier) (hl : 0 < l.left auth now → 1 ≤ tier)
    (hl' : ¬1 ≤ tier → ¬0 < checked.2.left auth now)
    (hnext : 1 ≤ tier → AtOnce now (Limits (· = checked.2)) next fun outcome w =>
      Judged index (0 < l.left auth now) outcome ∧
        Limits (fun l'' => l''.left auth now = l.left auth now - 1) w) :
    AtOnce now (Limits (· = l₀))
      (check >>= fun r => match r with
        | .error _ => rateLimitedMessage index reqId auth cfg text
        | .ok () => next) fun outcome w =>
      Judged index (0 < l.left auth now) outcome ∧
        Limits (fun l'' => l''.left auth now = l.left auth now - 1) w := by
  refine hcheck.bind fun r => Triple.assume fun hanswer => ?_
  cases r with
  | error e =>
    have hnone : ¬1 ≤ tier := by
      rw [← hr, ← hanswer]
      exact Bool.false_ne_true
    exact refused_judged index reqId text (fun h => hnone (hl h)) (hl' hnone)
  | ok u =>
    rw [← hanswer] at hr
    exact hnext (hr.mp rfl)

/-- A message passes if calls are left, and takes one. -/
theorem phase1Prepare_judged (index : Nat) (m : MailRequest) (reqId : RequestId)
    (l : RateLimiter) :
    AtOnce now (Limits (· = l)) (phase1Prepare D index m reqId auth cfg) fun outcome w =>
      Judged index (0 < l.left auth now) outcome ∧
        Limits (fun l' => l'.left auth now = l.left auth now - 1) w := by
  obtain ⟨hglobal, hlevels₁⟩ := levels_checkGlobal auth now l
  refine checked_judged index reqId _ (checkGlobal_limits l) hglobal
    (fun h => (Levels.calls_pos_iff.mp h).1) ?_ fun hone => ?_
  · intro hnone h
    rw [left, hlevels₁, if_neg hnone] at h
    exact hnone (Levels.calls_pos_iff.mp h).1
  rw [if_pos hone] at hlevels₁
  generalize (rateLimiter.checkGlobal now l).2 = l₁ at hlevels₁ ⊢
  obtain ⟨hip, hlevels₂⟩ := levels_checkIp auth now l₁
  rw [hlevels₁] at hip hlevels₂
  refine checked_judged index reqId _ (checkIp_limits auth.clientIp l₁) hip
    (fun h => (Levels.calls_pos_iff.mp h).2.1) ?_ fun hone₂ => ?_
  · intro hnone h
    rw [left, hlevels₂, if_neg hnone] at h
    exact hnone (Levels.calls_pos_iff.mp h).2.1
  rw [if_pos hone₂] at hlevels₂
  generalize (rateLimiter.checkIp auth.clientIp now l₁).2 = l₂ at hlevels₂ ⊢
  obtain ⟨hkey, hlevels₃⟩ := levels_checkKey auth now l₂
  rw [hlevels₂] at hkey hlevels₃
  refine checked_judged index reqId _ (checkKey_limits _ _ _ l₂) hkey
    (fun h => (Levels.calls_pos_iff.mp h).2.2) ?_ fun hone₃ => ?_
  · intro hnone h
    rw [left, hlevels₃, if_neg hnone] at h
    exact hnone (Levels.calls_pos_iff.mp h).2.2
  rw [if_pos hone₃] at hlevels₃
  generalize (rateLimiter.checkKey auth.keyId auth.keyRateLimitPerMin auth.keyBurst now l₂).2 = l₃
    at hlevels₃ ⊢
  have hpasses : 0 < l.left auth now := Levels.calls_pos_iff.mpr ⟨hone, hone₂, hone₃⟩
  refine (prepareAdmitted_judged index m reqId hpasses).conseq (fun _ hw => hw) ?_
  rintro outcome w ⟨hjudged, rfl⟩
  refine ⟨hjudged, ?_⟩
  show w.app.rateLimiter.left auth now = l.left auth now - 1
  rw [left, hlevels₃]
  exact Levels.calls_pred _

theorem phase1Prepare_counts (index : Nat) (m : MailRequest) (reqId : RequestId) (n : Nat) :
    AtOnce now (Limits fun l => l.left auth now = n) (phase1Prepare D index m reqId auth cfg)
      fun outcome w =>
        Judged index (0 < n) outcome ∧ Limits (fun l => l.left auth now = n - 1) w := by
  intro cs w hok hw outcome ha
  have hjudged := phase1Prepare_judged index m reqId w.app.rateLimiter cs w hok rfl outcome ha
  have hleft : w.app.rateLimiter.left auth now = n := hw
  rw [hleft] at hjudged
  exact hjudged

/-! ## The array -/

/-- The first `n` messages are prepared, or rejected for something else; the others
are rejected with `rate_limited`. -/
structure Cut (items : List BulkItem) (n : Nat) (out : List MessageResult × List PreparedMessage) :
    Prop where
  rejected : ∀ r ∈ out.1, r.status = "rejected"
  limited : (out.1.filter rateLimitedCode).map MessageResult.index =
    (items.drop n).map BulkItem.index
  passed : ((out.1.filter fun r => !rateLimitedCode r).map MessageResult.index ++
    out.2.map PreparedMessage.index).Perm ((items.take n).map BulkItem.index)

variable {items : List BulkItem} {n : Nat}

theorem Cut.nil : Cut [] n ([], []) := by
  refine ⟨fun r hr => (List.not_mem_nil hr).elim, ?_, ?_⟩
  · rw [List.drop_nil]
    rfl
  · rw [List.take_nil]
    exact List.Perm.refl _

theorem Cut.prepared {item : BulkItem} {rejected : List MessageResult}
    {prepared : List PreparedMessage} {p : PreparedMessage}
    (h : Cut items (n - 1) (rejected, prepared)) (hp : Judged item.index (0 < n) (.ok p)) :
    Cut (item :: items) n (rejected, p :: prepared) := by
  obtain ⟨hpos, hindex⟩ := hp
  obtain ⟨k, rfl⟩ : ∃ k, n = k + 1 := ⟨n - 1, by omega⟩
  refine ⟨h.rejected, h.limited, ?_⟩
  rw [List.take_succ_cons, List.map_cons, List.map_cons, hindex]
  exact List.perm_middle.trans (h.passed.cons _)

theorem Cut.refused {item : BulkItem} {rejected : List MessageResult}
    {prepared : List PreparedMessage} {r : MessageResult}
    (h : Cut items (n - 1) (rejected, prepared)) (hr : Judged item.index (0 < n) (.error r)) :
    Cut (item :: items) n (r :: rejected, prepared) := by
  obtain ⟨hindex, hstatus, hlimited⟩ := hr
  have hall : ∀ r' ∈ r :: rejected, r'.status = "rejected" := by
    intro r' hr'
    rcases List.mem_cons.mp hr' with rfl | hr'
    · exact hstatus
    · exact h.rejected r' hr'
  cases n with
  | zero =>
    -- no calls are left, and none come back
    have hcode : rateLimitedCode r = true := hlimited.mpr (Nat.lt_irrefl 0)
    refine ⟨hall, ?_, ?_⟩
    · rw [List.filter_cons_of_pos hcode, List.map_cons, hindex, h.limited]
      rfl
    · rw [List.filter_cons_of_neg (by simp [hcode])]
      exact h.passed
  | succ k =>
    have hcode : rateLimitedCode r = false := by
      rw [← Bool.not_eq_true, hlimited]
      exact fun hnot => hnot (Nat.succ_pos k)
    refine ⟨hall, ?_, ?_⟩
    · rw [List.filter_cons_of_neg (by simp [hcode])]
      exact h.limited
    · rw [List.filter_cons_of_pos (by simp [hcode]), List.map_cons, hindex, List.take_succ_cons,
        List.map_cons, List.cons_append]
      exact h.passed.cons _

theorem phase1Loop_cut (items : List BulkItem) (n : Nat) :
    AtOnce now (Limits fun l => l.left auth now = n) (phase1Loop D auth cfg items)
      fun out _ => Cut items n out := by
  induction items generalizing n with
  | nil => exact Triple.ret fun _ _ => Cut.nil
  | cons item items ih =>
    refine (phase1Prepare_counts item.index item.rawMsg item.reqId n).bind fun outcome => ?_
    refine Triple.assume fun hjudged => (ih (n - 1)).bind fun out => ?_
    cases outcome with
    | ok p => exact Triple.ret fun _ hcut => hcut.prepared hjudged
    | error r => exact Triple.ret fun _ hcut => hcut.refused hjudged

theorem index_bulkItems (messages : List (MailRequest × RequestId)) :
    (bulkItems (messages.map Prod.fst) (messages.map Prod.snd)).map BulkItem.index =
      List.range messages.length := by
  rw [bulkItems_eq]
  apply List.ext_getElem
  · rw [List.length_map, List.length_mapIdx, List.length_range]
  · intro i _ _
    rw [List.getElem_map, List.getElem_mapIdx, List.getElem_range]

end BulkCutoff

open BulkCutoff in
/-- At one reading of the clock the messages that pass the limiter are the first
ones of the array, as many as each of the three buckets has whole tokens, and the
others are rejected with `rate_limited`, whatever they and the first ones say. -/
theorem bulk_cuts_off_suffix (D : Deps) (auth : AuthContext) (cfg : AppConfig)
    (messages : List (MailRequest × RequestId)) {cs : Nat → Choice} {now : Instant}
    (hnow : ∀ n, (cs n).instant = now) (w : World RateLimiter) :
    let g := (w.app.rateLimiter.global.refill now).tokens
    let i := ((w.app.rateLimiter.ipBucket auth.clientIp now).refill now).tokens
    let k := ((w.app.rateLimiter.keyBucket auth.keyId auth.keyRateLimitPerMin auth.keyBurst
      now).refill now).tokens
    let m := min messages.length (min ⌊g⌋₊ (min ⌊i⌋₊ ⌊k⌋₊))
    ∀ rejected prepared,
      (run (exec rateLimiter) (phase1Loop D auth cfg
        (bulkItems (messages.map Prod.fst) (messages.map Prod.snd))) cs w).1 =
          some (rejected, prepared) →
      (rejected.filter rateLimitedCode).map MessageResult.index =
          List.range' m (messages.length - m) ∧
        ((rejected.filter fun r => !rateLimitedCode r).map MessageResult.index ++
          prepared.map PreparedMessage.index).Perm (List.range m) ∧
        ∀ r ∈ rejected, r.status = "rejected" := by
  intro g i k m rejected prepared hrun
  have hcut := phase1Loop_cut _ _ cs w hnow rfl _ hrun
  have hm : m = min messages.length (w.app.rateLimiter.left auth now) := rfl
  have hlimited := hcut.limited
  have hpassed := hcut.passed
  rw [List.map_drop, index_bulkItems] at hlimited
  rw [List.map_take, index_bulkItems, List.take_range, Nat.min_comm] at hpassed
  refine ⟨?_, hpassed, hcut.rejected⟩
  rw [hlimited, List.range_eq_range', List.drop_range', Nat.zero_add, Nat.mul_one]
  rcases Nat.le_total messages.length (w.app.rateLimiter.left auth now) with hall | hsome
  · rw [Nat.sub_eq_zero_of_le hall, hm, Nat.min_eq_left hall, Nat.sub_self]
    rfl
  · rw [hm, Nat.min_eq_right hsome]

/-- A relay with one request a minute for each address. -/
def slowIpWorld : World RateLimiter where
  app := .new slowIpConfig (.new slowIpConfig.rateLimit 0)
  bodyLimit := slowIpConfig.server.maxRequestBodyBytes
  handed := []

/-- Of two messages the second is one too many. -/
theorem bulk_cuts_off_second :
    ∃ rejected prepared,
      (run (exec rateLimiter) (phase1Loop .plain sampleAuth slowIpConfig
        (bulkItems [sampleRequest, sampleRequest] [⟨"req_0"⟩, ⟨"req_1"⟩]))
        (fun _ => sampleChoice) slowIpWorld).1 = some (rejected, prepared) ∧
      (rejected.filter BulkCutoff.rateLimitedCode).map MessageResult.index = [1] := by
  have hends : ((run (exec rateLimiter) (phase1Loop .plain sampleAuth slowIpConfig
      (bulkItems [sampleRequest, sampleRequest] [⟨"req_0"⟩, ⟨"req_1"⟩]))
      (fun _ => sampleChoice) slowIpWorld).1).isSome = true := by decide +kernel
  obtain ⟨⟨rejected, prepared⟩, hrun⟩ := Option.isSome_iff_exists.mp hends
  have hnow : ∀ n, ((fun _ => sampleChoice : Nat → Choice) n).instant = 0 := fun _ => rfl
  obtain ⟨hlimited, -⟩ := bulk_cuts_off_suffix .plain sampleAuth slowIpConfig
    [(sampleRequest, ⟨"req_0"⟩), (sampleRequest, ⟨"req_1"⟩)] hnow slowIpWorld rejected prepared hrun
  exact ⟨rejected, prepared, hrun, hlimited.trans (by decide +kernel)⟩

end HttpSmtpRele
