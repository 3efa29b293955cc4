import Mathlib.Algebra.Group.Nat.Defs
import Mathlib.Data.List.Dedup
import Mathlib.Data.List.Sort
import HttpSmtpRele.Error
import HttpSmtpRele.Request

/-!
# `status.rs`: submission status records

The record a submission leaves behind, the changes a handler asks for, and the
helper that reduces a recipient list to its domains.  A `DateTime<Utc>` is the
number of nanoseconds since the epoch.
-/

namespace HttpSmtpRele

open RustStr

/-- `chrono::DateTime<Utc>` in nanoseconds. -/
abbrev DateTime := Int

namespace Chrono

/-- `Duration::seconds` panics outside ± `i64::MAX / 1000` seconds. -/
def maxSeconds : Int := 9223372036854775

/-- `DateTime::<Utc>::MIN_UTC`. -/
def minUtc : DateTime := -8334601228800 * 1000000000

/-- `DateTime::<Utc>::MAX_UTC`. -/
def maxUtc : DateTime := 8210266876799 * 1000000000 + 999999999

/-- `secs as i64` for a `u64`. -/
def asI64 (secs : Nat) : Int := (BitVec.ofNat 64 secs).toInt

/-- `at + Duration::seconds(secs as i64)`; `none` is a panic. -/
def addSeconds (time : DateTime) (secs : Nat) : Option DateTime :=
  let s := asI64 secs
  let sum := time + s * 1000000000
  if -maxSeconds ≤ s ∧ s ≤ maxSeconds ∧ minUtc ≤ sum ∧ sum ≤ maxUtc then some sum else none

end Chrono

/-- A lower-case domain. -/
structure Domain where
  asStr : String
  deriving DecidableEq, Repr

def Domain.fromAddress (T : CaseTable) (email : String) : Option Domain :=
  (afterLast email '@').map fun d => ⟨toLowercase T d⟩

inductive SubmissionStatus
  | received
  | rejected
  | smtpSubmissionStarted
  | smtpAccepted
  | smtpFailed
  deriving DecidableEq, Repr

namespace SubmissionStatus

def isTerminal : SubmissionStatus → Bool
  | rejected | smtpAccepted | smtpFailed => true
  | received | smtpSubmissionStarted => false

/-- The name in JSON, in metrics and in SQL. -/
def asStr : SubmissionStatus → String
  | received => "received"
  | rejected => "rejected"
  | smtpSubmissionStarted => "smtp_submission_started"
  | smtpAccepted => "smtp_accepted"
  | smtpFailed => "smtp_failed"

end SubmissionStatus

structure SubmissionStatusRecord where
  requestId : RequestId
  keyId : String
  status : SubmissionStatus
  code : Option ErrorCode
  message : Option String
  recipientDomains : List Domain
  recipientCount : Nat
  createdAt : DateTime
  updatedAt : DateTime
  expiresAt : DateTime
  deriving DecidableEq

namespace SubmissionStatusRecord

/-- `now` is the reading of `Utc::now()`; `none` is a panic in the date arithmetic. -/
def newReceived (requestId : RequestId) (keyId : String) (ttlSeconds : Nat) (now : DateTime) :
    Option SubmissionStatusRecord :=
  (Chrono.addSeconds now ttlSeconds).map fun expiresAt =>
    { requestId := requestId
      keyId := keyId
      status := .received
      code := none
      message := some "Submission received."
      recipientDomains := []
      recipientCount := 0
      createdAt := now
      updatedAt := now
      expiresAt := expiresAt }

def isExpired (r : SubmissionStatusRecord) (now : DateTime) : Bool := decide (now > r.expiresAt)

theorem isExpired_eq_false {r : SubmissionStatusRecord} {now : DateTime} :
    r.isExpired now = false ↔ now ≤ r.expiresAt := by
  simp [isExpired]

theorem isExpired_eq_true {r : SubmissionStatusRecord} {now : DateTime} :
    r.isExpired now = true ↔ r.expiresAt < now := by
  simp [isExpired]

/-- What a new record says, apart from its dates. -/
theorem newReceived_eq_some {requestId : RequestId} {keyId : String} {ttl : Nat} {now : DateTime}
    {r : SubmissionStatusRecord} (h : newReceived requestId keyId ttl now = some r) :
    r.requestId = requestId ∧ r.keyId = keyId ∧ r.status = .received ∧ r.code = none := by
  unfold newReceived at h
  obtain ⟨expiresAt, -, rfl⟩ := Option.map_eq_some_iff.mp h
  exact ⟨rfl, rfl, rfl, rfl⟩

end SubmissionStatusRecord

structure StatusUpdate where
  status : SubmissionStatus
  code : Option ErrorCode
  message : Option String
  deriving DecidableEq

/-! ## Recipient metadata -/

/-- The contents of the `BTreeSet`: sorted, without repetition. -/
def sortedSet (names : List String) : List String := names.dedup.insertionSort (· ≤ ·)

/-- The lower-case domains of the recipients. -/
def domainNames (T : CaseTable) (addrs : List String) : List String :=
  addrs.filterMap fun addr => (Domain.fromAddress T addr).map Domain.asStr

def recipientDomainsFrom (T : CaseTable) (toAddrs cc : List String) : List Domain :=
  (sortedSet (domainNames T (toAddrs ++ cc))).map Domain.mk

/-- `(to.len() + cc.len()) as u32`. -/
def recipientCount (toAddrs cc : List String) : Nat := (toAddrs.length + cc.length) % 2 ^ 32

theorem mem_sortedSet {names : List String} {d : String} : d ∈ sortedSet names ↔ d ∈ names := by
  rw [sortedSet, List.mem_insertionSort, List.mem_dedup]

/-- Lists with the same elements give the same set. -/
theorem sortedSet_congr {l₁ l₂ : List String} (h : ∀ d, d ∈ l₁ ↔ d ∈ l₂) :
    sortedSet l₁ = sortedSet l₂ := by
  have hperm : (sortedSet l₁).Perm (sortedSet l₂) := by
    refine (List.perm_ext_iff_of_nodup ?_ ?_).mpr fun d => ?_
    · exact (List.perm_insertionSort _ _).nodup_iff.mpr l₁.nodup_dedup
    · exact (List.perm_insertionSort _ _).nodup_iff.mpr l₂.nodup_dedup
    · rw [mem_sortedSet, mem_sortedSet, h]
  exact hperm.eq_of_pairwise' (List.pairwise_insertionSort _ _) (List.pairwise_insertionSort _ _)

/-- The stored domains are determined by the set of domains. -/
theorem recipientDomainsFrom_congr {T : CaseTable} {to₁ cc₁ to₂ cc₂ : List String}
    (h : ∀ d, d ∈ domainNames T (to₁ ++ cc₁) ↔ d ∈ domainNames T (to₂ ++ cc₂)) :
    recipientDomainsFrom T to₁ cc₁ = recipientDomainsFrom T to₂ cc₂ := by
  rw [recipientDomainsFrom, recipientDomainsFrom, sortedSet_congr h]

example : recipientDomainsFrom asciiTable ["a@example.org", "b@Example.com"] ["c@example.com"] =
    [⟨"example.com"⟩, ⟨"example.org"⟩] := by decide

end HttpSmtpRele
