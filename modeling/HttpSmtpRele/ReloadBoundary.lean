import HttpSmtpRele.ConfigValidate
import HttpSmtpRele.Lib.FieldMerge
import HttpSmtpRele.Settings

/-!
# The reload boundary

On `SIGHUP` two functions split the settings in two: `restartRequiredChanges`
names, one by one, those whose change needs a restart, and `mergeReloadable`
keeps, by sections, those that do not change before.  The log line is built from
the first, the config in force from the second.  They differ on three settings
of `[security]`, named and yet applied, and on sixteen that are kept and not
named.
-/

namespace HttpSmtpRele

namespace Setting

/-- The settings a reload keeps. -/
def kept : Setting → Bool
  | server _ | smtp _ | rateLimit _ => true
  | security _ | mail _ | logging _ => false
  | status .enabled | status .store | status .dbPath | status .redisUrl => true
  | status .ttlSeconds | status .maxRecords | status .cleanupIntervalSeconds => false

/-- The settings `restartRequiredChanges` looks at, in its order. -/
def reported : List Setting :=
  [server .bindAddress, server .requestTimeoutSeconds, server .maxRequestBodyBytes,
   server .concurrencyLimit, smtp .host, smtp .port, smtp .mode, rateLimit .globalPerMin,
   rateLimit .perIpPerMin, rateLimit .perKeyPerMin, security .trustProxyHeaders,
   security .trustedSourceCidrs, security .allowedSourceCidrs, status .enabled, status .store,
   status .dbPath, status .redisUrl]

/-- Reported as rejected, but taken from the new config. -/
def misreported : List Setting :=
  [security .trustProxyHeaders, security .trustedSourceCidrs, security .allowedSourceCidrs]

/-- Kept as they are, but never reported. -/
def unreported : List Setting :=
  [server .shutdownTimeoutSeconds, server .tlsCert, server .tlsKey, server .monitoringCidrs,
   smtp .tls, smtp .connectTimeoutSeconds, smtp .submissionTimeoutSeconds, smtp .authUser,
   smtp .authPassword, smtp .pipeCommand, smtp .bulkConcurrency, rateLimit .globalBurst,
   rateLimit .perIpBurst, rateLimit .perKeyBurst, rateLimit .burstSize, rateLimit .ipTableSize]

theorem mem_misreported (s : Setting) : s ∈ misreported ↔ s ∈ reported ∧ s.kept = false := by
  have hall : ∀ s ∈ all, s ∈ misreported ↔ s ∈ reported ∧ s.kept = false := by decide +kernel
  exact hall s (mem_all s)

theorem mem_unreported (s : Setting) : s ∈ unreported ↔ s.kept = true ∧ s ∉ reported := by
  have hall : ∀ s ∈ all, s ∈ unreported ↔ s.kept = true ∧ s ∉ reported := by decide +kernel
  exact hall s (mem_all s)

theorem get_mergeReloadable (s : Setting) (current new : AppConfig) :
    s.get (mergeReloadable current new) =
      if s.kept = true then s.get current else s.get new := by
  cases s with
  | status f => cases f <;> rfl
  | _ => rfl

end Setting

/-- `mergeReloadable`, setting by setting. -/
def reloadMerge : FieldMerge AppConfig Setting SettingValue where
  get s config := s.get config
  ext := Setting.config_ext
  kept := Setting.kept
  merge := mergeReloadable
  get_merge := Setting.get_mergeReloadable

/-- A list of checked labels is the labels that pass the check. -/
theorem filterMap_checks {α : Type} (p : α → Bool) (label : α → String) (l : List α) :
    (l.map fun a => (p a, label a)).filterMap
      (fun check => if check.1 then some check.2 else none) = (l.filter p).map label := by
  induction l with
  | nil => rfl
  | cons a l ih =>
    rw [List.map_cons, List.filterMap_cons, ih]
    cases hp : p a with
    | true => simp [hp]
    | false => simp [hp]

theorem restartRequiredChanges_eq (old new : AppConfig) :
    restartRequiredChanges old new =
      (Setting.reported.filter fun s => decide (s.get old ≠ s.get new)).map Setting.label := by
  rw [← filterMap_checks]
  unfold restartRequiredChanges
  congr 1
  simp [Setting.reported, Setting.get, Setting.label, ServerField.get, ServerField.label,
    SmtpField.get, SmtpField.label, RateLimitField.get, RateLimitField.label, SecurityField.get,
    SecurityField.label, StatusField.get, StatusField.label]

theorem label_mem_restartRequiredChanges {s : Setting} {old new : AppConfig} :
    s.label ∈ restartRequiredChanges old new ↔
      s ∈ Setting.reported ∧ s.get old ≠ s.get new := by
  rw [restartRequiredChanges_eq, List.mem_map]
  constructor
  · rintro ⟨t, ht, hlabel⟩
    obtain rfl := Setting.label_injective hlabel
    simpa using ht
  · intro h
    exact ⟨s, by simpa using h, rfl⟩

/-! ## What is reported is not applied -/

/-- Every label in the report names a setting that keeps its value. -/
def RejectedKept (current new : AppConfig) : Prop :=
  ∀ label ∈ restartRequiredChanges current new,
    ∃ s : Setting, s.label = label ∧ s.get (mergeReloadable current new) = s.get current

theorem rejectedKept_iff_reported {current new : AppConfig} :
    RejectedKept current new ↔
      ∀ s ∈ Setting.reported, s.get current ≠ s.get new →
        s.get (mergeReloadable current new) = s.get current := by
  unfold RejectedKept
  constructor
  · intro h s hrep hne
    obtain ⟨t, hlabel, hkept⟩ := h s.label (label_mem_restartRequiredChanges.mpr ⟨hrep, hne⟩)
    obtain rfl := Setting.label_injective hlabel
    exact hkept
  · intro h label hmem
    rw [restartRequiredChanges_eq, List.mem_map] at hmem
    obtain ⟨s, hs, rfl⟩ := hmem
    have hchanged : s ∈ Setting.reported ∧ s.get current ≠ s.get new := by simpa using hs
    exact ⟨s, rfl, h s hchanged.1 hchanged.2⟩

/-- The log line is right, exactly if the proxy and source settings did not
change: these come with the security section. -/
theorem rejected_changes_kept_iff (current new : AppConfig) :
    RejectedKept current new ↔
      current.security.trustProxyHeaders = new.security.trustProxyHeaders ∧
        current.security.trustedSourceCidrs = new.security.trustedSourceCidrs ∧
        current.security.allowedSourceCidrs = new.security.allowedSourceCidrs := by
  rw [rejectedKept_iff_reported]
  have hboundary := reloadMerge.reported_kept_iff (· ∈ Setting.reported) current new
  apply hboundary.trans
  have hmis : (∀ s ∈ Setting.reported, s.kept = false → s.get current = s.get new) ↔
      ∀ s ∈ Setting.misreported, s.get current = s.get new := by
    constructor
    · intro h s hs
      obtain ⟨hrep, hkept⟩ := (Setting.mem_misreported s).mp hs
      exact h s hrep hkept
    · intro h s hrep hkept
      exact h s ((Setting.mem_misreported s).mpr ⟨hrep, hkept⟩)
  apply hmis.trans
  simp [Setting.misreported, Setting.get, SecurityField.get]

def boundaryConfig : AppConfig :=
  .default "127.0.0.1:8080" "relay@example.com"
    [.default "svc" ⟨"0123456789abcdef0123456789abcdef"⟩]

/-- The same file with `trust_proxy_headers = true`. -/
def trustingConfig : AppConfig :=
  { boundaryConfig with
    security := { boundaryConfig.security with trustProxyHeaders := true } }

theorem trusted_headers_applied :
    ConfigValidate.Accepted {} .plain boundaryConfig ∧
      ConfigValidate.Accepted {} .plain trustingConfig ∧
      restartRequiredChanges boundaryConfig trustingConfig = ["security.trust_proxy_headers"] ∧
      (mergeReloadable boundaryConfig trustingConfig).security.trustProxyHeaders = true ∧
      ¬RejectedKept boundaryConfig trustingConfig := by
  refine ⟨?_, ?_, by decide, by decide, fun h => ?_⟩
  · unfold ConfigValidate.Accepted
    decide
  · unfold ConfigValidate.Accepted
    decide
  · have hkept := rejectedKept_iff_reported.mp h (.security .trustProxyHeaders) (by decide)
      (by decide)
    revert hkept
    decide

/-! ## What is not applied is reported -/

/-- Every setting that does not get its new value is in the report. -/
def DroppedReported (current new : AppConfig) : Prop :=
  ∀ s : Setting, s.get (mergeReloadable current new) ≠ s.get new →
    s.label ∈ restartRequiredChanges current new

/-- Nothing is dropped silently, exactly if none of the sixteen settings that are
kept with their section and not reported changed. -/
theorem dropped_changes_reported_iff (current new : AppConfig) :
    DroppedReported current new ↔ ∀ s ∈ Setting.unreported, s.get current = s.get new := by
  unfold DroppedReported
  simp only [label_mem_restartRequiredChanges]
  have hboundary := reloadMerge.dropped_reported_iff (· ∈ Setting.reported) current new
  apply hboundary.trans
  constructor
  · intro h s hs
    obtain ⟨hkept, hrep⟩ := (Setting.mem_unreported s).mp hs
    exact h s hkept hrep
  · intro h s hkept hrep
    exact h s ((Setting.mem_unreported s).mpr ⟨hkept, hrep⟩)

/-- The same file with `tls = "starttls"`. -/
def starttlsConfig : AppConfig :=
  { boundaryConfig with smtp := { boundaryConfig.smtp with tls := "starttls" } }

theorem starttls_dropped_silently :
    ConfigValidate.Accepted {} .plain boundaryConfig ∧
      ConfigValidate.Accepted {} .plain starttlsConfig ∧
      (mergeReloadable boundaryConfig starttlsConfig).smtp.tls = "none" ∧
      restartRequiredChanges boundaryConfig starttlsConfig = [] ∧
      ¬DroppedReported boundaryConfig starttlsConfig := by
  refine ⟨?_, ?_, by decide, by decide, fun h => ?_⟩
  · unfold ConfigValidate.Accepted
    decide
  · unfold ConfigValidate.Accepted
    decide
  · have hreported := h (.smtp .tls) (by decide)
    revert hreported
    decide

end HttpSmtpRele
