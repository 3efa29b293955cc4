import HttpSmtpRele.Lib.Results
import HttpSmtpRele.Request

/-!
# `config/validate.rs`: configuration validation

`validateConfig` runs at startup and before a reload.  Its checks come in the
order of the source; those that depend on how the crate was built take the
`Features`.  Loading the file itself is left out: `Io` and `Parse` are not
raised here.
-/

namespace HttpSmtpRele

open RustStr Except

/-- The Cargo features; none is on by default. -/
structure Features where
  sqlite : Bool := false
  tls : Bool := false
  redis : Bool := false
  deriving DecidableEq

inductive ConfigError
  | invalidBindAddress
  | invalidDefaultFrom
  | noApiKeys
  | noEnabledApiKeys
  | invalidCidr (cidr : String)
  | validation (message : String)
  | invalidSmtpPort
  | invalidRateLimit
  | invalidLogLevel
  | invalidLogFormat
  deriving DecidableEq, Repr

namespace ConfigValidate

def minSecretLen : Nat := 32

def blocked : List String :=
  ["your-secret-here", "generate-with-openssl-rand-base64-32", "changeme", "secret", "password",
    "example-secret", "replace-me"]

def checkCidr (D : Deps) (cidr : String) : Except ConfigError Unit :=
  failIf (D.parseIpNet cidr).isNone (.invalidCidr cidr)

def checkTls (features : Features) (server : ServerConfig) : Except ConfigError Unit :=
  match server.tlsCert, server.tlsKey with
  | some _, none | none, some _ =>
    .error (.validation
      "server.tls_cert and server.tls_key must both be set or both be absent")
  | some _, some _ =>
    failIf (!features.tls) (.validation
      "server.tls_cert/tls_key is configured but TLS is not available in this build.                  Rebuild with: cargo build --features tls")
  | none, none => .ok ()

def checkStatusStore (features : Features) (status : StatusConfig) : Except ConfigError Unit :=
  if status.store = "sqlite" then do
    failIf status.dbPath.isNone (.validation
      "status.db_path is required when status.store = \"sqlite\"")
    failIf (!features.sqlite) (.validation
      "status.store = \"sqlite\" is not available in this build.              Rebuild with: cargo build --features sqlite")
  else if status.store = "redis" then do
    failIf status.redisUrl.isNone (.validation
      "status.redis_url is required when status.store = \"redis\"")
    failIf (!features.redis) (.validation
      "status.store = \"redis\" is not available in this build.              Rebuild with: cargo build --features redis")
  else
    failIf (status.store != "memory") (.validation
      ("status.store must be \"memory\", \"sqlite\", or \"redis\"; got \"" ++ status.store ++ "\""))

/-- The quality checks on one secret. -/
def checkSecret (key : ApiKeyConfig) : Except ConfigError Unit := do
  let s := key.secret.expose
  failIf (decide (s.utf8ByteSize < minSecretLen)) (.validation
    ("api_keys[" ++ key.id ++ "].secret: minimum " ++ toString minSecretLen ++
      " bytes required (got " ++ toString s.utf8ByteSize ++
      ").                  Generate with: openssl rand -base64 32"))
  failIf (blocked.any fun b => containsStr s b) (.validation
    ("api_keys[" ++ key.id ++
      "].secret: placeholder value detected.                  Replace with: openssl rand -base64 32"))

def validateConfig (features : Features) (D : Deps) (config : AppConfig) :
    Except ConfigError Unit := do
  failIf (!D.parseSocketAddr config.server.bindAddress) .invalidBindAddress
  failIf (D.parseAddress config.mail.defaultFrom).isNone .invalidDefaultFrom
  checkAll (checkCidr D)
    (config.security.trustedSourceCidrs ++ config.security.allowedSourceCidrs)
  failIf (config.smtp.port == 0) .invalidSmtpPort
  failIf (!(["none", "starttls", "tls"].contains config.smtp.tls)) (.validation
    ("smtp.tls must be \"none\", \"starttls\", or \"tls\"; got \"" ++ config.smtp.tls ++ "\""))
  failIf (config.smtp.authUser.isSome != config.smtp.authPassword.isSome) (.validation
    "smtp.auth_user and smtp.auth_password must both be set or both absent")
  checkTls features config.server
  (if config.status.enabled then checkStatusStore features config.status else .ok ())
  failIf (config.smtp.mode == "pipe" &&
      (config.smtp.authUser.isSome || config.smtp.authPassword.isSome)) (.validation
    "smtp.auth_user/auth_password are not applicable when smtp.mode = \"pipe\"")
  failIf (config.rateLimit.globalPerMin == 0 || config.rateLimit.perIpPerMin == 0)
    .invalidRateLimit
  failIf (!(["trace", "debug", "info", "warn", "error"].contains config.logging.level))
    .invalidLogLevel
  failIf (!(["text", "json"].contains config.logging.format)) .invalidLogFormat
  checkAll checkSecret config.security.apiKeys
  failIf config.security.apiKeys.isEmpty .noApiKeys
  failIf (!config.security.apiKeys.any fun k => k.enabled) .noEnabledApiKeys

/-- The configs that start up. -/
def Accepted (features : Features) (D : Deps) (config : AppConfig) : Prop :=
  validateConfig features D config = .ok ()

/-- What the checks that later results rely on establish. -/
theorem validateConfig_ok {features : Features} {D : Deps} {config : AppConfig}
    (h : Accepted features D config) :
    (∃ a, D.parseAddress config.mail.defaultFrom = some a) ∧
      (∀ key ∈ config.security.apiKeys, minSecretLen ≤ key.secret.expose.utf8ByteSize) ∧
      ∃ key ∈ config.security.apiKeys, key.enabled = true := by
  unfold Accepted validateConfig at h
  simp only [guard_bind_eq_ok, failIf_eq_ok] at h
  obtain ⟨-, hfrom, -, -, -, -, -, -, -, -, -, -, hsecrets, -, henabled⟩ := h
  refine ⟨?_, fun key hkey => ?_, ?_⟩
  · cases hp : D.parseAddress config.mail.defaultFrom with
    | none => simp [hp] at hfrom
    | some a => exact ⟨a, rfl⟩
  · have hk := checkAll_eq_ok.mp hsecrets key hkey
    unfold checkSecret at hk
    simp only [guard_bind_eq_ok, failIf_eq_ok, decide_eq_false_iff_not] at hk
    exact Nat.le_of_not_lt hk.1
  · simpa using henabled

theorem validateConfig_rates {features : Features} {D : Deps} {config : AppConfig}
    (h : Accepted features D config) :
    0 < config.rateLimit.globalPerMin ∧ 0 < config.rateLimit.perIpPerMin := by
  unfold Accepted validateConfig at h
  simp only [guard_bind_eq_ok, failIf_eq_ok] at h
  obtain ⟨-, -, -, -, -, -, -, -, -, hrates, -⟩ := h
  rw [Bool.or_eq_false_iff, beq_eq_false_iff_ne, beq_eq_false_iff_ne] at hrates
  exact ⟨Nat.pos_of_ne_zero hrates.1, Nat.pos_of_ne_zero hrates.2⟩

end ConfigValidate

end HttpSmtpRele
