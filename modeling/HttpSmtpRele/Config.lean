import HttpSmtpRele.Lib.RustStr

/-!
# `config.rs`: the configuration schema

Every section and field of the TOML file, under the source's names.  Unsigned
fields are `Nat`: the bound of their Rust type matters at a cast or a product
only, where it is written out.  A path is its text, without the repeated
separators and the `.` parts that `PathBuf` does not compare.
-/

namespace HttpSmtpRele

/-- A secret read from the file; the text is reached through `expose` only. -/
structure SecretString where
  expose : String
  deriving DecidableEq

structure ServerConfig where
  bindAddress : String
  maxRequestBodyBytes : Nat
  requestTimeoutSeconds : Nat
  shutdownTimeoutSeconds : Nat
  /-- 0 = unlimited -/
  concurrencyLimit : Nat
  tlsCert : Option String
  tlsKey : Option String
  monitoringCidrs : List String
  deriving DecidableEq

/-- One `[[security.api_keys]]` entry. -/
structure ApiKeyConfig where
  id : String
  secret : SecretString
  enabled : Bool
  description : Option String
  /-- empty = no restriction by this key -/
  allowedRecipientDomains : List String
  /-- empty = domain policy only -/
  allowedRecipients : List String
  /-- `none` = `rate_limit.per_key_per_min` -/
  rateLimitPerMin : Option Nat
  /-- 0 = `rate_limit.per_key_burst` -/
  burst : Nat
  maskRecipient : Option Bool
  deriving DecidableEq

structure SecurityConfig where
  trustProxyHeaders : Bool
  trustedSourceCidrs : List String
  /-- empty = every source address -/
  allowedSourceCidrs : List String
  apiKeys : List ApiKeyConfig
  deriving DecidableEq

structure MailConfig where
  defaultFrom : String
  defaultFromName : Option String
  /-- empty = every domain -/
  allowedRecipientDomains : List String
  maxSubjectChars : Nat
  maxBodyBytes : Nat
  maxRecipients : Nat
  maxAttachments : Nat
  maxAttachmentBytes : Nat
  maxBulkMessages : Nat
  allowHtmlBody : Bool
  allowAttachments : Bool
  allowBulkSend : Bool
  maxTotalAttachmentBytes : Option Nat
  deriving DecidableEq

structure SmtpConfig where
  mode : String
  tls : String
  host : String
  port : Nat
  connectTimeoutSeconds : Nat
  submissionTimeoutSeconds : Nat
  authUser : Option String
  authPassword : Option SecretString
  pipeCommand : String
  /-- 0 = unlimited -/
  bulkConcurrency : Nat
  deriving DecidableEq

structure RateLimitConfig where
  globalPerMin : Nat
  perIpPerMin : Nat
  perKeyPerMin : Nat
  globalBurst : Nat
  perIpBurst : Nat
  perKeyBurst : Nat
  burstSize : Nat
  /-- 0 = unlimited -/
  ipTableSize : Nat
  deriving DecidableEq

structure LoggingConfig where
  format : String
  level : String
  maskRecipient : Bool
  deriving DecidableEq

structure StatusConfig where
  enabled : Bool
  store : String
  ttlSeconds : Nat
  maxRecords : Nat
  cleanupIntervalSeconds : Nat
  dbPath : Option String
  redisUrl : Option String
  deriving DecidableEq

structure AppConfig where
  server : ServerConfig
  security : SecurityConfig
  mail : MailConfig
  smtp : SmtpConfig
  rateLimit : RateLimitConfig
  logging : LoggingConfig
  status : StatusConfig
  deriving DecidableEq

/-- `i64::MAX`: the integers of the file are signed. -/
def tomlMax : Nat := 9223372036854775807

/-! ## Defaults -/

def ServerConfig.default (bindAddress : String) : ServerConfig where
  bindAddress := bindAddress
  maxRequestBodyBytes := 1048576
  requestTimeoutSeconds := 30
  shutdownTimeoutSeconds := 30
  concurrencyLimit := 0
  tlsCert := none
  tlsKey := none
  monitoringCidrs := ["127.0.0.1/32", "::1/128"]

def ApiKeyConfig.default (id : String) (secret : SecretString) : ApiKeyConfig where
  id := id
  secret := secret
  enabled := true
  description := none
  allowedRecipientDomains := []
  allowedRecipients := []
  rateLimitPerMin := none
  burst := 0
  maskRecipient := none

def SecurityConfig.default (apiKeys : List ApiKeyConfig) : SecurityConfig where
  trustProxyHeaders := false
  trustedSourceCidrs := []
  allowedSourceCidrs := []
  apiKeys := apiKeys

def MailConfig.default (defaultFrom : String) : MailConfig where
  defaultFrom := defaultFrom
  defaultFromName := none
  allowedRecipientDomains := []
  maxSubjectChars := 255
  maxBodyBytes := 65536
  maxRecipients := 10
  maxAttachments := 5
  maxAttachmentBytes := 10 * 1024 * 1024
  maxBulkMessages := 10
  allowHtmlBody := false
  allowAttachments := false
  allowBulkSend := false
  maxTotalAttachmentBytes := none

def SmtpConfig.default : SmtpConfig where
  mode := "smtp"
  tls := "none"
  host := "127.0.0.1"
  port := 25
  connectTimeoutSeconds := 5
  submissionTimeoutSeconds := 30
  authUser := none
  authPassword := none
  pipeCommand := "/usr/sbin/sendmail"
  bulkConcurrency := 5

def RateLimitConfig.default : RateLimitConfig where
  globalPerMin := 60
  perIpPerMin := 20
  perKeyPerMin := 30
  globalBurst := 10
  perIpBurst := 5
  perKeyBurst := 5
  burstSize := 0
  ipTableSize := 10000

def LoggingConfig.default : LoggingConfig where
  format := "text"
  level := "info"
  maskRecipient := false

def StatusConfig.default : StatusConfig where
  enabled := true
  store := "memory"
  ttlSeconds := 3600
  maxRecords := 10000
  cleanupIntervalSeconds := 60
  dbPath := none
  redisUrl := none

/-- The file that sets the required fields only. -/
def AppConfig.default (bindAddress defaultFrom : String) (apiKeys : List ApiKeyConfig) :
    AppConfig where
  server := .default bindAddress
  security := .default apiKeys
  mail := .default defaultFrom
  smtp := .default
  rateLimit := .default
  logging := .default
  status := .default

/-! ## Effective burst sizes -/

namespace RateLimitConfig

/-- Per-tier value if set, else the legacy `burst_size`, else the default. -/
def effectiveBurst (tier burstSize fallback : Nat) : Nat :=
  if tier > 0 then tier else if burstSize > 0 then burstSize else fallback

def effectiveGlobalBurst (c : RateLimitConfig) : Nat := effectiveBurst c.globalBurst c.burstSize 10

def effectivePerIpBurst (c : RateLimitConfig) : Nat := effectiveBurst c.perIpBurst c.burstSize 5

def effectivePerKeyBurst (c : RateLimitConfig) : Nat := effectiveBurst c.perKeyBurst c.burstSize 5

theorem effectiveBurst_pos {tier burstSize fallback : Nat} (h : 0 < fallback) :
    0 < effectiveBurst tier burstSize fallback := by
  unfold effectiveBurst
  split
  · assumption
  · split <;> assumption

end RateLimitConfig

/-! ## `SIGHUP` reload -/

/-- The labels of the changed fields that need a restart. -/
def restartRequiredChanges (old new : AppConfig) : List String :=
  [(decide (old.server.bindAddress ≠ new.server.bindAddress), "server.bind_address"),
   (decide (old.server.requestTimeoutSeconds ≠ new.server.requestTimeoutSeconds),
      "server.request_timeout_seconds"),
   (decide (old.server.maxRequestBodyBytes ≠ new.server.maxRequestBodyBytes),
      "server.max_request_body_bytes"),
   (decide (old.server.concurrencyLimit ≠ new.server.concurrencyLimit),
      "server.concurrency_limit"),
   (decide (old.smtp.host ≠ new.smtp.host), "smtp.host"),
   (decide (old.smtp.port ≠ new.smtp.port), "smtp.port"),
   (decide (old.smtp.mode ≠ new.smtp.mode), "smtp.mode"),
   (decide (old.rateLimit.globalPerMin ≠ new.rateLimit.globalPerMin),
      "rate_limit.global_per_min"),
   (decide (old.rateLimit.perIpPerMin ≠ new.rateLimit.perIpPerMin), "rate_limit.per_ip_per_min"),
   (decide (old.rateLimit.perKeyPerMin ≠ new.rateLimit.perKeyPerMin),
      "rate_limit.per_key_per_min"),
   (decide (old.security.trustProxyHeaders ≠ new.security.trustProxyHeaders),
      "security.trust_proxy_headers"),
   (decide (old.security.trustedSourceCidrs ≠ new.security.trustedSourceCidrs),
      "security.trusted_source_cidrs"),
   (decide (old.security.allowedSourceCidrs ≠ new.security.allowedSourceCidrs),
      "security.allowed_source_cidrs"),
   (decide (old.status.enabled ≠ new.status.enabled), "status.enabled"),
   (decide (old.status.store ≠ new.status.store), "status.store"),
   (decide (old.status.dbPath ≠ new.status.dbPath), "status.db_path"),
   (decide (old.status.redisUrl ≠ new.status.redisUrl), "status.redis_url")].filterMap
    fun check => if check.1 then some check.2 else none

/-- Restart-required sections of `current`, reloadable ones of `new`. -/
def mergeReloadable (current new : AppConfig) : AppConfig where
  server := current.server
  smtp := current.smtp
  rateLimit := current.rateLimit
  security := new.security
  mail := new.mail
  logging := new.logging
  status :=
    { enabled := current.status.enabled
      store := current.status.store
      dbPath := current.status.dbPath
      redisUrl := current.status.redisUrl
      ttlSeconds := new.status.ttlSeconds
      maxRecords := new.status.maxRecords
      cleanupIntervalSeconds := new.status.cleanupIntervalSeconds }

end HttpSmtpRele
