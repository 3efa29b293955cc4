import Mathlib.Data.List.Nodup
import HttpSmtpRele.Config

/-!
# Every setting of the config file

A `Setting` is one field of `AppConfig` with the label it has in the TOML file.
The settings are all there is to a config (`Setting.config_ext`) and no two have
the same label, so a log line that names labels is about settings.
-/

namespace HttpSmtpRele

inductive SettingValue
  | text (s : String)
  | number (n : Nat)
  | flag (b : Bool)
  | texts (l : List String)
  | optText (s : Option String)
  | optNumber (n : Option Nat)
  | optSecret (s : Option SecretString)
  | keys (l : List ApiKeyConfig)
  deriving DecidableEq

inductive ServerField
  | bindAddress | maxRequestBodyBytes | requestTimeoutSeconds | shutdownTimeoutSeconds
  | concurrencyLimit | tlsCert | tlsKey | monitoringCidrs
  deriving DecidableEq

inductive SecurityField
  | trustProxyHeaders | trustedSourceCidrs | allowedSourceCidrs | apiKeys
  deriving DecidableEq

inductive MailField
  | defaultFrom | defaultFromName | allowedRecipientDomains | maxSubjectChars | maxBodyBytes
  | maxRecipients | maxAttachments | maxAttachmentBytes | maxBulkMessages | allowHtmlBody
  | allowAttachments | allowBulkSend | maxTotalAttachmentBytes
  deriving DecidableEq

inductive SmtpField
  | mode | tls | host | port | connectTimeoutSeconds | submissionTimeoutSeconds | authUser
  | authPassword | pipeCommand | bulkConcurrency
  deriving DecidableEq

inductive RateLimitField
  | globalPerMin | perIpPerMin | perKeyPerMin | globalBurst | perIpBurst | perKeyBurst
  | burstSize | ipTableSize
  deriving DecidableEq

inductive LoggingField
  | format | level | maskRecipient
  deriving DecidableEq

inductive StatusField
  | enabled | store | ttlSeconds | maxRecords | cleanupIntervalSeconds | dbPath | redisUrl
  deriving DecidableEq

inductive Setting
  | server (f : ServerField)
  | security (f : SecurityField)
  | mail (f : MailField)
  | smtp (f : SmtpField)
  | rateLimit (f : RateLimitField)
  | logging (f : LoggingField)
  | status (f : StatusField)
  deriving DecidableEq

namespace ServerField

def all : List ServerField :=
  [.bindAddress, .maxRequestBodyBytes, .requestTimeoutSeconds, .shutdownTimeoutSeconds,
   .concurrencyLimit, .tlsCert, .tlsKey, .monitoringCidrs]

theorem mem_all (f : ServerField) : f ∈ all := by cases f <;> decide

def label : ServerField → String
  | bindAddress => "bind_address"
  | maxRequestBodyBytes => "max_request_body_bytes"
  | requestTimeoutSeconds => "request_timeout_seconds"
  | shutdownTimeoutSeconds => "shutdown_timeout_seconds"
  | concurrencyLimit => "concurrency_limit"
  | tlsCert => "tls_cert"
  | tlsKey => "tls_key"
  | monitoringCidrs => "monitoring_cidrs"

def get (c : ServerConfig) : ServerField → SettingValue
  | bindAddress => .text c.bindAddress
  | maxRequestBodyBytes => .number c.maxRequestBodyBytes
  | requestTimeoutSeconds => .number c.requestTimeoutSeconds
  | shutdownTimeoutSeconds => .number c.shutdownTimeoutSeconds
  | concurrencyLimit => .number c.concurrencyLimit
  | tlsCert => .optText c.tlsCert
  | tlsKey => .optText c.tlsKey
  | monitoringCidrs => .texts c.monitoringCidrs

theorem ext {a b : ServerConfig} (h : ∀ f, get a f = get b f) : a = b := by
  cases a
  cases b
  simp only [ServerConfig.mk.injEq]
  exact ⟨SettingValue.text.inj (h .bindAddress), SettingValue.number.inj (h .maxRequestBodyBytes),
    SettingValue.number.inj (h .requestTimeoutSeconds),
    SettingValue.number.inj (h .shutdownTimeoutSeconds),
    SettingValue.number.inj (h .concurrencyLimit), SettingValue.optText.inj (h .tlsCert),
    SettingValue.optText.inj (h .tlsKey), SettingValue.texts.inj (h .monitoringCidrs)⟩

end ServerField

namespace SecurityField

def all : List SecurityField :=
  [.trustProxyHeaders, .trustedSourceCidrs, .allowedSourceCidrs, .apiKeys]

theorem mem_all (f : SecurityField) : f ∈ all := by cases f <;> decide

def label : SecurityField → String
  | trustProxyHeaders => "trust_proxy_headers"
  | trustedSourceCidrs => "trusted_source_cidrs"
  | allowedSourceCidrs => "allowed_source_cidrs"
  | apiKeys => "api_keys"

def get (c : SecurityConfig) : SecurityField → SettingValue
  | trustProxyHeaders => .flag c.trustProxyHeaders
  | trustedSourceCidrs => .texts c.trustedSourceCidrs
  | allowedSourceCidrs => .texts c.allowedSourceCidrs
  | apiKeys => .keys c.apiKeys

theorem ext {a b : SecurityConfig} (h : ∀ f, get a f = get b f) : a = b := by
  cases a
  cases b
  simp only [SecurityConfig.mk.injEq]
  exact ⟨SettingValue.flag.inj (h .trustProxyHeaders),
    SettingValue.texts.inj (h .trustedSourceCidrs),
    SettingValue.texts.inj (h .allowedSourceCidrs), SettingValue.keys.inj (h .apiKeys)⟩

end SecurityField

namespace MailField

def all : List MailField :=
  [.defaultFrom, .defaultFromName, .allowedRecipientDomains, .maxSubjectChars, .maxBodyBytes,
   .maxRecipients, .maxAttachments, .maxAttachmentBytes, .maxBulkMessages, .allowHtmlBody,
   .allowAttachments, .allowBulkSend, .maxTotalAttachmentBytes]

theorem mem_all (f : MailField) : f ∈ all := by cases f <;> decide

def label : MailField → String
  | defaultFrom => "default_from"
  | defaultFromName => "default_from_name"
  | allowedRecipientDomains => "allowed_recipient_domains"
  | maxSubjectChars => "max_subject_chars"
  | maxBodyBytes => "max_body_bytes"
  | maxRecipients => "max_recipients"
  | maxAttachments => "max_attachments"
  | maxAttachmentBytes => "max_attachment_bytes"
  | maxBulkMessages => "max_bulk_messages"
  | allowHtmlBody => "allow_html_body"
  | allowAttachments => "allow_attachments"
  | allowBulkSend => "allow_bulk_send"
  | maxTotalAttachmentBytes => "max_total_attachment_bytes"

def get (c : MailConfig) : MailField → SettingValue
  | defaultFrom => .text c.defaultFrom
  | defaultFromName => .optText c.defaultFromName
  | allowedRecipientDomains => .texts c.allowedRecipientDomains
  | maxSubjectChars => .number c.maxSubjectChars
  | maxBodyBytes => .number c.maxBodyBytes
  | maxRecipients => .number c.maxRecipients
  | maxAttachments => .number c.maxAttachments
  | maxAttachmentBytes => .number c.maxAttachmentBytes
  | maxBulkMessages => .number c.maxBulkMessages
  | allowHtmlBody => .flag c.allowHtmlBody
  | allowAttachments => .flag c.allowAttachments
  | allowBulkSend => .flag c.allowBulkSend
  | maxTotalAttachmentBytes => .optNumber c.maxTotalAttachmentBytes

theorem ext {a b : MailConfig} (h : ∀ f, get a f = get b f) : a = b := by
  cases a
  cases b
  simp only [MailConfig.mk.injEq]
  exact ⟨SettingValue.text.inj (h .defaultFrom), SettingValue.optText.inj (h .defaultFromName),
    SettingValue.texts.inj (h .allowedRecipientDomains),
    SettingValue.number.inj (h .maxSubjectChars), SettingValue.number.inj (h .maxBodyBytes),
    SettingValue.number.inj (h .maxRecipients), SettingValue.number.inj (h .maxAttachments),
    SettingValue.number.inj (h .maxAttachmentBytes), SettingValue.number.inj (h .maxBulkMessages),
    SettingValue.flag.inj (h .allowHtmlBody), SettingValue.flag.inj (h .allowAttachments),
    SettingValue.flag.inj (h .allowBulkSend),
    SettingValue.optNumber.inj (h .maxTotalAttachmentBytes)⟩

end MailField

namespace SmtpField

def all : List SmtpField :=
  [.mode, .tls, .host, .port, .connectTimeoutSeconds, .submissionTimeoutSeconds, .authUser,
   .authPassword, .pipeCommand, .bulkConcurrency]

theorem mem_all (f : SmtpField) : f ∈ all := by cases f <;> decide

def label : SmtpField → String
  | mode => "mode"
  | tls => "tls"
  | host => "host"
  | port => "port"
  | connectTimeoutSeconds => "connect_timeout_seconds"
  | submissionTimeoutSeconds => "submission_timeout_seconds"
  | authUser => "auth_user"
  | authPassword => "auth_password"
  | pipeCommand => "pipe_command"
  | bulkConcurrency => "bulk_concurrency"

def get (c : SmtpConfig) : SmtpField → SettingValue
  | mode => .text c.mode
  | tls => .text c.tls
  | host => .text c.host
  | port => .number c.port
  | connectTimeoutSeconds => .number c.connectTimeoutSeconds
  | submissionTimeoutSeconds => .number c.submissionTimeoutSeconds
  | authUser => .optText c.authUser
  | authPassword => .optSecret c.authPassword
  | pipeCommand => .text c.pipeCommand
  | bulkConcurrency => .number c.bulkConcurrency

theorem ext {a b : SmtpConfig} (h : ∀ f, get a f = get b f) : a = b := by
  cases a
  cases b
  simp only [SmtpConfig.mk.injEq]
  exact ⟨SettingValue.text.inj (h .mode), SettingValue.text.inj (h .tls),
    SettingValue.text.inj (h .host), SettingValue.number.inj (h .port),
    SettingValue.number.inj (h .connectTimeoutSeconds),
    SettingValue.number.inj (h .submissionTimeoutSeconds), SettingValue.optText.inj (h .authUser),
    SettingValue.optSecret.inj (h .authPassword), SettingValue.text.inj (h .pipeCommand),
    SettingValue.number.inj (h .bulkConcurrency)⟩

end SmtpField

namespace RateLimitField

def all : List RateLimitField :=
  [.globalPerMin, .perIpPerMin, .perKeyPerMin, .globalBurst, .perIpBurst, .perKeyBurst,
   .burstSize, .ipTableSize]

theorem mem_all (f : RateLimitField) : f ∈ all := by cases f <;> decide

def label : RateLimitField → String
  | globalPerMin => "global_per_min"
  | perIpPerMin => "per_ip_per_min"
  | perKeyPerMin => "per_key_per_min"
  | globalBurst => "global_burst"
  | perIpBurst => "per_ip_burst"
  | perKeyBurst => "per_key_burst"
  | burstSize => "burst_size"
  | ipTableSize => "ip_table_size"

def get (c : RateLimitConfig) : RateLimitField → SettingValue
  | globalPerMin => .number c.globalPerMin
  | perIpPerMin => .number c.perIpPerMin
  | perKeyPerMin => .number c.perKeyPerMin
  | globalBurst => .number c.globalBurst
  | perIpBurst => .number c.perIpBurst
  | perKeyBurst => .number c.perKeyBurst
  | burstSize => .number c.burstSize
  | ipTableSize => .number c.ipTableSize

theorem ext {a b : RateLimitConfig} (h : ∀ f, get a f = get b f) : a = b := by
  cases a
  cases b
  simp only [RateLimitConfig.mk.injEq]
  exact ⟨SettingValue.number.inj (h .globalPerMin), SettingValue.number.inj (h .perIpPerMin),
    SettingValue.number.inj (h .perKeyPerMin), SettingValue.number.inj (h .globalBurst),
    SettingValue.number.inj (h .perIpBurst), SettingValue.number.inj (h .perKeyBurst),
    SettingValue.number.inj (h .burstSize), SettingValue.number.inj (h .ipTableSize)⟩

end RateLimitField

namespace LoggingField

def all : List LoggingField :=
  [.format, .level, .maskRecipient]

theorem mem_all (f : LoggingField) : f ∈ all := by cases f <;> decide

def label : LoggingField → String
  | format => "format"
  | level => "level"
  | maskRecipient => "mask_recipient"

def get (c : LoggingConfig) : LoggingField → SettingValue
  | format => .text c.format
  | level => .text c.level
  | maskRecipient => .flag c.maskRecipient

theorem ext {a b : LoggingConfig} (h : ∀ f, get a f = get b f) : a = b := by
  cases a
  cases b
  simp only [LoggingConfig.mk.injEq]
  exact ⟨SettingValue.text.inj (h .format), SettingValue.text.inj (h .level),
    SettingValue.flag.inj (h .maskRecipient)⟩

end LoggingField

namespace StatusField

def all : List StatusField :=
  [.enabled, .store, .ttlSeconds, .maxRecords, .cleanupIntervalSeconds, .dbPath, .redisUrl]

theorem mem_all (f : StatusField) : f ∈ all := by cases f <;> decide

def label : StatusField → String
  | enabled => "enabled"
  | store => "store"
  | ttlSeconds => "ttl_seconds"
  | maxRecords => "max_records"
  | cleanupIntervalSeconds => "cleanup_interval_seconds"
  | dbPath => "db_path"
  | redisUrl => "redis_url"

def get (c : StatusConfig) : StatusField → SettingValue
  | enabled => .flag c.enabled
  | store => .text c.store
  | ttlSeconds => .number c.ttlSeconds
  | maxRecords => .number c.maxRecords
  | cleanupIntervalSeconds => .number c.cleanupIntervalSeconds
  | dbPath => .optText c.dbPath
  | redisUrl => .optText c.redisUrl

theorem ext {a b : StatusConfig} (h : ∀ f, get a f = get b f) : a = b := by
  cases a
  cases b
  simp only [StatusConfig.mk.injEq]
  exact ⟨SettingValue.flag.inj (h .enabled), SettingValue.text.inj (h .store),
    SettingValue.number.inj (h .ttlSeconds), SettingValue.number.inj (h .maxRecords),
    SettingValue.number.inj (h .cleanupIntervalSeconds), SettingValue.optText.inj (h .dbPath),
    SettingValue.optText.inj (h .redisUrl)⟩

end StatusField

namespace Setting

/-- The label in the file, and in the log. -/
def label : Setting → String
  | server f => "server." ++ f.label
  | security f => "security." ++ f.label
  | mail f => "mail." ++ f.label
  | smtp f => "smtp." ++ f.label
  | rateLimit f => "rate_limit." ++ f.label
  | logging f => "logging." ++ f.label
  | status f => "status." ++ f.label

def get (config : AppConfig) : Setting → SettingValue
  | server f => f.get config.server
  | security f => f.get config.security
  | mail f => f.get config.mail
  | smtp f => f.get config.smtp
  | rateLimit f => f.get config.rateLimit
  | logging f => f.get config.logging
  | status f => f.get config.status

def all : List Setting :=
  ServerField.all.map server ++ SecurityField.all.map security ++ MailField.all.map mail ++
    SmtpField.all.map smtp ++ RateLimitField.all.map rateLimit ++ LoggingField.all.map logging ++
    StatusField.all.map status

theorem mem_all (s : Setting) : s ∈ all := by
  cases s <;> simp [all, ServerField.mem_all, SecurityField.mem_all, MailField.mem_all,
    SmtpField.mem_all, RateLimitField.mem_all, LoggingField.mem_all, StatusField.mem_all]

theorem label_injective {s t : Setting} (h : s.label = t.label) : s = t := by
  have hnodup : (all.map label).Nodup := by decide +kernel
  exact List.inj_on_of_nodup_map hnodup (mem_all s) (mem_all t) h

/-- A config is the values of its settings. -/
theorem config_ext {a b : AppConfig} (h : ∀ s, get a s = get b s) : a = b := by
  cases a
  cases b
  simp only [AppConfig.mk.injEq]
  exact ⟨ServerField.ext fun f => h (.server f), SecurityField.ext fun f => h (.security f),
    MailField.ext fun f => h (.mail f), SmtpField.ext fun f => h (.smtp f),
    RateLimitField.ext fun f => h (.rateLimit f), LoggingField.ext fun f => h (.logging f),
    StatusField.ext fun f => h (.status f)⟩

end Setting

end HttpSmtpRele
