import HttpSmtpRele.Lib.Prog
import HttpSmtpRele.Lib.Results
import HttpSmtpRele.Lib.Table
import HttpSmtpRele.Validation
import HttpSmtpRele.Mail
import HttpSmtpRele.StatusMemory
import HttpSmtpRele.StoreSafety
import HttpSmtpRele.KeyIsolation
import HttpSmtpRele.ConfigValidate
import HttpSmtpRele.Auth
import HttpSmtpRele.Api.Keys
import HttpSmtpRele.OpenRelay
import HttpSmtpRele.KeyIdentity
import HttpSmtpRele.ReloadPolicy
import HttpSmtpRele.Api.SendBulk
import HttpSmtpRele.Lifecycle
import HttpSmtpRele.HandlerLife
import HttpSmtpRele.RefusalCode
import HttpSmtpRele.BulkAgreement
import HttpSmtpRele.MetadataOnly
import HttpSmtpRele.SubmissionLifecycle
import HttpSmtpRele.Accounting
import HttpSmtpRele.BackendAgreement
import HttpSmtpRele.BucketEnvelope
import HttpSmtpRele.KeyLockout
import HttpSmtpRele.KeyLimits
import HttpSmtpRele.KeyIndependence
import HttpSmtpRele.SafeRequest
import HttpSmtpRele.AuthGate
import HttpSmtpRele.ReloadBoundary
import HttpSmtpRele.ReloadHistory
import HttpSmtpRele.StoreCapacity
import HttpSmtpRele.StoreMetrics
import HttpSmtpRele.EvictionOrder
import HttpSmtpRele.RedisGuards
import HttpSmtpRele.BulkGate
import HttpSmtpRele.BulkTasks
import HttpSmtpRele.SqliteCleanup
import HttpSmtpRele.ExpiryDate
import HttpSmtpRele.RedisLifetime
import HttpSmtpRele.Lib.FifoQueue
import HttpSmtpRele.IpTable
import HttpSmtpRele.RetryAfter
import HttpSmtpRele.Lib.Triple
import HttpSmtpRele.BulkCutoff
import HttpSmtpRele.Buildable
import HttpSmtpRele.Lib.Base64
import HttpSmtpRele.AttachmentSizes
import HttpSmtpRele.DomainPolicies
import HttpSmtpRele.SmtpErrors
import HttpSmtpRele.TokenPriority
import HttpSmtpRele.Rfc3339
import HttpSmtpRele.ForwardedFor
import HttpSmtpRele.Lib.Session
import HttpSmtpRele.ServerSession
import HttpSmtpRele.Attempt
import HttpSmtpRele.Delivery
import HttpSmtpRele.Provenance
import HttpSmtpRele.Outflow
import HttpSmtpRele.RedisAgreement
import HttpSmtpRele.Progress
import HttpSmtpRele.TrackingIndependence
import HttpSmtpRele.LookupTruth
import HttpSmtpRele.MessageOrigin
