import Marty.Gateway.Organization
import Marty.Security.Sessions
import Marty.Security.Revocation
import Marty.Security.Automation
import Marty.Security.Baseline
import Marty.Resilience.Slots
import Marty.Resilience.States
import Marty.Resilience.Admission
import Marty.Resilience.FallbackCache
import Marty.Resilience.Bookkeeping
import Marty.Resilience.Accounting
import Marty.Cedar.Acceptance
import Marty.Infrastructure.Ledger
import Marty.Infrastructure.Dispatchers
import Marty.Infrastructure.Certificates
import Marty.Infrastructure.CredentialLedger
import Marty.Idempotency.Exclusive
import Marty.Idempotency.Once
import Marty.Idempotency.Isolation
import Marty.Organization.Machine
import Marty.Organization.Cache
import Marty.Grpc.Boundary
import Marty.RateLimit.Backends
import Marty.RateLimit.Shared
import Marty.Security.RealTime
import Marty.Security.MonitorLock
import Marty.Security.Incidents
import Marty.Policies.VisaFree
import Marty.Policies.BackgroundCheck
import Marty.Policies.Records
import Marty.Gateway.RouteOrder
import Marty.Gateway.Exemptions
import Marty.Gateway.ClientOrganization
import Marty.Migrations.HolderBinding
import Marty.Idempotency.Ownership
import Marty.Idempotency.Delivery
import Marty.Idempotency.Headers
import Marty.Resilience.Recovery
import Marty.Resilience.RetryBudget
import Marty.Resilience.Outbound
import Marty.RateLimit.RetryAfter
import Marty.Security.RotationFailure
import Marty.Security.AuditLog
import Marty.Security.ImmediateAlerts
import Marty.Infrastructure.OidcSessions
import Marty.Cedar.PolicyEngine
import Marty.Policies.Compliance
import Marty.Policies.StatusUpdate
import Marty.Policies.RecordHash
import Marty.Models.Cms
import Marty.Models.Biometrics
import Marty.Models.X509Name
import Marty.Models.SignedObject
import Marty.Models.IcaoPassport
import Marty.Models.HolderDates
import Marty.Crypto.RoleSeparation
import Marty.Crypto.Pairwise
import Marty.Models.Email
import Marty.Security.DataGroups
import Marty.Config.Manager
import Marty.Resilience.Histograms
import Marty.Models.CrewCertificate
import Marty.Scripts.SecurityScan
import Marty.Idempotency.Codecs
import Marty.Resilience.Backoff
import Marty.Security.HourGroups
import Marty.Errors.Handlers
import Marty.Resilience.ErrorMetrics
import Marty.Monitoring.ResourceAlerts
import Marty.Monitoring.TimeWindows
import Marty.Logging.Context
import Marty.Infrastructure.Worker
import Marty.Migrations.Reversible
import Marty.Monitoring.AlertCooldown
import Marty.Monitoring.Interceptor
import Marty.Infrastructure.EventBus
import Marty.Infrastructure.Transactions
import Marty.Models.Certificates
import Marty.Models.VdsNcBarcode
import Marty.Migrations.SystemSeeds
import Marty.Scripts.SeedCatalog
import Marty.Lib.CedarStore
import Marty.Cedar.Engine
import Marty.Cedar.BackendPolicies
import Marty.Grpc.Require
import Marty.Cedar.CallerEntities
import Marty.Lib.CedarHas
import Marty.Cedar.ApprovalRules
import Marty.Lib.Chain
import Marty.Errors.ErrorHandling
import Marty.Crypto.KeySharing
import Marty.Security.DatabaseKeyStore
import Marty.Security.RotationThreads
import Marty.Security.WholeOperations
