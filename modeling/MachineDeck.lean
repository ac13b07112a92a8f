import MachineDeck.DeployService
import MachineDeck.LifecycleService
import MachineDeck.LifecycleRules
import MachineDeck.LifecycleAction
import MachineDeck.LifecycleRecords
import MachineDeck.RegistryOperations
import MachineDeck.GuardedRuns
import MachineDeck.LifecycleRuns
import MachineDeck.EnabledStatus
import MachineDeck.LifecycleInterleaving
import MachineDeck.LineText
import MachineDeck.PrefixCode
import MachineDeck.UnitRender
import MachineDeck.UnitDecode
import MachineDeck.UnitAccept
import MachineDeck.UnitInstall
import MachineDeck.UnitTransaction
import MachineDeck.UnitMemory
import MachineDeck.AuditEvents
import MachineDeck.KeysetPages
import MachineDeck.AuditPages
import MachineDeck.IpAddress
import MachineDeck.NetworkContext
import MachineDeck.NetworkTrust
import MachineDeck.NetworkLines
import MachineDeck.UrlSplit
import MachineDeck.AuthService
import MachineDeck.SessionLedger
import MachineDeck.SetupRace
import MachineDeck.LogModels
import MachineDeck.LogWebSocket
import MachineDeck.LogAccounting
import MachineDeck.DeployCurrent
import MachineDeck.Utf8Text
import MachineDeck.PythonNumber
import MachineDeck.LogReader
import MachineDeck.JournalLog
import MachineDeck.ComposeFollow
import MachineDeck.TomlText
import MachineDeck.AccessConfiguration
import MachineDeck.ServerConfig
import MachineDeck.ConfigDocument
import MachineDeck.ConfigRoundTrip
import MachineDeck.ConfigAgreement
import MachineDeck.DoctorCookie
import MachineDeck.PortConflicts
import MachineDeck.PortOwners
import MachineDeck.MarkedText
import MachineDeck.RegexText
import MachineDeck.UrlQuery
import MachineDeck.AuditRedaction
import MachineDeck.AuditExposure
import MachineDeck.LogRedaction
import MachineDeck.LogDelivery
import MachineDeck.BoundedQueue
import MachineDeck.MetricsService
import MachineDeck.ApplicationSummary
import MachineDeck.DeployRetry
import MachineDeck.AuditCategories
import MachineDeck.LoginThrottle
import MachineDeck.PortViews
import MachineDeck.InstanceStages
import MachineDeck.RunTimes
import MachineDeck.UnitReconcile
import MachineDeck.UnitSelfCheck
import MachineDeck.ComposeStatus
import MachineDeck.JsonExtent
import MachineDeck.ComposeWarnings
import MachineDeck.AuditActions
import MachineDeck.AuditInstants
import MachineDeck.AuditKeyword
import MachineDeck.ComposeMessages
import MachineDeck.JournalMessages
import MachineDeck.LogHarmless
import MachineDeck.AuditSizes
import MachineDeck.EndpointLinks
import MachineDeck.LogSizes
import MachineDeck.ManifestInput
import MachineDeck.ForwardedPrefix
import MachineDeck.AuditResponses
import MachineDeck.RegexWords
import MachineDeck.UfwRules
import MachineDeck.UfwVerdict
import MachineDeck.ScriptText
import MachineDeck.ApplicationForm
import MachineDeck.FormParts
import MachineDeck.FormRoundTrip
import MachineDeck.FallbackAgreement
import MachineDeck.Deletions
import MachineDeck.FileTree
import MachineDeck.Uninstall
import MachineDeck.UninstallExact
import MachineDeck.HistoryLedger
import MachineDeck.StreamRevocation
import MachineDeck.ComposeDiscovery
import MachineDeck.DashboardSocket
import MachineDeck.GpuCollector
import MachineDeck.RequestAttribution
