import FundingTool.TransitionSystem
import FundingTool.Interaction
import FundingTool.CursorPaging
import FundingTool.OrderedDict
import FundingTool.Models
import FundingTool.RateCache
import FundingTool.BinanceUsdm
import FundingTool.FetchSpecs
import FundingTool.RateCacheSoundness
import FundingTool.FetchRuns
import FundingTool.RateCacheTransparency
import FundingTool.RateCacheExtension
import FundingTool.FundingIncome
import FundingTool.FundingIncomeCompleteness
import FundingTool.SecretStore
import FundingTool.SecretStoreRotation
import FundingTool.AccountRoutes
import FundingTool.AuthVerifier
import FundingTool.AuthLockout
import FundingTool.TaskManager
import FundingTool.TaskRestart
import FundingTool.CsrfGuard
import FundingTool.CsrfAgreement
import FundingTool.AccountStore
import FundingTool.CrashSafety
import FundingTool.AccountDurability
import FundingTool.AccountRegistry
import FundingTool.AuthCapacity
import FundingTool.SecretStoreRefinement
import FundingTool.StoreAgreement
import FundingTool.AccountSecrecy
import FundingTool.AccountProcesses
import FundingTool.CachePutAtomicity
import FundingTool.HistoryPage
import FundingTool.HistoryPageLocks
import FundingTool.RateCacheRefill
import FundingTool.FetchFills
import FundingTool.FetchIdempotence
import FundingTool.FetchRetry
import FundingTool.Lockstep
import FundingTool.Domain
import FundingTool.Rounding
import FundingTool.FirstSeen
import FundingTool.DecimalArithmetic
import FundingTool.Backtest
import FundingTool.BacktestReadings
import FundingTool.BacktestExact
import FundingTool.BacktestMirror
import FundingTool.BacktestTotals
import FundingTool.DecimalDomain
import FundingTool.BacktestDomain
import FundingTool.DecimalRange
import FundingTool.BacktestErrors
import FundingTool.BacktestOperands
import FundingTool.RateCacheGaps
import FundingTool.FundingIncomeDelivery
import FundingTool.HttpClient
import FundingTool.HttpOutcomes
import FundingTool.Layers
import FundingTool.SignedCalls
import FundingTool.PermissionCheck
import FundingTool.ReceiveWindow
import FundingTool.AuthCounting
import FundingTool.CsrfSoundness
import FundingTool.Regex
import FundingTool.Substitution
import FundingTool.LogScrubber
import FundingTool.SignatureSecrecy
import FundingTool.ApiClient
import FundingTool.ApiResolution
import FundingTool.Calendar
import FundingTool.Tally
import FundingTool.AccountHistory
import FundingTool.HistoryTotals
import FundingTool.RangeRoutes
import FundingTool.RangeRejection
import FundingTool.CredentialResolution
import FundingTool.TaskSnapshots
import FundingTool.TaskExpiry
import FundingTool.TaskPoll
import FundingTool.PollIsolation
import FundingTool.Rfc4180
import FundingTool.CsvExport
import FundingTool.PagingRequests
import FundingTool.PageLoops
import FundingTool.DecimalText
import FundingTool.LastWriter
import FundingTool.RateCacheFile
import FundingTool.RateCacheRefinement
import FundingTool.TimeUtil
import FundingTool.JsonText
import FundingTool.JsonRoundTrip
import FundingTool.TaskFiles
import FundingTool.AuditLog
import FundingTool.IsoFormat
import FundingTool.CliOutput
import FundingTool.MergeTimes
import FundingTool.PollProgress
import FundingTool.StatusRoute
import FundingTool.WatchedTask
import FundingTool.Timeline
import FundingTool.AccountsPage
import FundingTool.AccountsPageFreshness
import FundingTool.AccountsPageLocks
import FundingTool.Handlers
import FundingTool.AccountCommands
import FundingTool.FixedPoint
import FundingTool.HistoryPayload
import FundingTool.HistoryDelivery
import FundingTool.SymbolPicker
import FundingTool.SymbolOptions
