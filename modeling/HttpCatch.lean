import HttpCatch.Library.GoString
import HttpCatch.Library.Decimal
import HttpCatch.Library.Json
import HttpCatch.Library.JsonSearch
import HttpCatch.Library.SqlLike
import HttpCatch.Library.SqlLegible
import HttpCatch.Library.SqlValue
import HttpCatch.Library.SqlSyntax
import HttpCatch.Library.SqlQuery
import HttpCatch.Library.Keyset
import HttpCatch.Library.Text
import HttpCatch.Library.LowerCase
import HttpCatch.Library.AsciiSearch
import HttpCatch.Library.HostPort
import HttpCatch.Library.Base64
import HttpCatch.Library.TokenBucket
import HttpCatch.Library.Retention
import HttpCatch.Library.Accumulate
import HttpCatch.Library.JSString
import HttpCatch.Library.Shell
import HttpCatch.Library.UrlEncoded
import HttpCatch.Library.UrlReference
import HttpCatch.Library.IsoDate
import HttpCatch.Library.LastWins
import HttpCatch.Capture.Record
import HttpCatch.SearchQL.Query
import HttpCatch.SearchQL.Tokens
import HttpCatch.SearchQL.CompileSQL
import HttpCatch.SearchQL.Conditions
import HttpCatch.SearchQL.Predicate
import HttpCatch.SearchQL.IndexScans
import HttpCatch.Capture.Correlation
import HttpCatch.Capture.BodyCap
import HttpCatch.Capture.Service
import HttpCatch.Inspect.Reader
import HttpCatch.Inspect.Cursor
import HttpCatch.Sinks.SQLite
import HttpCatch.Sinks.Sweeper
import HttpCatch.Sinks.SQLiteDetail
import HttpCatch.Sinks.SQLiteReader
import HttpCatch.Sinks.SQLiteMatch
import HttpCatch.Sinks.SQLiteRoots
import HttpCatch.Sinks.Agreement
import HttpCatch.Sinks.Memory
import HttpCatch.Sinks.MemoryHistory
import HttpCatch.Sinks.MemoryReader
import HttpCatch.Sinks.Snapshot
import HttpCatch.Sinks.Orphans
import HttpCatch.Sinks.HeaderSearch
import HttpCatch.Sinks.Readers
import HttpCatch.Sinks.Histogram
import HttpCatch.Sinks.Services
import HttpCatch.Admin.Inspect
import HttpCatch.Admin.Chips
import HttpCatch.Admin.Quoting
import HttpCatch.Admin.Browser
import HttpCatch.Admin.SavedViews
import HttpCatch.Admin.Narrowing
import HttpCatch.Admin.AuthLimit
import HttpCatch.Admin.RetryAfter
import HttpCatch.Admin.BodyFormat
import HttpCatch.Admin.Curl
import HttpCatch.Redact.Ruleset
import HttpCatch.Redact.Uniform
import HttpCatch.Redact.CookieLoop
import HttpCatch.Redact.CookieLines
import HttpCatch.Redact.CookieKeys
import HttpCatch.Redact.ReadCookies
import HttpCatch.Redact.Cookies
import HttpCatch.Capture.Server
import HttpCatch.Redact.Secrecy
import HttpCatch.Cli.Diff
import HttpCatch.Cli.Complete
import HttpCatch.Cli.Masking
import HttpCatch.Admin.Session
import HttpCatch.Admin.Login
import HttpCatch.Admin.Events
import HttpCatch.Admin.Detail
import HttpCatch.Admin.LiveTail
import HttpCatch.Admin.TimeWindow
import HttpCatch.Pipeline.System
import HttpCatch.Pipeline.Sound
import HttpCatch.Pipeline.Secrecy
import HttpCatch.App.Shutdown
import HttpCatch.Config.Load
import HttpCatch.App.Serve
import HttpCatch.Library.KeysetRuns
import HttpCatch.Sinks.PagingRuns
import HttpCatch.Admin.RequestQuery
import HttpCatch.Admin.Export
import HttpCatch.App.Drain
import HttpCatch.Admin.Origin
import HttpCatch.Admin.Server
import HttpCatch.Library.Rfc3339
import HttpCatch.Library.JsonValue
import HttpCatch.Sinks.RecordJson
import HttpCatch.Sinks.Stdout
import HttpCatch.Admin.Correlated
