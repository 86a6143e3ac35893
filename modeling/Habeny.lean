import Habeny.Lib.Text
import Habeny.Lib.Percent
import Habeny.Lib.Route
import Habeny.Lib.Transition
import Habeny.Lib.Utf8
import Habeny.Lib.Watched
import Habeny.Auth.Role
import Habeny.Http.Routes
import Habeny.Installers.Cache
import Habeny.Hosts.Relay
import Habeny.Hosts.LocalOnly
import Habeny.Hosts.RelayRole
import Habeny.Hosts.Tls
import Habeny.Hosts.TokenOrder
import Habeny.Hosts.Answers
import Habeny.Hosts.Reachability
import Habeny.Tenancy.Teams
import Habeny.Auth.TokenCap
import Habeny.Licensing.Status
import Habeny.Agents.Metadata
import Habeny.Deploy.Progress
import Habeny.Deploy.Workers
import Habeny.Deploy.Accounting
import Habeny.Deploy.Completion
import Habeny.Deploy.Request
import Habeny.Deploy.Overlap
import Habeny.Deploy.Worker
import Habeny.Deploy.Starting
import Habeny.Lib.FillIn
import Habeny.Deploy.Profile
import Habeny.Deploy.MemoryLimit
import Habeny.Tenancy.Platform
import Habeny.Tenancy.Commitment
import Habeny.Tenancy.Quota
import Habeny.Licensing.Cap
import Habeny.Tenancy.Takeover
import Habeny.Requests.Basic
import Habeny.Requests.Containers
import Habeny.Requests.Work
import Habeny.Requests.Serve
import Habeny.Reports.Containers
import Habeny.Reports.Confidential
import Habeny.Reports.Report
import Habeny.Requests.Isolation
import Habeny.Deploy.Names
import Habeny.Licensing.Gate
import Habeny.Auth.FactorAnswers
import Habeny.Auth.Challenges
import Habeny.Benchmarks.Compare
import Habeny.Console.Output
import Habeny.Lib.ArgMax
import Habeny.Lib.Base64
import Habeny.Lib.JsonScan
import Habeny.Lib.JsonOrder
import Habeny.Lib.JsonAccess
import Habeny.Lib.JsonLimits
import Habeny.Lib.PyRepr
import Habeny.Lib.Csv
import Habeny.Lib.JsonRewrite
import Habeny.Lib.JsonLoaded
import Habeny.Auth.SecondFactor
import Habeny.Auth.Users
import Habeny.Auth.Accounts
import Habeny.Licensing.Trial
import Habeny.Lib.Window
import Habeny.Auth.SignIn
import Habeny.Auth.RateLimit
import Habeny.Auth.PasswordInForce
import Habeny.Lib.Json
import Habeny.Lib.HashChain
import Habeny.Audit.Log
import Habeny.Audit.Retention
import Habeny.Audit.Recording
import Habeny.Audit.Import
import Habeny.Audit.Export
import Habeny.Audit.Tamper
import Habeny.Audit.DateFilters
import Habeny.Lib.Lines
import Habeny.Licensing.Decode
import Habeny.Licensing.Install
import Habeny.Licensing.Signed
import Habeny.Lib.Retention
import Habeny.Migrations.Backups
import Habeny.Lib.Steps
import Habeny.Migrations.Versions
import Habeny.Migrations.Downgrade
import Habeny.Lib.Table
import Habeny.Migrations.SyslogTargets
import Habeny.Migrations.Destinations
import Habeny.Auth.Oidc
import Habeny.Auth.OidcKeys
import Habeny.Auth.Sso
import Habeny.Agents.Groups
import Habeny.Agents.Membership
import Habeny.Agents.Table
import Habeny.Agents.Interleaving
import Habeny.Agents.SeqIds
import Habeny.Lib.Dict
import Habeny.Records.Store
import Habeny.Records.Restart
import Habeny.Records.Refinement
import Habeny.Logs.Schedules
import Habeny.Logs.Timing
import Habeny.Logs.Final
import Habeny.Logs.GroupSchedule
import Habeny.Logs.WriteFile
import Habeny.Logs.Filebeat
import Habeny.Secrets.Cipher
import Habeny.Secrets.Managers
import Habeny.Notify.Settings
import Habeny.Notify.Channels
import Habeny.Notify.Dispatcher
import Habeny.Simulations.Answer
import Habeny.Simulations.Checking
import Habeny.Simulations.Search
import Habeny.Simulations.Status
import Habeny.Lib.LastWins
import Habeny.Simulations.Detection
import Habeny.Backup.Archive
import Habeny.Backup.Install
import Habeny.Backup.Pack
import Habeny.Backup.RoundTrip
import Habeny.Backup.Verified
import Habeny.Helper.Server
import Habeny.Helper.AllowList
import Habeny.Helper.Backends
import Habeny.Helper.Client
import Habeny.Helper.Protocol
import Habeny.Lib.Outbox
import Habeny.Alerts.Manager
import Habeny.Alerts.Episodes
import Habeny.Auth.RetryAfter
import Habeny.Deploy.Tracked
import Habeny.Backup.Newest
import Habeny.Auth.Expiry
import Habeny.Notices.Expressions
import Habeny.Lib.Shell
import Habeny.Lib.ShellReader
import Habeny.Lib.ShellRun
import Habeny.Simulations.CustomLogScript
import Habeny.Lib.Shlex
import Habeny.Settings.ConfigFile
import Habeny.Lib.Decimal
import Habeny.Simulations.Syslog
import Habeny.Telemetry.Metrics
import Habeny.Benchmarks.Life
import Habeny.Server.Instance
import Habeny.Installers.Downloads
