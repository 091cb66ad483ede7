import ChatTea.Lib.Table
import ChatTea.Database.Uuid
import ChatTea.Database.Schema
import ChatTea.Billing.Repository
import ChatTea.Billing.Ledger
import ChatTea.Lib.Transaction
import ChatTea.Billing.Convergence
import ChatTea.Billing.Subscription
import ChatTea.Matching.Repository
import ChatTea.Matching.Writes
import ChatTea.Matching.Credits
import ChatTea.Matching.Invariant
import ChatTea.Database.World
import ChatTea.Upload.Repository
import ChatTea.Users.Repository
import ChatTea.Database.Rules
import ChatTea.Users.Service
import ChatTea.Users.Lifecycle
import ChatTea.Upload.Service
import ChatTea.Upload.Rows
import ChatTea.Upload.Objects
import ChatTea.Upload.System
import ChatTea.Upload.Programs
import ChatTea.Upload.Safety
import ChatTea.Auth.Token
import ChatTea.Auth.Repository
import ChatTea.Phone.Repository
import ChatTea.Auth.Service
import ChatTea.Phone.Service
import ChatTea.Auth.System
import ChatTea.Auth.Rules
import ChatTea.Auth.Deletion
import ChatTea.Auth.Grace
import ChatTea.Auth.Reset
import ChatTea.Phone.Quotas
import ChatTea.Lib.SlidingWindow
import ChatTea.Auth.Tokens
import ChatTea.Billing.Webhook
import ChatTea.Lib.Newest
import ChatTea.Billing.Access
import ChatTea.Billing.Erased
import ChatTea.Users.Erasure
import ChatTea.Upload.Quotas
import ChatTea.Auth.Attach
import ChatTea.Matching.Service
import ChatTea.Matching.Spelling
import ChatTea.Lib.ReadCommitted
import ChatTea.Matching.Blocks
import ChatTea.Chat.Calls
import ChatTea.Chat.Idempotency
import ChatTea.Chat.Unread
import ChatTea.Chat.Receipts
import ChatTea.Auth.Duplicates
import ChatTea.Billing.Delivery
import ChatTea.Billing.Spelling
import ChatTea.Lib.ThreeValued
import ChatTea.Matching.Candidates
import ChatTea.Notification.Registration
import ChatTea.Lib.Guarded
import ChatTea.Lib.Outcomes
import ChatTea.Matching.Boosts
import ChatTea.Matching.DailyLimit
import ChatTea.Matching.Undos
import ChatTea.Upload.Orphans
import ChatTea.Auth.KakaoLogins
import ChatTea.Chat.Opening
import ChatTea.Chat.Pages
import ChatTea.Lib.Ordered
import ChatTea.Lib.Sweep
import ChatTea.Lib.Tally
import ChatTea.Matching.LikedMe
import ChatTea.Matching.Plans
import ChatTea.Notification.Batches
import ChatTea.Notification.Delivery
import ChatTea.Community.Service
import ChatTea.Community.Calls
import ChatTea.Community.Idempotency
import ChatTea.Database.Alone
import ChatTea.Lib.Frames
import ChatTea.Users.Frame
import ChatTea.Upload.Cleanup
import ChatTea.Lib.Regex
import ChatTea.Lib.PostgresLexer
import ChatTea.Lib.PostgresGrammar
import ChatTea.Migrations.Parse
import ChatTea.Migrations.Statement
import ChatTea.Database.Kinds
import ChatTea.Upload.Profiles
import ChatTea.Lib.Chronicle
import ChatTea.Lib.Descent
import ChatTea.Notification.Jobs
import ChatTea.Notification.Calls
import ChatTea.Notification.Attempts
import ChatTea.Notification.System
import ChatTea.Notification.Runs
import ChatTea.Notification.Guarantees
import ChatTea.Migrations.Runner
import ChatTea.Migrations.Ledger
import ChatTea.Migrations.System
import ChatTea.Migrations.Recovery
import ChatTea.Maintenance.Runner
import ChatTea.Maintenance.System
import ChatTea.Lib.Select
import ChatTea.Community.Feed
import ChatTea.Chat.Inbox
import ChatTea.Environment.Validation
import ChatTea.Environment.Proxies
import ChatTea.Environment.Guarantees
