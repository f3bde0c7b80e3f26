import Bos3000.Billing.Ledger
import Bos3000.Callback.LiveLegs
import Bos3000.Callback.StatusOrder
import Bos3000.Callback.Terminal
import Bos3000.Callback.Slots
import Bos3000.Service.CreditFloor
import Bos3000.Service.OpenHolds
import Bos3000.Service.SlotLimit
import Bos3000.Service.SlotLeaks
import Bos3000.Routing.RoundRobin
import Bos3000.Routing.Proportional
import Bos3000.Lib.Pool
import Bos3000.Lib.Share
import Bos3000.Routing.Operations
import Bos3000.Routing.Agreement
import Bos3000.Lib.Sha256
import Bos3000.Lib.JsonText
import Bos3000.Webhook.Sign
import Bos3000.Webhook.Event
import Bos3000.Webhook.Moves
import Bos3000.Webhook.Delivered
import Bos3000.Webhook.Retries
import Bos3000.FSClient.Manager
import Bos3000.FSClient.Reconnection
import Bos3000.Callback.AnswerFirst
import Bos3000.Service.Refunds
import Bos3000.Callback.Finalizers
import Bos3000.Callback.FinalStatus
import Bos3000.Callback.ForceHangup
import Bos3000.Compliance.Blacklist
import Bos3000.Billing.Admission
import Bos3000.FSClient.Commands
import Bos3000.Service.Originations
import Bos3000.Callback.Hub
import Bos3000.Callback.HubRouting
import Bos3000.Lib.Net
import Bos3000.Auth.Users
import Bos3000.Auth.APIKeys
import Bos3000.Auth.KeyValidity
import Bos3000.Auth.Login
import Bos3000.Service.Frozen
import Bos3000.Service.Mirror
import Bos3000.Callback.Views
import Bos3000.Recording.Api
import Bos3000.Service.Tenants
import Bos3000.Callback.Notifications
import Bos3000.Recording.Merge
import Bos3000.Recording.Status
import Bos3000.Compliance.DailyLimit
import Bos3000.Billing.SlotCounter
import Bos3000.Callback.DailyCount
import Bos3000.Service.DailyQuota
import Bos3000.Service.Refusals
import Bos3000.Billing.BlockCost
import Bos3000.Service.HalfHour
import Bos3000.Billing.ExactCharges
import Bos3000.Callback.BilledTime
import Bos3000.Callback.Results
import Bos3000.Callback.WastageCost
import Bos3000.Callback.BridgeFields
import Bos3000.Callback.Snapshots
import Bos3000.Service.Counters
import Bos3000.Routing.BLeg
import Bos3000.Routing.Failover
import Bos3000.Routing.LegTypes
import Bos3000.Service.Prefixes
import Bos3000.Lib.ChangingRounds
import Bos3000.Routing.Fairness
import Bos3000.Routing.Weights
import Bos3000.Routing.Serial
import Bos3000.Webhook.Schedule
import Bos3000.Webhook.Backoff
import Bos3000.Webhook.DeadLetters
import Bos3000.Recording.Objects
import Bos3000.Recording.Ready
import Bos3000.Callback.Chronology
import Bos3000.Billing.Resolution
import Bos3000.Auth.Profile
import Bos3000.Webhook.Config
import Bos3000.Webhook.Targets
import Bos3000.Service.WebhookTargets
import Bos3000.FSClient.Loops
import Bos3000.Lib.Prepared
import Bos3000.Routing.DIDs
import Bos3000.Lib.NetText
import Bos3000.Auth.Whitelist
import Bos3000.Lib.Where
import Bos3000.Callback.Filters
import Bos3000.Billing.Transactions
import Bos3000.Compliance.AuditLogs
import Bos3000.Webhook.Deliveries
import Bos3000.Service.Pages
import Bos3000.Service.Balances
import Bos3000.Auth.Passwords
import Bos3000.Auth.Handler
import Bos3000.Callback.LiveFeed
import Bos3000.Lib.GrowingPages
import Bos3000.Routing.Numbers
import Bos3000.Routing.NumberList
import Bos3000.Lib.Keyed
import Bos3000.Callback.EventRouting
import Bos3000.Web.UseCallWs
import Bos3000.Lib.PercentEncoding
import Bos3000.Web.Query
import Bos3000.Web.Lists
import Bos3000.Webhook.DeadLetterList
import Bos3000.Lib.Like
import Bos3000.Lib.Select
import Bos3000.Auth.Search
import Bos3000.Web.Customers
import Bos3000.Compliance.BlacklistView
import Bos3000.Web.BlacklistImport
import Bos3000.Auth.Grants
import Bos3000.Auth.GrantedKeys
import Bos3000.Lib.Ranking
import Bos3000.Callback.Ending
import Bos3000.Service.Drain
import Bos3000.Callback.Mock
