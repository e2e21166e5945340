import Just1kBot.Bot.BroadcastResume
import Just1kBot.Bot.LockRegistry
import Just1kBot.Bot.RenderHub
import Just1kBot.Bot.ReplyMarkup
import Just1kBot.Bot.TextParts
import Just1kBot.Bot.Throttling
import Just1kBot.Lib.Debt
import Just1kBot.Lib.Dict
import Just1kBot.Lib.Fifo
import Just1kBot.Lib.Lease
import Just1kBot.Lib.Meter
import Just1kBot.Lib.Paging
import Just1kBot.Lib.Python
import Just1kBot.Lib.Session
import Just1kBot.Lib.Sql
import Just1kBot.Lib.StableSort
import Just1kBot.Lib.Table
import Just1kBot.Lib.TokenBucket
import Just1kBot.Lib.Tracked
import Just1kBot.Lib.Transition
import Just1kBot.Lib.Versioned
import Just1kBot.Models
import Just1kBot.Billing.BonusFirst
import Just1kBot.Billing.Conservation
import Just1kBot.Billing.Debt
import Just1kBot.Billing.Neutrality
import Just1kBot.Billing.ReferralReversal
import Just1kBot.Billing.RefundDebits
import Just1kBot.Database.PostCommit
import Just1kBot.Database.Reencryption
import Just1kBot.Orders.Classification
import Just1kBot.Orders.FreeSwitch
import Just1kBot.Orders.GatewayCancel
import Just1kBot.Orders.NotifyDebts
import Just1kBot.Orders.OpenOrders
import Just1kBot.Orders.PaymentRecord
import Just1kBot.Orders.PurchasePages
import Just1kBot.Orders.QuotedChange
import Just1kBot.Orders.ReferralTier
import Just1kBot.Orders.RefundIsolation
import Just1kBot.Orders.TariffPricing
import Just1kBot.Orders.WebhookInbox
import Just1kBot.Orders.WelcomeDiscount
import Just1kBot.Servers.HostTraffic
import Just1kBot.Servers.NodeMonitor
import Just1kBot.Servers.SlotsCache
import Just1kBot.Servers.XrayEpoch
import Just1kBot.Users.AdminClicks
import Just1kBot.Users.MassBonus
import Just1kBot.Users.ReferralRank
import Just1kBot.Users.MassExtend
import Just1kBot.Users.Referrals
import Just1kBot.Users.Traffic
import Just1kBot.Vless.AccessSync
import Just1kBot.Vless.NodeSync
import Just1kBot.Vless.Rotation
import Just1kBot.Vless.Traffic
import Just1kBot.Web.ClientIp
import Just1kBot.Web.DeviceLimit
import Just1kBot.Web.PublicDomain
import Just1kBot.Web.RateBounds
import Just1kBot.Web.SafeUrl
import Just1kBot.Web.VlessFeed
import Just1kBot.Web.WhiteInternetFeed
import Just1kBot.WhiteInternet.Capacity
import Just1kBot.WhiteInternet.CleanupWins
import Just1kBot.WhiteInternet.Convergence
import Just1kBot.WhiteInternet.ExpirySweep
import Just1kBot.WhiteInternet.ExtraCap
import Just1kBot.WhiteInternet.ExtraKept
import Just1kBot.WhiteInternet.HardDelete
import Just1kBot.WhiteInternet.InlineSync
import Just1kBot.WhiteInternet.Metering
import Just1kBot.WhiteInternet.Origins
import Just1kBot.WhiteInternet.QuotaEnforcement
import Just1kBot.WhiteInternet.SweepSpares
import Just1kBot.WhiteInternet.TrafficAccounting
import Just1kBot.WhiteInternet.Trials
import Just1kBot.Workers.Reminders
import Just1kBot.Workers.StaleStarvation
import Just1kBot.Workers.Supervisor
import Just1kBot.Workers.WhiteInternetReminders
import Just1kBot.WhiteInternet.SyncQueue
