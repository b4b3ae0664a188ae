import Chinwag.Auth.UserRevocation
import Chinwag.Auth.Tabs
import Chinwag.Chat.ProjectionRefines
import Chinwag.Chat.Publication
import Chinwag.Chat.Redelivery
import Chinwag.Chat.Acknowledgement
import Chinwag.Chat.Restarts
import Chinwag.Dpop.Handshake
import Chinwag.Users.Isolation
import Chinwag.Users.GoogleIdentity
import Chinwag.Keys.Separation
import Chinwag.Keys.ActiveKeys
import Chinwag.Keys.Verifiability
import Chinwag.Lib.KeyedTable
import Chinwag.Rooms.Tables
import Chinwag.Rooms.Statements
import Chinwag.Rooms.Service
import Chinwag.Rooms.System
import Chinwag.Rooms.Frozen
import Chinwag.Rooms.Handlers
import Chinwag.Rooms.Sequential
import Chinwag.Rooms.Authorization
import Chinwag.Rooms.Capacity
import Chinwag.Rooms.Rejoin
import Chinwag.Rooms.SingleUse
import Chinwag.Chat.ReadOnly
import Chinwag.Chat.Timestamps
import Chinwag.Gateway.Htu
import Chinwag.Dpop.Client
import Chinwag.Dpop.Handshake
import Chinwag.Gateway.RateLimit
import Chinwag.Gateway.Expiry
import Chinwag.Chat.Hub
import Chinwag.Chat.HubSafety
import Chinwag.Chat.HubDelivery
import Chinwag.Auth.KeyExpiry
import Chinwag.Auth.LineageCleanup
import Chinwag.Gateway.ClockSkew
import Chinwag.Auth.SessionIndex
import Chinwag.Auth.SessionCount
import Chinwag.Rooms.Patch
import Chinwag.Rooms.PartialUpdate
import Chinwag.Lib.ReadModifyWrite
import Chinwag.Rooms.LostUpdate
import Chinwag.Users.LostUpdate
import Chinwag.Rooms.UserLookup
import Chinwag.Chat.WsTickets
import Chinwag.Chat.TicketSafety
import Chinwag.Chat.HubClients
import Chinwag.Chat.TicketInvariant
import Chinwag.Chat.Audience
import Chinwag.Chat.RepairTools
import Chinwag.Chat.RepairSystem
import Chinwag.Chat.RepairThreads
import Chinwag.Chat.SyncMark
import Chinwag.Chat.Regression
import Chinwag.Lib.Keyset
import Chinwag.Lib.Instant
import Chinwag.Lib.Sql
import Chinwag.Pages.Cursor
import Chinwag.Pages.Listing
import Chinwag.Pages.Messages
import Chinwag.Pages.Rooms
import Chinwag.Pages.Users
import Chinwag.Pages.Audit
import Chinwag.Gateway.CircuitBreaker
import Chinwag.Lib.Middleware
import Chinwag.Gateway.Metrics
import Chinwag.Lib.Base64
import Chinwag.Dpop.Thumbprint
import Chinwag.Lib.UnixTime
import Chinwag.Alerts.Message
import Chinwag.Alerts.Budget
import Chinwag.Alerts.Delivery
import Chinwag.Keys.Scheduler
import Chinwag.Client.WsClient
import Chinwag.Client.MessageList
import Chinwag.Client.Reconnect
import Chinwag.Client.OptimisticSend
import Chinwag.Chat.QueryService
import Chinwag.Chat.CacheCoherence
import Chinwag.Lib.Ranking
import Chinwag.Auth.SessionPages
import Chinwag.Chat.Backoff
import Chinwag.Alerts.Durations
import Chinwag.Rooms.InviteExpiry
import Chinwag.Chat.HubRooms
import Chinwag.Chat.MessageCodec
import Chinwag.Users.AdminCreation
import Chinwag.Rooms.NonMembers
import Chinwag.Rooms.PatchInPlace
import Chinwag.Lib.JsonText
import Chinwag.Dpop.ProofText
import Chinwag.Dpop.Admission
import Chinwag.Dpop.Middleware
import Chinwag.Lib.OneShot
import Chinwag.Users.OAuthState
import Chinwag.Lib.Ledger
import Chinwag.Gateway.Replicas
import Chinwag.Chat.Authorship
import Chinwag.Keys.KeyClient
import Chinwag.Chat.Disclosure
import Chinwag.Lib.History
import Chinwag.Users.Credentials
import Chinwag.Rooms.Grants
import Chinwag.Client.ApiClient
import Chinwag.Client.ApiCalls
import Chinwag.Client.Refreshes
import Chinwag.Client.SignedIn
import Chinwag.Lib.EventLog
import Chinwag.Chat.Lag
