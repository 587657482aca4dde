import CiroFuel.Arithmetic
import CiroFuel.Snapshot.Store
import CiroFuel.Snapshot.Transaction
import CiroFuel.Snapshot.System
import CiroFuel.Snapshot.Discipline
import CiroFuel.Snapshot.Execution
import CiroFuel.Snapshot.Totals
import CiroFuel.Snapshot.Sums
import CiroFuel.Snapshot.Alone
import CiroFuel.Schemas
import CiroFuel.OrderState
import CiroFuel.AuditTrail
import CiroFuel.Pricing
import CiroFuel.LitreBalances
import CiroFuel.Billing
import CiroFuel.Operations
import CiroFuel.Calls
import CiroFuel.Handlers
import CiroFuel.Footprint
import CiroFuel.InvoiceSteps
import CiroFuel.OrderSteps
import CiroFuel.PaymentSteps
import CiroFuel.Evolution
import CiroFuel.HandlerSafety
import CiroFuel.Reachable
import CiroFuel.Billed
import CiroFuel.Departures
import CiroFuel.PaymentWindow
import CiroFuel.BookingSteps
import CiroFuel.UserSteps
import CiroFuel.Occupation
import CiroFuel.Bookings
import CiroFuel.Receivables
import CiroFuel.Races
import CiroFuel.LitreSteps
import CiroFuel.LitreLedger
import CiroFuel.SupplierInvoices
import CiroFuel.GivenBack
import CiroFuel.CreditLimit
import CiroFuel.AccountSteps
import CiroFuel.AccountLedger
import CiroFuel.AccountBalances
import CiroFuel.AccountChecks
import CiroFuel.Returning
import CiroFuel.Routable
import CiroFuel.WebhookDelivery
import CiroFuel.Query.Conditions
import CiroFuel.Query.Keyset
import CiroFuel.Pagination
import CiroFuel.TenantScope
import CiroFuel.Tracking
import CiroFuel.ClientLists
import CiroFuel.StoredOrders
import CiroFuel.OrderViews
import CiroFuel.Exchange.Offers
import CiroFuel.Exchange.Listing
import CiroFuel.Exchange.Blindness
import CiroFuel.Snapshot.Bulk
import CiroFuel.Snapshot.Refusals
import CiroFuel.Exchange.Market
import CiroFuel.Exchange.Steps
import CiroFuel.Exchange.Reads
import CiroFuel.Exchange.Awards
import CiroFuel.Exchange.Answers
import CiroFuel.Exchange.Declines
import CiroFuel.Snapshot.Clocked
import CiroFuel.Snapshot.Single
import CiroFuel.Snapshot.Ghost
import CiroFuel.Snapshot.History
import CiroFuel.Snapshot.Outcomes
import CiroFuel.Otp.Primitives
import CiroFuel.Otp.Guesses
import CiroFuel.Auth.Accounts
import CiroFuel.Auth.Service
import CiroFuel.Auth.Handlers
import CiroFuel.Auth.AccountSteps
import CiroFuel.Auth.CodeSteps
import CiroFuel.Auth.Reads
import CiroFuel.Auth.Tokens
import CiroFuel.Auth.Revocation
import CiroFuel.Auth.Recovery
import CiroFuel.Auth.Credentials
import CiroFuel.Auth.Guesses
import CiroFuel.Auth.SessionCap
import CiroFuel.Handover.Codes
import CiroFuel.Handover.Guesses
import CiroFuel.Announcements.Deliveries
import CiroFuel.Announcements.Steps
import CiroFuel.Announcements.Fanout
import CiroFuel.Announcements.Losses
import CiroFuel.Announcements.Tallies
import CiroFuel.Query.Elements
import CiroFuel.Stops.Detection
import CiroFuel.Stops.Steps
import CiroFuel.Stops.Requests
import CiroFuel.Stops.Trail
import CiroFuel.Stops.Escalations
import CiroFuel.Rounding
import CiroFuel.Drawdowns
import CiroFuel.StationRouting
import CiroFuel.Snapshot.Spared
import CiroFuel.Assignments
import CiroFuel.Escalation.Messages
import CiroFuel.Escalation.Timely
import CiroFuel.Numerals
import CiroFuel.Cards.Uid
import CiroFuel.Cards.Pairing
import CiroFuel.Throttling
import CiroFuel.ThrottleBlocks
import CiroFuel.Leases
import CiroFuel.Movement
import CiroFuel.Ratings
import CiroFuel.CreditRequests
import CiroFuel.DefaultStation
import CiroFuel.Scripts
import CiroFuel.Collections
import CiroFuel.Migrations.Offers
import CiroFuel.Migrations.Tiers
import CiroFuel.Migrations.Moves
import CiroFuel.Migrations.Interrupted
import CiroFuel.PriceLaws
import CiroFuel.TransportFees
import CiroFuel.Overrides
import CiroFuel.DirectWindows
import CiroFuel.PriceHistory
import CiroFuel.Interleaving.Clients
import CiroFuel.Redis.Commands
import CiroFuel.Redis.Counters
import CiroFuel.Challenges
import CiroFuel.RateCounters
import CiroFuel.Query.Arrays
import CiroFuel.Handover.Cached
import CiroFuel.Handover.Stages
import CiroFuel.Handover.Issuing
import CiroFuel.Handover.Issued
import CiroFuel.Json.Doubles
import CiroFuel.Json.Literals
import CiroFuel.Json.Decimals
import CiroFuel.Json.Strings
import CiroFuel.Json.Tokens
import CiroFuel.Json.Values
import CiroFuel.Json.Conversions
import CiroFuel.Encoding.Base64
import CiroFuel.Encoding.Utf8
import CiroFuel.Encoding.Dates
import CiroFuel.Quotes.Tokens
import CiroFuel.Quotes.Redeeming
import CiroFuel.Quotes.Accepted
import CiroFuel.PhoneChanges
import CiroFuel.Cards.Recognition
import CiroFuel.SortKeys
import CiroFuel.DayBoundary
import CiroFuel.Notifications
import CiroFuel.Storage.Files
import CiroFuel.Offered
import CiroFuel.Presence
import CiroFuel.Roster
import CiroFuel.Summaries
import CiroFuel.Migrations.Stations
import CiroFuel.Rooms
import CiroFuel.DeliveryRates
