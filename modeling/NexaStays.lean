import NexaStays.RelyGuarantee
import NexaStays.Database
import NexaStays.Availability
import NexaStays.CreateBooking
import NexaStays.Payments
import NexaStays.Cancellation
import NexaStays.Lifecycle
import NexaStays.HostCalendar
import NexaStays.Calls
import NexaStays.Effects
import NexaStays.Persistence
import NexaStays.Invariant
import NexaStays.Interference
import NexaStays.Conformance.Booking
import NexaStays.Conformance.Gateway
import NexaStays.Conformance.Payments
import NexaStays.Conformance.Confirmation
import NexaStays.Conformance.Cancellation
import NexaStays.Conformance.Lifecycle
import NexaStays.Conformance.System
import NexaStays.NoDoubleBooking
import NexaStays.TerminalStatus
import NexaStays.CancelledLedger
import NexaStays.LedgerWellFormed
import NexaStays.DelimitedText
import NexaStays.GatewayTexts
import NexaStays.Captures
import NexaStays.Authorisations
import NexaStays.IdempotencyKey
import NexaStays.ConfirmedMoney
import NexaStays.CalendarSync
import NexaStays.SoloRuns
import NexaStays.ImportEffects
import NexaStays.FailedSync
import NexaStays.CalendarCalls
import NexaStays.ImportedNights
import NexaStays.HostUnblock
import NexaStays.CrashedSync
import NexaStays.PausedCalendar
import NexaStays.Explore
import NexaStays.ExplorePages
import NexaStays.HostListCursor
import NexaStays.HostListings
import NexaStays.HostListingsPages
import NexaStays.HostBookingsList
import NexaStays.ExploreCache
import NexaStays.HostBookingsPages
import NexaStays.IdentityStore
import NexaStays.Phases
import NexaStays.AuthzVersion
import NexaStays.PhoneNumbers
import NexaStays.EntitySave
import NexaStays.HostReview
import NexaStays.ListingOperations
import NexaStays.ListingOffer
import NexaStays.PersonStore
import NexaStays.ProfileCache
import NexaStays.ProfileSync
import NexaStays.AccountDeletion
import NexaStays.SharedProfile
import NexaStays.IdentityPhones
import NexaStays.PhoneChange
import NexaStays.Completions
import NexaStays.PhoneResolution
import NexaStays.OneIdentity
import NexaStays.PrimaryPhone
import NexaStays.Sumsub
import NexaStays.SumsubEffects
import NexaStays.RejectedPerson
import NexaStays.WebhookOrder
import NexaStays.Embedding
import NexaStays.LoginStore
import NexaStays.AccessTokens
import NexaStays.Secrets
import NexaStays.StaffLogin
import NexaStays.StaffPassword
import NexaStays.PinLogin
import NexaStays.PinAccount
import NexaStays.Exceptions
import NexaStays.RiskAuth
import NexaStays.RiskSpelling
import NexaStays.KycReview
import NexaStays.Confinement
import NexaStays.SnapshotFreshness
import NexaStays.CriticalSections
import NexaStays.DecisionOrder
import NexaStays.KycReuse
import NexaStays.ReuseSoundness
import NexaStays.AccountFrame
import NexaStays.AccountGuards
import NexaStays.RestrictedAccounts
import NexaStays.Messages
import NexaStays.MoneyIdempotency
import NexaStays.ConversationStates
import NexaStays.ConversationLocks
import NexaStays.Blocks
import NexaStays.StaySeeds
import NexaStays.MessageBlocks
import NexaStays.SupportRouting
import NexaStays.OutboundFetch
import NexaStays.ContentPublishing
import NexaStays.OperationalSignals
import NexaStays.SignalDecisions
import NexaStays.SupportTickets
import NexaStays.TicketLocks
import NexaStays.TicketCapacity
import NexaStays.TicketThreads
import NexaStays.ConversationRepair
import NexaStays.ThreadMerge
import NexaStays.ReportEscalation
import NexaStays.MessageRate
import NexaStays.CancelButton
import NexaStays.RefundPolicy
import NexaStays.SnapshotPrice
import NexaStays.AvailabilityAnswers
import NexaStays.IsoDates
import NexaStays.MapBounds
import NexaStays.NightRanges
import NexaStays.PaymentFlags
import NexaStays.StayLength
import NexaStays.CalendarExport
import NexaStays.BookedNights
import NexaStays.CsvExport
import NexaStays.HostEarnings
import NexaStays.PiiEncryption
import NexaStays.SeoSitemap
import NexaStays.SupportReports
import NexaStays.FixedWindow
import NexaStays.OtpSendLimit
import NexaStays.CanonicalRequest
import NexaStays.CursorContexts
import NexaStays.AddressSpellings
import NexaStays.MediaStorage
import NexaStays.InternationalNumbers
import NexaStays.RefreshRotation
import NexaStays.ReviewModeration
import NexaStays.StayLives
import NexaStays.Journal
import NexaStays.MessageOrder
import NexaStays.ReadPoints
import NexaStays.HistoryPages
import NexaStays.OutboxWorker
import NexaStays.PinGuesses
import NexaStays.CursorTexts
import NexaStays.AccountTables
import NexaStays.MessageTables
