import PatronLoyalty.Appointments.Bookings
import PatronLoyalty.Appointments.Lifecycle
import PatronLoyalty.Auth.Confinement
import PatronLoyalty.Campaign.Targets
import PatronLoyalty.Crm.Directory
import PatronLoyalty.Loyalty.ExactlyOnce
import PatronLoyalty.Loyalty.Expiry
import PatronLoyalty.Loyalty.Integration
import PatronLoyalty.Loyalty.PurchaseFilters
import PatronLoyalty.Loyalty.Referrals
import PatronLoyalty.Loyalty.Tiers
import PatronLoyalty.Loyalty.Wallets
import PatronLoyalty.Ticketing.Calls
import PatronLoyalty.Ticketing.Continuity
import PatronLoyalty.Ticketing.Kiosk
import PatronLoyalty.Ticketing.Lines
import PatronLoyalty.Ticketing.LoyaltyEvents
import PatronLoyalty.Ticketing.Outcomes
import PatronLoyalty.Ticketing.Places
import PatronLoyalty.Ticketing.Positions
import PatronLoyalty.Accounts.Deactivation
import PatronLoyalty.Accounts.Recovery
import PatronLoyalty.Accounts.ImpersonationBounds
import PatronLoyalty.ApiKeys.Rotation
import PatronLoyalty.Accounts.Confinement
import PatronLoyalty.Accounts.Owners
import PatronLoyalty.Workbench.JourneyDesks
import PatronLoyalty.Consent.Webhooks
import PatronLoyalty.Notifications.Caps
import PatronLoyalty.Notifications.Reminders
import PatronLoyalty.Notifications.Allowance
import PatronLoyalty.Notifications.OptOut
import PatronLoyalty.Displays.Lifecycle
import PatronLoyalty.Displays.Pairing
import PatronLoyalty.Plans.Limits
import PatronLoyalty.Billing.SmsCredits
import PatronLoyalty.Crm.PhoneLookups
import PatronLoyalty.Crm.Reuploads
import PatronLoyalty.Loyalty.Cancellations
import PatronLoyalty.Loyalty.Challenges
import PatronLoyalty.Loyalty.CouponChecks
import PatronLoyalty.Loyalty.Games
import PatronLoyalty.Ticketing.NextSteps
import PatronLoyalty.Appointments.LocalTime
import PatronLoyalty.Appointments.Availability
import PatronLoyalty.Privacy.Redaction
import PatronLoyalty.Ticketing.Expiry
import PatronLoyalty.Ticketing.QueueSteps
import PatronLoyalty.Ticketing.TransactionNumbers
import PatronLoyalty.Notifications.Footer
import PatronLoyalty.Ticketing.Notices
import PatronLoyalty.Appointments.SlotLoop
import PatronLoyalty.Pos.Views
import PatronLoyalty.Reports.Heatmap
import PatronLoyalty.Reports.Points
import PatronLoyalty.Webhooks.Delivery
import PatronLoyalty.Workbench.StationProfiles
import PatronLoyalty.Auth.Handoff
