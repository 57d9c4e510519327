import DrFrakeVpn.AwgPeerHistory
import DrFrakeVpn.PaymentConfirmation
import DrFrakeVpn.SavedCards
import DrFrakeVpn.GrantedValue
import DrFrakeVpn.PromoLimits
import DrFrakeVpn.PromoPlans
import DrFrakeVpn.TrialEligibility
import DrFrakeVpn.PaymentFaults
import DrFrakeVpn.TvLogin
import DrFrakeVpn.TokenKinds
import DrFrakeVpn.VerificationCodes
import DrFrakeVpn.AdminRoles
import DrFrakeVpn.UserDeletion
import DrFrakeVpn.SnapshotPushes
import DrFrakeVpn.ServerEdits
import DrFrakeVpn.HealthAlerts
import DrFrakeVpn.ProtocolLifetime
import DrFrakeVpn.DisconnectFinality
import DrFrakeVpn.ShownHandlers
import DrFrakeVpn.WebProfiles
import DrFrakeVpn.SessionReplies
import DrFrakeVpn.LastCommand
import DrFrakeVpn.HappLifetime
import DrFrakeVpn.ClientAddresses
import DrFrakeVpn.HappRouting
import DrFrakeVpn.ClientLists
import DrFrakeVpn.NodeUpdates
import DrFrakeVpn.QrSeries
import DrFrakeVpn.FailedIssuing
import DrFrakeVpn.TemplateRefresh
import DrFrakeVpn.EndpointForms
import DrFrakeVpn.CanonicalRequests
import DrFrakeVpn.AdminIncidents
import DrFrakeVpn.AttemptLimits
import DrFrakeVpn.QuicBlocking
import DrFrakeVpn.RateLimits
import DrFrakeVpn.PromoSettings
import DrFrakeVpn.PaidAccess
import DrFrakeVpn.AccessExpiry
