import Callifornia.AttachFailure
import Callifornia.Client.Capture
import Callifornia.Client.FirstOffer
import Callifornia.Client.Paging
import Callifornia.Client.Settings
import Callifornia.Connector.Routing
import Callifornia.Consistency
import Callifornia.Deployment.Health
import Callifornia.Deployment.Keyed
import Callifornia.Deployment.Placement
import Callifornia.Deployment.Sfus
import Callifornia.Disconnect
import Callifornia.InstanceLists
import Callifornia.InstanceLoad
import Callifornia.InstanceRecord
import Callifornia.Membership
import Callifornia.OfferText
import Callifornia.OneRoom
import Callifornia.OrphanSweep
import Callifornia.Presence
import Callifornia.RelayIds
import Callifornia.SessionLock
import Callifornia.Sessions.Reservation
import Callifornia.Sessions.WellFormed
import Callifornia.Sfu.ConnectionEvents
import Callifornia.Sfu.IndexRaces
import Callifornia.Sfu.Negotiation
import Callifornia.Sfu.Ordering
import Callifornia.Sfu.Relays
import Callifornia.Sfu.StreamCleanup
import Callifornia.Sfu.Streams
import Callifornia.Signaling.Announcements
import Callifornia.Signaling.Binding
import Callifornia.Signaling.Listeners
import Callifornia.Signaling.Purge
import Callifornia.Signaling.Responses
import Callifornia.Signaling.SdpQueue
import Callifornia.SlotRelease
import Callifornia.StaleSweep
import Callifornia.Supervisor.Allocation
import Callifornia.Supervisor.Seeding
