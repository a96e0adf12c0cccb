import Ferventio.EventSub.Completion
import Ferventio.Push.Unseen
import Ferventio.Push.Users
import Ferventio.EventSub.Reprocessing
import Ferventio.Inbox.Deduplication
import Ferventio.Registration.Secret
import Ferventio.Settings.Serial
import Ferventio.Settings.History
import Ferventio.Device.Reauthorization
import Ferventio.EventSub.Convergence
import Ferventio.EventSub.Reporting
import Ferventio.Registration.Moderators
import Ferventio.OAuth.Provenance
import Ferventio.EventSub.ChannelOrder
import Ferventio.Device.Erasure
import Ferventio.RateLimit.ClientIP
import Ferventio.Security.Outbound
import Ferventio.RateLimit.Window
import Ferventio.Delivery.Finished
import Ferventio.EventSub.Signed
import Ferventio.OAuth.Freshness
import Ferventio.EventSub.Reconciler
import Ferventio.Push.Once
import Ferventio.Delivery.Backoff
import Ferventio.Auth.Rejection
import Ferventio.Delivery.Retries
import Ferventio.EventSub.Soundness
import Ferventio.EventSub.Union
import Ferventio.RateLimit.Eviction
import Ferventio.RateLimit.Retry
import Ferventio.Config.Numbers
import Ferventio.Device.Identifiers
import Ferventio.Push.Reader
import Ferventio.Registration.ChannelSettings
import Ferventio.Server.WorkerPools
import Ferventio.Auth.Sealing
import Ferventio.EventSub.ChatConnection
import Ferventio.EventSub.ChatSessions
