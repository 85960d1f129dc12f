import ScatterWeb.Lib.Transition
import ScatterWeb.Lib.Table
import ScatterWeb.Crypto.Primitives
import ScatterWeb.Crypto.Symbolic
import ScatterWeb.Lib.SkipWindow
import ScatterWeb.Ratchet.Model
import ScatterWeb.Ratchet.Run
import ScatterWeb.Ratchet.Track
import ScatterWeb.Ratchet.Session
import ScatterWeb.Ratchet.Invariant
import ScatterWeb.Ratchet.Delivery
import ScatterWeb.Ratchet.HeaderForgery
import ScatterWeb.Lib.Bytes
import ScatterWeb.Lib.Cbor
import ScatterWeb.Client.Envelope
import ScatterWeb.Client.AppFrame
import ScatterWeb.AnonRouter.Consent
import ScatterWeb.AnonRouter.Nonces
import ScatterWeb.AnonRouter.Agreement
import ScatterWeb.AnonRouter.Stream
import ScatterWeb.AnonRouter.Crash
import ScatterWeb.AnonRouter.Secrecy
import ScatterWeb.Mailbox.Frames
import ScatterWeb.Inbox.Store
import ScatterWeb.Inbox.Model
import ScatterWeb.Inbox.Steps
import ScatterWeb.Inbox.Admission
import ScatterWeb.Inbox.Retention
import ScatterWeb.Lib.SharedConnection
import ScatterWeb.Inbox.Threads
import ScatterWeb.Inbox.KeptMessages
import ScatterWeb.Outbox.Store
import ScatterWeb.Outbox.Acks
import ScatterWeb.Outbox.Terminal
import ScatterWeb.Outbox.Retries
import ScatterWeb.Outbox.Delivery
import ScatterWeb.Mailbox.Safety
import ScatterWeb.Mailbox.Broadcast
import ScatterWeb.Keystore.Model
import ScatterWeb.Keystore.Nonces
import ScatterWeb.Keystore.Recovery
import ScatterWeb.Client.CrashSafety
import ScatterWeb.Client.Contacts
import ScatterWeb.Client.Status
import ScatterWeb.Client.ContactCard
import ScatterWeb.Client.Sequence
import ScatterWeb.Client.Establish
import ScatterWeb.Client.Groups
import ScatterWeb.Dht.Record
import ScatterWeb.Dht.Accept
import ScatterWeb.Dht.RoundTrip
import ScatterWeb.Dht.Authority
import ScatterWeb.Client.Cert
import ScatterWeb.Client.DhtPub
import ScatterWeb.Client.Devices
import ScatterWeb.Client.Purposes
import ScatterWeb.Client.CardForgery
import ScatterWeb.Client.CertCache
import ScatterWeb.Ipc.Codec
import ScatterWeb.Ipc.RoundTrip
import ScatterWeb.Lib.SortedMap
import ScatterWeb.Client.Publication
import ScatterWeb.Client.Allowlist
import ScatterWeb.Client.Pending
import ScatterWeb.Outbox.Enqueue
import ScatterWeb.Client.Queueing
import ScatterWeb.Ipc.Call
import ScatterWeb.Lib.SharedStream
import ScatterWeb.Ipc.Framing
import ScatterWeb.Lib.HandlerThread
import ScatterWeb.Ipc.ReceiveThread
import ScatterWeb.Inbox.Pushes
import ScatterWeb.Outbox.Pushes
import ScatterWeb.Client.Pushes
import ScatterWeb.Client.LostFields
import ScatterWeb.Crypto.Concat
import ScatterWeb.Ratchet.Atomicity
import ScatterWeb.Ratchet.Keys
import ScatterWeb.Ratchet.KeyReuse
import ScatterWeb.Ratchet.Replay
import ScatterWeb.Ipc.Escape
import ScatterWeb.Ipc.Matching
import ScatterWeb.Mailbox.Unanswered
import ScatterWeb.Outbox.FanOut
import ScatterWeb.Outbox.BroadcastStatus
import ScatterWeb.Client.Numbering
import ScatterWeb.Client.Pages
import ScatterWeb.Client.Coverage
import ScatterWeb.Ipc.Streaming
import ScatterWeb.Inbox.Replication
import ScatterWeb.Inbox.RetentionDays
import ScatterWeb.Mailbox.Parsers
import ScatterWeb.Outbox.Expiry
import ScatterWeb.Lib.Connection
import ScatterWeb.Outbox.Credentials
import ScatterWeb.Lib.Smallest
import ScatterWeb.AnonRouter.Tft
import ScatterWeb.AnonRouter.Authentic
import ScatterWeb.Lib.Counted
import ScatterWeb.Ratchet.ChainSteps
import ScatterWeb.Inbox.Replacement
import ScatterWeb.Ipc.Integers
import ScatterWeb.Lib.Numeral
import ScatterWeb.AnonRouter.ChannelIds
import ScatterWeb.AnonRouter.Config
import ScatterWeb.Crypto.Deduction
import ScatterWeb.Ratchet.Course
import ScatterWeb.Ratchet.Authenticity
import ScatterWeb.Ratchet.ForwardSecrecy
import ScatterWeb.Ratchet.Recovery
import ScatterWeb.AnonRouter.Rotation
import ScatterWeb.Client.Unread
import ScatterWeb.Client.Prekeys
import ScatterWeb.Client.Silence
import ScatterWeb.Client.Reports
import ScatterWeb.Client.Invitations
import ScatterWeb.Ipc.Lifecycle
import ScatterWeb.Ipc.ClientList
import ScatterWeb.AnonRouter.Direct
import ScatterWeb.AnonRouter.Guard
