import HandLiveRelay.Attestation
import HandLiveRelay.Basic
import HandLiveRelay.Lib.Base64
import HandLiveRelay.Lib.Bytes
import HandLiveRelay.Lib.Calendar
import HandLiveRelay.Lib.Except
import HandLiveRelay.Lib.Fiber
import HandLiveRelay.Lib.Float8
import HandLiveRelay.Lib.Json
import HandLiveRelay.Lib.JsonParts
import HandLiveRelay.Lib.JsonStruct
import HandLiveRelay.Lib.Ledger
import HandLiveRelay.Lib.Lts
import HandLiveRelay.Lib.Numeral
import HandLiveRelay.Lib.Overflow
import HandLiveRelay.Lib.Pool
import HandLiveRelay.Lib.RowLocks
import HandLiveRelay.Lib.Table
import HandLiveRelay.Lib.Ttl
import HandLiveRelay.Limits.ClientIp
import HandLiveRelay.Limits.Keys
import HandLiveRelay.Limits.MinuteQuota
import HandLiveRelay.Limits.RegistrationCap
import HandLiveRelay.Limits.RequestIp
import HandLiveRelay.Providers.Apns
import HandLiveRelay.Providers.Attempt
import HandLiveRelay.Providers.Fcm
import HandLiveRelay.Relay.Bandwidth
import HandLiveRelay.Relay.Bus
import HandLiveRelay.Relay.BusCodec
import HandLiveRelay.Relay.Conformance
import HandLiveRelay.Relay.Conn
import HandLiveRelay.Relay.Connection
import HandLiveRelay.Relay.Contract
import HandLiveRelay.Relay.Derived
import HandLiveRelay.Relay.Hub
import HandLiveRelay.Relay.Inbound
import HandLiveRelay.Relay.Outbound
import HandLiveRelay.Relay.Pacing
import HandLiveRelay.Relay.PinFilter
import HandLiveRelay.Relay.Presence
import HandLiveRelay.Relay.Reading
import HandLiveRelay.Relay.Rendezvous
import HandLiveRelay.Relay.Vocabulary
import HandLiveRelay.Relay.Wire
import HandLiveRelay.Revocation
import HandLiveRelay.Routes.Auth
import HandLiveRelay.Routes.Devices
import HandLiveRelay.Routes.Effects
import HandLiveRelay.Routes.FirstRevocation
import HandLiveRelay.Routes.Genuine
import HandLiveRelay.Routes.Integrity
import HandLiveRelay.Routes.Outcome
import HandLiveRelay.Routes.PairRequests
import HandLiveRelay.Routes.Pairs
import HandLiveRelay.Routes.Permanence
import HandLiveRelay.Routes.Push
import HandLiveRelay.Routes.PushFormat
import HandLiveRelay.Routes.PushRegistrations
import HandLiveRelay.Routes.PushStages
import HandLiveRelay.Routes.PushTokens
import HandLiveRelay.Routes.Registration
import HandLiveRelay.Routes.Requests
import HandLiveRelay.Routes.SingleUse
import HandLiveRelay.Routes.WakeCoalescing
import HandLiveRelay.Separation
import HandLiveRelay.Signatures
import HandLiveRelay.Store.Challenges
import HandLiveRelay.Store.Devices
import HandLiveRelay.Store.Pairs
import HandLiveRelay.Store.Schema
import HandLiveRelay.Store.Serial
import HandLiveRelay.Store.Timestamp
import HandLiveRelay.Store.Transactions
import HandLiveRelay.System.Acceptance
import HandLiveRelay.System.Announcing
import HandLiveRelay.System.Answers
import HandLiveRelay.System.Delivery
import HandLiveRelay.System.Forwarding
import HandLiveRelay.System.FrameSize
import HandLiveRelay.System.Handover
import HandLiveRelay.System.Meeting
import HandLiveRelay.System.Messages
import HandLiveRelay.System.Newest
import HandLiveRelay.System.Notices
import HandLiveRelay.System.PairCheck
import HandLiveRelay.System.PeerNews
import HandLiveRelay.System.PeerPresence
import HandLiveRelay.System.PubSub
import HandLiveRelay.System.Registry
import HandLiveRelay.System.Rendezvous
import HandLiveRelay.System.Revocations
import HandLiveRelay.System.SilentRemoval
import HandLiveRelay.System.SlowReceiver
import HandLiveRelay.System.Stages
import HandLiveRelay.System.SteadyPair
import HandLiveRelay.System.Steps
import HandLiveRelay.System.Subscriptions
import HandLiveRelay.System.Takeover
import HandLiveRelay.System.Tasks
import HandLiveRelay.System.Texts
import HandLiveRelay.System.Unforgeable
import HandLiveRelay.System.World
import HandLiveRelay.Usage.Calendar
import HandLiveRelay.Usage.Conservation
import HandLiveRelay.Usage.Flush
