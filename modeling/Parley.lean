import Parley.Library.Run
import Parley.Library.AssocList
import Parley.Library.Text
import Parley.Library.Sha256
import Parley.Library.Network
import Parley.Library.Cbor
import Parley.Library.Cascade
import Parley.Library.Recent
import Parley.Library.RunningLeast
import Parley.Library.Trim
import Parley.Library.Utf8
import Parley.Library.CborItem
import Parley.Library.TokenBucket
import Parley.Wire
import Parley.Crypto
import Parley.Session.Client
import Parley.Session.Endpoint
import Parley.Session.KeyRollback
import Parley.Session.LeaverLockout
import Parley.Session.Rotation
import Parley.Session.KeyStream
import Parley.Session.RotationInvariant
import Parley.Session.RotationSteps
import Parley.Session.HeldKeys
import Parley.Session.FrameLoss
import Parley.Session.KeyRing
import Parley.Session.Reconnect
import Parley.Session.Sending
import Parley.Phrase
import Parley.Service.Ctl
import Parley.Service.Election
import Parley.Service.ScreenName
import Parley.Service.Node
import Parley.Service.World
import Parley.Service.Conduct
import Parley.Service.Lineage
import Parley.Service.NodeSteps
import Parley.Service.Departed
import Parley.Service.Grants
import Parley.Service.Roles
import Parley.Service.Reactions
import Parley.Service.Replicas
import Parley.Service.Leadership
import Parley.Service.Replication
import Parley.Service.Attributes
import Parley.Service.SealedReplicas
import Parley.Service.Migration
import Parley.Service.Rekeying
import Parley.Service.Handover
import Parley.Service.Agreement
import Parley.Service.Layered
import Parley.Service.Chat
import Parley.Service.LateJoin
import Parley.Service.ChatHistory
import Parley.Service.Strings
import Parley.Service.SnapshotSize
import Parley.Service.EventStream
import Parley.Service.Sequence
import Parley.Relay.Hub
import Parley.Relay.Eviction
import Parley.Relay.HubRun
import Parley.Relay.Writer
import Parley.Relay.Slots
import Parley.Relay.Departure
import Parley.Relay.Representation
import Parley.Relay.Outage
import Parley.Relay.SlotLife
import Parley.Relay.Cascade
import Parley.Relay.Stamping
import Parley.Relay.Forwarding
import Parley.Relay.Wraparound
import Parley.Relay.Ownership
import Parley.Relay.Membership
import Parley.Relay.Registry
import Parley.Relay.Lifetimes
import Parley.Relay.Admission
import Parley.Relay.Founding
import Parley.Relay.Authority
import Parley.Relay.RateLimit
import Parley.Relay.IdleEviction
import Parley.Dashboard.Server
import Parley.Dashboard.Authentication
