import DeskSync.Lib.Elements
import DeskSync.Lib.Run
import DeskSync.Lib.Proc
import DeskSync.Lib.Rely
import DeskSync.Lib.Marks
import DeskSync.Backend.Basic
import DeskSync.Lib.Percent
import DeskSync.Lib.Query
import DeskSync.Backend.Url
import DeskSync.Backend.Scan
import DeskSync.Backend.Password
import DeskSync.Auth.Domain
import DeskSync.Auth.Repository
import DeskSync.Auth.Service
import DeskSync.Auth.Refresh
import DeskSync.Auth.Rotation
import DeskSync.Auth.Reuse
import DeskSync.Auth.Disabled
import DeskSync.Auth.Atomic
import DeskSync.Auth.Accounts
import DeskSync.Auth.Families
import DeskSync.Auth.Logout
import DeskSync.Auth.OAuthState
import DeskSync.Auth.Federated
import DeskSync.Fleet.Domain
import DeskSync.Fleet.Repository
import DeskSync.Fleet.ChallengeStore
import DeskSync.Fleet.Service
import DeskSync.Fleet.Calls
import DeskSync.Fleet.Confirm
import DeskSync.Fleet.SingleUse
import DeskSync.Fleet.BruteForce
import DeskSync.Lib.Expand
import DeskSync.Fleet.Counters
import DeskSync.Fleet.Ledger
import DeskSync.Fleet.Trust
import DeskSync.Fleet.Cutoff
import DeskSync.Fleet.Keys
import DeskSync.Fleet.Books
import DeskSync.Fleet.Contract
import DeskSync.Fleet.Tenants
import DeskSync.Backend.DeviceCert
import DeskSync.Lib.Aead
import DeskSync.Agent.Channel
import DeskSync.Agent.World
import DeskSync.Agent.Delivery
import DeskSync.Agent.Reconnect
import DeskSync.Agent.RoundTrip
import DeskSync.Agent.Store
import DeskSync.Agent.Lifecycle
import DeskSync.Agent.KeyFile
import DeskSync.Lib.Entries
import DeskSync.Agent.Autostart
import DeskSync.Mobile.Channel
import DeskSync.Mobile.Nonce
import DeskSync.Mobile.Replay
import DeskSync.Mobile.AuthReuse
import DeskSync.Mobile.AuthSession
import DeskSync.Mobile.AuthPairs
import DeskSync.Mobile.Devices
import DeskSync.Mobile.DeviceIdentity
import DeskSync.Mobile.PairingLink
import DeskSync.Agent.Negotiation
import DeskSync.Media.Frames
import DeskSync.Viewer.Guards
import DeskSync.Viewer.Teardown
import DeskSync.Signaling.Relay
import DeskSync.Signaling.Removed
import DeskSync.Signaling.Presence
import DeskSync.Signaling.Ws
import DeskSync.Signaling.Envelopes
import DeskSync.Signaling.Replays
import DeskSync.Signaling.Coherence
import DeskSync.Session.Nonces
import DeskSync.Session.Trickle
import DeskSync.Session.Manager
import DeskSync.Session.Channels
import DeskSync.DevTools.Confinement
import DeskSync.DevTools.Destination
import DeskSync.DevTools.Workspaces
import DeskSync.DevTools.Histories
import DeskSync.Lib.Utf8
import DeskSync.DevTools.Runner
import DeskSync.Lib.Number
import DeskSync.Lib.Slice
import DeskSync.Lib.Serde
import DeskSync.Mobile.Input
import DeskSync.Mobile.Commands
import DeskSync.Agent.Input
import DeskSync.Agent.InputJson
import DeskSync.Agent.Teardown
import DeskSync.DevTools.Json
import DeskSync.Session.Typing
import DeskSync.Session.Commands
import DeskSync.Session.Scrolling
import DeskSync.Viewer.Surface
import DeskSync.Viewer.Keyboard
import DeskSync.Viewer.Decode
import DeskSync.Viewer.Bitrate
import DeskSync.Viewer.Mirror
import DeskSync.Media.Bitrate
import DeskSync.Media.Scaling
import DeskSync.Media.Encoder
import DeskSync.Media.CaptureLoop
import DeskSync.Backend.SessionEnd
import DeskSync.Session.Wire
import DeskSync.Backend.Tickets
import DeskSync.Backend.Rooms
import DeskSync.Backend.BringUp
import DeskSync.Backend.Bearer
import DeskSync.Agent.Router
import DeskSync.Session.Injection
import DeskSync.Media.Cuts
import DeskSync.Session.Screen
import DeskSync.Agent.Tokens
import DeskSync.Session.Draining
