import Weaver.Core.Ident
import Weaver.Crypto.Primitives
import Weaver.Lib.Checked
import Weaver.Lib.Collect
import Weaver.Lib.Wire
import Weaver.Crypto.Payloads
import Weaver.Crypto.Credentials
import Weaver.Crypto.Certificates
import Weaver.Crypto.Bindings
import Weaver.Config.Snapshot
import Weaver.Config.SnapshotCodec
import Weaver.Config.Validate
import Weaver.Config.Acceptance
import Weaver.Config.Envelope
import Weaver.Config.Sealing
import Weaver.Config.SealOpen
import Weaver.Lib.Pool
import Weaver.Lib.Versioned
import Weaver.Store.Stores
import Weaver.Authority.Ticket
import Weaver.Config.UpdateBatch
import Weaver.Authority.Handle
import Weaver.Authority.Operations
import Weaver.Authority.Invitation
import Weaver.Authority.Calls
import Weaver.Authority.Chain
import Weaver.Authority.Contract
import Weaver.Store.Rules
import Weaver.Authority.Safety
import Weaver.Authority.Plans
import Weaver.Authority.Genesis
import Weaver.Authority.History
import Weaver.Crypto.Transparent
import Weaver.Authority.ExactlyOnce
import Weaver.Authority.Session
import Weaver.Authority.Reopening
import Weaver.Authority.Epochs
import Weaver.Authority.Revocation
import Weaver.Authority.Reopen
import Weaver.Authority.Permanence
import Weaver.Member.ConfigState
import Weaver.Member.Applying
import Weaver.Member.Membership
import Weaver.Member.Checkpoint
import Weaver.Member.Tenancy
import Weaver.Authority.Issuing
import Weaver.Member.Joinable
import Weaver.Config.Sealable
import Weaver.Network.Serving
import Weaver.Authority.Progress
import Weaver.Network.Agreement
import Weaver.Network.Lifetime
import Weaver.Network.CatchUp
import Weaver.Lib.Sorted
import Weaver.Store.Memory
import Weaver.Store.Redb
import Weaver.Store.Swap
import Weaver.Authority.Atomicity
import Weaver.Config.Trimming
import Weaver.Authority.Removal
import Weaver.Lib.Phases
import Weaver.Member.Preparation
import Weaver.Member.Identity
import Weaver.Member.Reset
import Weaver.Authority.Endpoints
import Weaver.Relay.Reload
import Weaver.Config.Window
import Weaver.Config.Privilege
import Weaver.Authority.Admission
import Weaver.Authority.Anchoring
import Weaver.Authority.VirtualDns
import Weaver.Lib.Crash
import Weaver.Lib.FileSystem
import Weaver.Lib.FileRequests
import Weaver.Lib.Refine
import Weaver.Store.SecretFile
import Weaver.Store.DataDirectory
import Weaver.Authority.Staging
import Weaver.Authority.CrashSafety
import Weaver.Config.EnvelopeCodec
import Weaver.Crypto.CredentialCodec
import Weaver.Net.ConfigSync
import Weaver.Authority.InvitationCodec
import Weaver.Discovery.Presence
import Weaver.Discovery.PresenceCodec
import Weaver.Discovery.Cache
import Weaver.Discovery.Directory
import Weaver.Discovery.LanTag
import Weaver.Discovery.Lan
import Weaver.Member.Devices
import Weaver.Net.OpaquePresence
