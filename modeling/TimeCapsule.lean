import TimeCapsule.Acp.Arrival
import TimeCapsule.AioFork.Invariant
import TimeCapsule.AioFork.Mapping
import TimeCapsule.AioFork.Pool
import TimeCapsule.AioFork.Progress
import TimeCapsule.App.Artifacts
import TimeCapsule.App.DeployPersisted
import TimeCapsule.App.DeployStore
import TimeCapsule.App.Distinct
import TimeCapsule.App.Edits
import TimeCapsule.App.Exclusion
import TimeCapsule.App.FlashPlanned
import TimeCapsule.App.FlashStale
import TimeCapsule.App.FlashStore
import TimeCapsule.App.Helper
import TimeCapsule.App.HelperRunner
import TimeCapsule.App.Identity
import TimeCapsule.App.Operations
import TimeCapsule.App.Profile
import TimeCapsule.App.Registry
import TimeCapsule.Config.RoundTrip
import TimeCapsule.Deploy.Cleanup
import TimeCapsule.Deploy.Config
import TimeCapsule.Deploy.Order
import TimeCapsule.Deploy.Plan
import TimeCapsule.Deploy.Program
import TimeCapsule.Flash.Actions
import TimeCapsule.Flash.Bank
import TimeCapsule.Flash.Basebinary
import TimeCapsule.Flash.Container
import TimeCapsule.Flash.Freshness
import TimeCapsule.Flash.Inspection
import TimeCapsule.Flash.Login
import TimeCapsule.Flash.Manifest
import TimeCapsule.Flash.Member
import TimeCapsule.Flash.Patch
import TimeCapsule.Flash.Payload
import TimeCapsule.Flash.Reanalysis
import TimeCapsule.Flash.SavedBackup
import TimeCapsule.Flash.Workflow
import TimeCapsule.Lib.Blocks
import TimeCapsule.Lib.Buffer
import TimeCapsule.Lib.Bytes
import TimeCapsule.Lib.Cbc
import TimeCapsule.Lib.Checked
import TimeCapsule.Lib.Checksum
import TimeCapsule.Lib.CodePoint
import TimeCapsule.Lib.Except
import TimeCapsule.Lib.Fields
import TimeCapsule.Lib.Filling
import TimeCapsule.Lib.Gzip
import TimeCapsule.Lib.GzipStream
import TimeCapsule.Lib.Json
import TimeCapsule.Lib.JsonText
import TimeCapsule.Lib.Lines
import TimeCapsule.Lib.Logged
import TimeCapsule.Lib.Packing
import TimeCapsule.Lib.Prog
import TimeCapsule.Lib.Runs
import TimeCapsule.Lib.Search
import TimeCapsule.Lib.Shell
import TimeCapsule.Lib.Temporal
import TimeCapsule.Lib.Text
import TimeCapsule.Lib.Utf8
import TimeCapsule.Manager.Advertised
import TimeCapsule.Manager.Consistency
import TimeCapsule.Manager.Disk
import TimeCapsule.Manager.Migrated
import TimeCapsule.Manager.Names
import TimeCapsule.Manager.Sections
import TimeCapsule.Manager.Shares
import TimeCapsule.Mdns.Active
import TimeCapsule.Mdns.Agreement
import TimeCapsule.Mdns.Announce
import TimeCapsule.Mdns.Announced
import TimeCapsule.Mdns.Answered
import TimeCapsule.Mdns.Asked
import TimeCapsule.Mdns.BindPolicy
import TimeCapsule.Mdns.Config
import TimeCapsule.Mdns.DecodeMemory
import TimeCapsule.Mdns.Deferral
import TimeCapsule.Mdns.Hidden
import TimeCapsule.Mdns.KnownAnswers
import TimeCapsule.Mdns.Link
import TimeCapsule.Mdns.LinkChange
import TimeCapsule.Mdns.LinkSets
import TimeCapsule.Mdns.Membership
import TimeCapsule.Mdns.Message
import TimeCapsule.Mdns.NameEquality
import TimeCapsule.Mdns.Names
import TimeCapsule.Mdns.PacketBuffer
import TimeCapsule.Mdns.Plan
import TimeCapsule.Mdns.Planned
import TimeCapsule.Mdns.Responder
import TimeCapsule.Mdns.Response
import TimeCapsule.Mdns.Runtime
import TimeCapsule.Mdns.Scope
import TimeCapsule.Mdns.Service
import TimeCapsule.Mdns.SharesFile
import TimeCapsule.Mdns.Transport
import TimeCapsule.Mdns.Wire
import TimeCapsule.Migrate.AppleDouble
import TimeCapsule.Migrate.Bounds
import TimeCapsule.Migrate.Internal
import TimeCapsule.Migrate.Native
import TimeCapsule.Migrate.Phases
import TimeCapsule.Migrate.Program
import TimeCapsule.Migrate.Quiet
import TimeCapsule.Migrate.Scan
import TimeCapsule.Migrate.Streams
import TimeCapsule.Migrate.Volume
import TimeCapsule.Migrate.Wants
import TimeCapsule.Migrate.Xattr
import TimeCapsule.Nbns.Protocol
import TimeCapsule.Nbns.Query
import TimeCapsule.Nbns.Rules
import TimeCapsule.Net.Target
import TimeCapsule.NtHash.Md4
import TimeCapsule.NtHash.Password
import TimeCapsule.Storage.Agreement
import TimeCapsule.Telemetry.Accepted
import TimeCapsule.Telemetry.Authorized
import TimeCapsule.Telemetry.Reading
import TimeCapsule.Telemetry.Response
import TimeCapsule.Telemetry.Values
import TimeCapsule.Transport.Once
import TimeCapsule.Vfs.Requests
import TimeCapsule.Xattr.Listing
