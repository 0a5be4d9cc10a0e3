import TimeCapsule.Deploy.Config

/-!
# The plan of a deployment

`build_deployment_plan`: what is removed before the upload, what is uploaded where and how, and what
is done to it afterwards.  What happens after the payload is verified is no part of it here.
-/

namespace TimeCapsule.Deploy

open Lib

structure PayloadHome where
  volumeRoot : String
  devicePath : String
  payloadDirName : String
deriving Repr

def PayloadHome.payloadDir (home : PayloadHome) : String :=
  home.volumeRoot ++ "/" ++ home.payloadDirName

structure MaStVolume where
  diskDevice : String
  partitionDevice : String
  volumeRoot : String
  name : String
  adiskUuid : String
  builtin : Bool
  format : String
deriving Repr

def MaStVolume.devicePath (volume : MaStVolume) : String := "/dev/" ++ volume.partitionDevice

structure RemoteSymlink where
  path : String
  target : String
deriving Repr

structure RemotePermission where
  path : String
  mode : String
deriving Repr

inductive RemoteAction where
  | ensureVolumeMounted (volumeRoot devicePath : String) (waitSeconds : Nat)
  | prepareDirs (directories : List String) (recreatedSymlinks : List RemoteSymlink)
  | installPermissions (permissions : List RemotePermission)
  | stopProcess (name : String)
  | stopWatchdog
  | stopManager
  | stopTelemetry (cleanup : Bool)
  | removePath (path : String)
  | runScript (path : String)
deriving Repr

inductive SourceId where
  | binarySmbd
  | binaryXattrMigrator
  | binaryMdns
  | binaryNbns
  | binaryService
  | binaryTelemetry
  | binaryRsync
  | packagedRcLocal
  | packagedCommonSh
  | packagedDfreeSh
  | packagedBoot
  | packagedManager
  | packagedXattrMigrateWrapper
  | generatedFlashConfig
  | generatedRsyncConfig
deriving DecidableEq, Repr

inductive TransferMode where
  | scp
  | flashAtomic
  | generated
deriving DecidableEq, Repr

structure FileTransfer where
  sourceId : SourceId
  destination : String
  mode : TransferMode
  timeoutSeconds : Option Nat
deriving Repr

/-- The local binaries. -/
structure DeployArtifactPaths where
  smbd : String
  xattrMigrator : String
  mdns : String
  nbns : String
  rsync : String
  service : String
  telemetry : String
deriving Repr

structure DeploymentPlan where
  volumeRoot : String
  devicePath : String
  payloadDir : String
  artifacts : DeployArtifactPaths
  xattrMigratorTarget : String
  privateDir : String
  permissions : List RemotePermission
  migrationUpload : FileTransfer
  uploads : List FileTransfer
  preUploadActions : List RemoteAction
  postUploadActions : List RemoteAction
  appleMountWaitSeconds : Nat
deriving Repr

/-! ## Targets -/

def payloadBinaryUploadTimeoutSeconds : Nat := 180

def xattrMigratorUploadTimeoutSeconds : Nat := 180

def flashTextUploadTimeoutSeconds : Nat := 120

def flashTarget (name : String) : String := "/mnt/Flash/" ++ name

def payloadTarget (home : PayloadHome) (name : String) : String := home.payloadDir ++ "/" ++ name

def PayloadHome.privateDir (home : PayloadHome) : String := payloadTarget home "private"

def PayloadHome.cacheDir (home : PayloadHome) : String := payloadTarget home "cache"

def remoteDirectories (home : PayloadHome) : List String :=
  [home.payloadDir, home.privateDir, home.cacheDir, "/mnt/Flash", "/root", "/mnt/Memory/samba4"]

def legacySymlinks : List RemoteSymlink :=
  ["/root/tc-netbsd4", "/root/tc-netbsd4le", "/root/tc-netbsd4be", "/root/tc-netbsd7"].map
    fun path => ⟨path, "/mnt/Memory/samba4"⟩

def plannedPermissions (home : PayloadHome) : List RemotePermission :=
  [⟨payloadTarget home "smbd", "755"⟩, ⟨payloadTarget home "xattr-hfs-migrate", "755"⟩,
    ⟨payloadTarget home "mdns-advertiser", "755"⟩, ⟨payloadTarget home "nbns-advertiser", "755"⟩,
    ⟨payloadTarget home "rsync", "755"⟩, ⟨payloadTarget home "rsyncd.conf", "600"⟩,
    ⟨flashTarget "rc.local", "755"⟩, ⟨flashTarget "common.sh", "755"⟩,
    ⟨flashTarget "boot.sh", "755"⟩, ⟨flashTarget "manager.sh", "755"⟩,
    ⟨flashTarget "migrate.sh", "755"⟩, ⟨flashTarget "dfree.sh", "755"⟩,
    ⟨flashTarget "mdns-advertiser", "755"⟩, ⟨payloadTarget home "service", "755"⟩,
    ⟨payloadTarget home "telemetry", "755"⟩, ⟨flashTarget "tcapsulesmb.conf", "600"⟩,
    ⟨home.cacheDir, "755"⟩, ⟨home.privateDir, "700"⟩]

def payloadBinary (home : PayloadHome) (source : SourceId) (name : String) : FileTransfer :=
  ⟨source, payloadTarget home name, .scp, some payloadBinaryUploadTimeoutSeconds⟩

def flashScript (source : SourceId) (name : String) : FileTransfer :=
  ⟨source, flashTarget name, .flashAtomic, some flashTextUploadTimeoutSeconds⟩

def plannedUploads (home : PayloadHome) : List FileTransfer :=
  [payloadBinary home .binarySmbd "smbd", payloadBinary home .binaryMdns "mdns-advertiser",
    ⟨.binaryMdns, flashTarget "mdns-advertiser", .flashAtomic,
      some payloadBinaryUploadTimeoutSeconds⟩,
    payloadBinary home .binaryNbns "nbns-advertiser", payloadBinary home .binaryRsync "rsync",
    ⟨.generatedRsyncConfig, payloadTarget home "rsyncd.conf", .generated,
      some flashTextUploadTimeoutSeconds⟩,
    payloadBinary home .binaryService "service", payloadBinary home .binaryTelemetry "telemetry",
    flashScript .packagedRcLocal "rc.local", flashScript .packagedCommonSh "common.sh",
    flashScript .packagedBoot "boot.sh", flashScript .packagedManager "manager.sh",
    flashScript .packagedXattrMigrateWrapper "migrate.sh", flashScript .packagedDfreeSh "dfree.sh",
    flashScript .generatedFlashConfig "tcapsulesmb.conf"]

def ensurePayloadVolume (home : PayloadHome) (waitSeconds : Nat) : RemoteAction :=
  .ensureVolumeMounted home.volumeRoot home.devicePath waitSeconds

/-- The runtime is stopped first, so that it does not restart what is being overwritten; the volume
is mounted again before each change to it. -/
def plannedPreUploadActions (home : PayloadHome) (waitSeconds : Nat) : List RemoteAction :=
  [.stopManager, .stopWatchdog, .stopProcess "smbd", .stopProcess "mdns-advertiser",
    .stopProcess "nbns-advertiser", .stopProcess "mdns", .stopProcess "nbns", .stopProcess "rsync",
    .stopTelemetry false, .removePath "/mnt/Flash/mdns", .removePath "/mnt/Flash/start-samba.sh",
    .removePath "/mnt/Flash/watchdog.sh",
    ensurePayloadVolume home waitSeconds, .removePath (payloadTarget home "smb.conf.template"),
    ensurePayloadVolume home waitSeconds, .removePath (home.privateDir ++ "/adisk.uuid"),
    ensurePayloadVolume home waitSeconds, .removePath (home.privateDir ++ "/nbns.enabled"),
    ensurePayloadVolume home waitSeconds, .removePath (payloadTarget home "mdns"),
    ensurePayloadVolume home waitSeconds, .removePath (payloadTarget home "nbns"),
    ensurePayloadVolume home waitSeconds, .prepareDirs (remoteDirectories home) legacySymlinks]

def buildDeploymentPlan (home : PayloadHome) (artifacts : DeployArtifactPaths)
    (appleMountWaitSeconds : Nat) : DeploymentPlan where
  volumeRoot := home.volumeRoot
  devicePath := home.devicePath
  payloadDir := home.payloadDir
  artifacts := artifacts
  xattrMigratorTarget := payloadTarget home "xattr-hfs-migrate"
  privateDir := home.privateDir
  permissions := plannedPermissions home
  migrationUpload := ⟨.binaryXattrMigrator, payloadTarget home "xattr-hfs-migrate", .scp,
    some xattrMigratorUploadTimeoutSeconds⟩
  uploads := plannedUploads home
  preUploadActions := plannedPreUploadActions home appleMountWaitSeconds
  postUploadActions := [ensurePayloadVolume home appleMountWaitSeconds,
    .installPermissions (plannedPermissions home)]
  appleMountWaitSeconds := appleMountWaitSeconds

/-! ## Rendering the actions -/

/-- `text.rstrip("/")` -/
def rstripSlash (text : String) : String :=
  String.ofList (text.toList.reverse.dropWhile (· = '/')).reverse

/-- What `_render_remove_path_action` refuses: the flash root itself, also with blanks behind it. -/
def refusesPath (path : String) : Bool :=
  rstripSlash path == "/mnt/Flash" ||
    ("/mnt/Flash".toList.isPrefixOf path.toList && (path.toList.drop 10).head?.any isPySpace)

/-- `render_remote_action`, the text of the command apart. -/
def renderRemoteAction : RemoteAction → Checked Unit
  | .removePath path =>
      if refusesPath path then .error ("Refusing to remove flash root path: " ++ path) else .ok ()
  | _ => .ok ()

def renderRemoteActions : List RemoteAction → Checked Unit
  | [] => .ok ()
  | action :: rest => do
      renderRemoteAction action
      renderRemoteActions rest

end TimeCapsule.Deploy
