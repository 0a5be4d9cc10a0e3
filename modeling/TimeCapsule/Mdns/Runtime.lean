import TimeCapsule.Mdns.Transport

/-!
# The runtime's sockets and active links

How the runtime acquires its sockets, and how it moves them to another set of links.  The packets
it sends on the way (goodbyes for links that are gone) change no socket and are left out, as are the
signals sent to the other responder and the delays.
-/

namespace TimeCapsule.Mdns

open Lib

def takeoverRetryCount : Nat := 6

structure MdnsTransportStatus where
  requiredIpv4 : Bool
  requiredIpv6 : Bool
  activeIpv4 : Bool
  activeIpv6 : Bool
  missingRequiredIpv4 : Bool
  missingRequiredIpv6 : Bool
deriving DecidableEq, Repr

def mdnsTransportStatusFromLinks (desiredLinks activeLinks : LinkContextSet)
    (sockets : MdnsSocketPair) : MdnsTransportStatus :=
  let requiredIpv4 := desiredLinks.needIpv4Socket
  let requiredIpv6 := desiredLinks.needIpv6Socket
  let activeIpv4 := sockets.ipv4Fd && activeLinks.needIpv4Socket
  let activeIpv6 := sockets.ipv6Fd && activeLinks.needIpv6Socket
  { requiredIpv4, requiredIpv6, activeIpv4, activeIpv6
    missingRequiredIpv4 := requiredIpv4 && !activeIpv4
    missingRequiredIpv6 := requiredIpv6 && !activeIpv6 }

namespace MdnsTransportStatus

def hasActiveSocket (status : MdnsTransportStatus) : Bool := status.activeIpv4 || status.activeIpv6

def missingRequired (status : MdnsTransportStatus) : Bool :=
  status.missingRequiredIpv4 || status.missingRequiredIpv6

def isHealthy (status : MdnsTransportStatus) : Bool :=
  status.hasActiveSocket && !status.missingRequired

end MdnsTransportStatus

/-- Whether the change succeeded, with the sockets and active links after it. -/
def applyRuntimeLinkChange (sharedBind : Bool) (sockets : MdnsSocketPair)
    (activeLinks newLinks : LinkContextSet) : NetM (Bool × MdnsSocketPair × LinkContextSet) := do
  match ← prepareRuntimeMdnsSocketsForLinks sharedBind sockets activeLinks newLinks with
  | (false, sockets, _) => return (false, sockets, activeLinks)
  | (true, sockets, appliedLinks) =>
      retireRuntimeMdnsMembershipsForMissing sockets activeLinks appliedLinks
      let sockets ← closeUnusedRuntimeMdnsSocketFamilies sockets appliedLinks
      return (true, sockets, appliedLinks)

/-- The attempts of one loop over the retry delays, until the transport is healthy. -/
def retryLinkChange (sharedBind : Bool) (desiredLinks : LinkContextSet) :
    (attempts : Nat) → MdnsSocketPair → LinkContextSet →
      NetM (Bool × MdnsSocketPair × LinkContextSet)
  | 0, sockets, activeLinks => return (false, sockets, activeLinks)
  | attempts + 1, sockets, activeLinks => do
      let (applied, sockets, activeLinks) ←
        applyRuntimeLinkChange sharedBind sockets activeLinks desiredLinks
      if applied && (mdnsTransportStatusFromLinks desiredLinks activeLinks sockets).isHealthy then
        return (true, sockets, activeLinks)
      else
        retryLinkChange sharedBind desiredLinks attempts sockets activeLinks

/-- One attempt, then the retries after either signal.  The result is 0 when the transport is
healthy, 1 when a socket is active, else -1. -/
def recoverRuntimeLinkChangeWithTakeover (sharedBind : Bool) (sockets : MdnsSocketPair)
    (activeLinks desiredLinks : LinkContextSet) : NetM (Int × MdnsSocketPair × LinkContextSet) := do
  let (healthy, sockets, activeLinks) ←
    retryLinkChange sharedBind desiredLinks 1 sockets activeLinks
  if healthy then return (0, sockets, activeLinks)
  let (healthy, sockets, activeLinks) ←
    retryLinkChange sharedBind desiredLinks takeoverRetryCount sockets activeLinks
  if healthy then return (0, sockets, activeLinks)
  let (healthy, sockets, activeLinks) ←
    retryLinkChange sharedBind desiredLinks takeoverRetryCount sockets activeLinks
  if healthy then return (0, sockets, activeLinks)
  let status := mdnsTransportStatusFromLinks desiredLinks activeLinks sockets
  return (if status.hasActiveSocket then 1 else -1, sockets, activeLinks)

/-- The result is 0 when the transport is healthy, 1 when it is degraded, -1 without sockets. -/
def openDualstackMdnsSocketsForDesired (sharedBind : Bool) (desiredLinks : LinkContextSet) :
    NetM (Int × MdnsSocketPair × LinkContextSet) := do
  match ← openDualstackMdnsSockets sharedBind desiredLinks with
  | (false, sockets, _) => return (-1, sockets, [])
  | (true, sockets, activeLinks) =>
      let status := mdnsTransportStatusFromLinks desiredLinks activeLinks sockets
      return (if status.isHealthy then 0 else 1, sockets, activeLinks)

/-- The attempts of one loop over the retry delays; degraded sockets are closed again. -/
def acquireHealthyMdnsSockets (sharedBind : Bool) (desiredLinks : LinkContextSet) :
    (attempts : Nat) → NetM (Option (MdnsSocketPair × LinkContextSet))
  | 0 => return none
  | attempts + 1 => do
      let (status, sockets, activeLinks) ←
        openDualstackMdnsSocketsForDesired sharedBind desiredLinks
      if status = 0 then return some (sockets, activeLinks)
      else
        if status = 1 then
          let _ ← closeMdnsSocketPair sockets
        acquireHealthyMdnsSockets sharedBind desiredLinks attempts

def acquireDualstackMdnsSockets (sharedBind : Bool) (desiredLinks : LinkContextSet) :
    NetM (Int × MdnsSocketPair × LinkContextSet) := do
  match ← acquireHealthyMdnsSockets sharedBind desiredLinks takeoverRetryCount with
  | some (sockets, activeLinks) => return (0, sockets, activeLinks)
  | none =>
      match ← acquireHealthyMdnsSockets sharedBind desiredLinks takeoverRetryCount with
      | some (sockets, activeLinks) => return (0, sockets, activeLinks)
      | none => openDualstackMdnsSocketsForDesired sharedBind desiredLinks

/-- The addresses of links are usable, and there are no more links than the sets have room for. -/
structure ValidLinks (links : LinkContextSet) : Prop where
  addr_ne_zero : ∀ link ∈ links, ∀ a ∈ link.ipv4, a.addr ≠ 0
  length_le : links.length ≤ maxIfaceContexts

/-- The program can end with `a` in world `w'`, for some answers of the kernel. -/
abbrev EndsIn {α : Type} (p : NetM α) (w : NetWorld) (a : α) (w' : NetWorld) : Prop :=
  p.Returns netKernel (fun _ _ _ => True) w a w'

/-- The sockets, active links and kernel memberships a run can have: it starts with closed sockets,
acquires them, changes the links (one call of the recovery loop at a time), closes them again. -/
inductive RuntimeReachable : MdnsSocketPair → LinkContextSet → NetWorld → Prop
  | start : RuntimeReachable ⟨false, false⟩ [] ⟨none, none⟩
  | acquire {w w' : NetWorld} {sharedBind : Bool} {desiredLinks activeLinks : LinkContextSet}
      {status : Int} {sockets : MdnsSocketPair} (h : RuntimeReachable ⟨false, false⟩ [] w)
      (hdesired : ValidLinks desiredLinks)
      (hend : EndsIn (acquireDualstackMdnsSockets sharedBind desiredLinks) w
        (status, sockets, activeLinks) w') :
      RuntimeReachable sockets activeLinks w'
  | change {w w' : NetWorld} {sharedBind applied : Bool}
      {desiredLinks activeLinks activeLinks' : LinkContextSet} {sockets sockets' : MdnsSocketPair}
      (h : RuntimeReachable sockets activeLinks w) (hdesired : ValidLinks desiredLinks)
      (hend : EndsIn (applyRuntimeLinkChange sharedBind sockets activeLinks desiredLinks) w
        (applied, sockets', activeLinks') w') :
      RuntimeReachable sockets' activeLinks' w'
  | close {w w' : NetWorld} {activeLinks : LinkContextSet} {sockets sockets' : MdnsSocketPair}
      (h : RuntimeReachable sockets activeLinks w)
      (hend : EndsIn (closeMdnsSocketPair sockets) w sockets' w') :
      RuntimeReachable sockets' [] w'

end TimeCapsule.Mdns
