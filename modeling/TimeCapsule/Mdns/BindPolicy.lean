import TimeCapsule.Mdns.Config
import TimeCapsule.Mdns.Link

/-!
# LAN and WAN links

Which links are for the LAN: those with a bridge or LAN name or, when there are none, private links
whose name the system does not report.  The service helper binds Samba to them, and the responder
offers its file services on them.
-/

namespace TimeCapsule.Mdns

open Lib

def iffRunning : UInt32 := 0x40

/-! ## Interface names -/

def ifaceNameHasPrefix (name : String) (start : String) : Bool :=
  start.toList.isPrefixOf name.toList

def ifaceNameIsStrongLan (name : String) : Bool :=
  ifaceNameHasPrefix name "bridge" || ifaceNameHasPrefix name "br" || ifaceNameHasPrefix name "lan"

def ifaceNameIsLikelyLan (name : String) : Bool :=
  ["bridge", "br", "lan", "bcmeth", "eth", "en", "wlan", "ath", "bwl"].any (ifaceNameHasPrefix name)

def ifaceNameIsLikelyWanOrTunnel (name : String) : Bool :=
  ["wan", "ppp", "tun", "tap", "gif", "stf"].any (ifaceNameHasPrefix name)

/-- Names made from an address, for links whose name is not reported. -/
def ifaceNameIsSyntheticFromAddress (name : String) : Bool :=
  ifaceNameHasPrefix name "ip4-" || name == "ipv6" || ifaceNameHasPrefix name "ipv6-if"

/-! ## Sorting -/

def linkContextPriorityScore (link : LinkContext) : Int :=
  let address : Int :=
    match link.ipv4 with
    | [] => 1000
    | first :: _ =>
        (if ipv4IsRfc1918 first.addr then -4000 else 0) +
          (if ipv4IsLinkLocal first.addr then 200 else 0)
  let name : Int :=
    (if ifaceNameIsStrongLan link.name then -3000
    else if ifaceNameIsLikelyLan link.name then -2500
    else 0) + (if ifaceNameIsLikelyWanOrTunnel link.name then 5000 else 0)
  address + name + (if link.flags &&& iffRunning = 0 then 500 else 0)

/-- Whether `link_context_compare` is negative. -/
def linkContextBefore (a b : LinkContext) : Bool :=
  let aScore := linkContextPriorityScore a
  let bScore := linkContextPriorityScore b
  if aScore ≠ bScore then aScore < bScore
  else if a.name ≠ b.name then a.name < b.name
  else
    match a.ipv4, b.ipv4 with
    | first :: _, first' :: _ => first.addr < first'.addr
    | _, _ => false

/-- One step of the insertion sort: the link moves in front of those at the end that it is before. -/
def insertLinkContext (sorted : LinkContextSet) (link : LinkContext) : LinkContextSet :=
  let behind := sorted.reverse.takeWhile (linkContextBefore link)
  sorted.take (sorted.length - behind.length) ++ link :: behind.reverse

def sortLinkContexts (set : LinkContextSet) : LinkContextSet := set.foldl insertLinkContext []

/-! ## The policy -/

/-- Links copied into a set, and whether there was no room for some of them. -/
structure KeptLinks where
  links : LinkContextSet
  truncated : Bool
deriving DecidableEq, Repr

/-- The loops that copy links: the ones to keep, as far as there is room, sorted. -/
def keepLinkContexts (keep : LinkContext → Bool) (links : LinkContextSet) : KeptLinks :=
  let kept := links.filter keep
  ⟨sortLinkContexts (kept.take maxIfaceContexts), maxIfaceContexts < kept.length⟩

namespace LinkContext

def hasSambaAddress (link : LinkContext) : Bool :=
  link.ipv4.any linkIpv4AddrIsSambaBindable || link.ipv6.any linkIpv6AddrIsSambaBindable

def hasPrivateLanSambaAddress (link : LinkContext) : Bool :=
  (link.ipv4.any fun a => linkIpv4AddrIsSambaBindable a && ipv4IsRfc1918 a.addr) ||
    link.ipv6.any fun a => linkIpv6AddrIsSambaBindable a &&
      (ipv6IsUlaAddr a.addr || ipv6IsLinkLocalAddr a.addr)

def isUnnamedPrivateLanFallback (link : LinkContext) : Bool :=
  ifaceNameIsSyntheticFromAddress link.name && link.hasPrivateLanSambaAddress

def hasAdvertisableIpv6 (link : LinkContext) : Bool :=
  link.mdnsIpv6Transport && link.ifindex != 0 && link.ipv6.any linkIpv6AddrIsSambaBindable

def isAdvertiseEligible (link : LinkContext) : Bool :=
  !link.ipv4.isEmpty || link.hasAdvertisableIpv6

/-- `link_context_topology_equal`: equal apart from the transports. -/
def topologyEqual (a b : LinkContext) : Bool :=
  a.name == b.name && a.flags == b.flags && a.ifindex == b.ifindex && a.isWan == b.isWan &&
    a.ipv4 == b.ipv4 && a.ipv6 == b.ipv6

end LinkContext

def filterSmbBindLinkContexts (links : LinkContextSet) (lanOnly unnamedLanFallback : Bool) :
    KeptLinks :=
  keepLinkContexts (fun link =>
    !(lanOnly && link.isWan) &&
    (!lanOnly ||
      (if unnamedLanFallback then link.isUnnamedPrivateLanFallback
      else ifaceNameIsStrongLan link.name)) &&
    link.hasSambaAddress) links

def filterAdvertiseLinkContexts (links : LinkContextSet) : KeptLinks :=
  keepLinkContexts (·.isAdvertiseEligible) links

/-- The selection of both programs: the fallback is for the case that no link is named for the LAN. -/
def smbBindLinkContexts (links : LinkContextSet) (lanOnly : Bool) : KeptLinks :=
  let named := filterSmbBindLinkContexts links lanOnly false
  if lanOnly && named.links.isEmpty then filterSmbBindLinkContexts links lanOnly true else named

def LinkContextSet.containsTopology (set : LinkContextSet) (link : LinkContext) : Bool :=
  set.any (·.topologyEqual link)

def mdnsServiceScopeForLink (links : LinkContextSet) (link : LinkContext) : MdnsServiceScope :=
  if LinkContextSet.containsTopology (smbBindLinkContexts links true).links link then .lan else .wan

/-! ## The service helper's selection -/

/-- The links that a collection finds: no more than there is room for, and with the prefix lengths
that `append_link_ipv6_with_transport` admits. -/
structure LinkDiscovery where
  links : LinkContextSet
  truncated : Bool
  length_le : links.length ≤ maxIfaceContexts
  prefixLen_le : ∀ link ∈ links, ∀ a ∈ link.ipv6, a.prefixLen ≤ 128

/-- The loop over the bits of a netmask, from the highest on. -/
def netmaskPrefixLengthFrom (mask : Ipv4) : (bits : Nat) → (sawZero : Bool) → Nat → Nat
  | 0, _, length => length
  | bit + 1, sawZero, length =>
      if mask.toNat.testBit bit then
        if sawZero then 24 else netmaskPrefixLengthFrom mask bit sawZero (length + 1)
      else netmaskPrefixLengthFrom mask bit true length

def netmaskPrefixLength (mask : Ipv4) : Nat :=
  if mask = 0 then 24 else netmaskPrefixLengthFrom mask 32 false 0

def ipv4PrivateFallbackNetmask (addr : Ipv4) : Ipv4 :=
  let first := ipv4Octet addr 0
  let second := ipv4Octet addr 1
  if first = 10 then 0xff000000
  else if first = 172 ∧ 16 ≤ second ∧ second ≤ 31 then 0xfff00000
  else if first = 192 ∧ second = 168 then 0xffffff00
  else 0

def effectiveIpv4Netmask (addr netmask : Ipv4) : Ipv4 :=
  if netmask ≠ 0 then netmask
  else if ipv4IsLinkLocal addr then 0xffff0000
  else if ipv4IsRfc1918 addr then ipv4PrivateFallbackNetmask addr
  else 0

def effectiveIpv4PrefixLength (addr netmask : Ipv4) : Nat :=
  let effective := effectiveIpv4Netmask addr netmask
  if effective = 0 then 32 else netmaskPrefixLength effective

/-- A bind token, an address with its prefix length. -/
inductive Cidr where
  | ipv4 (addr : Ipv4) (prefixLength : Nat)
  | ipv6 (addr : In6Addr) (prefixLength : Nat)
deriving DecidableEq, Repr

def linkContextIpv4Cidr (a : LinkIpv4Addr) : Cidr :=
  .ipv4 a.addr (effectiveIpv4PrefixLength a.addr a.netmask)

def linkContextIpv6Cidr (a : LinkIpv6Addr) : Option Cidr :=
  if a.prefixLen < 0 || 128 < a.prefixLen then none else some (.ipv6 a.addr a.prefixLen.toNat)

/-- The tokens of one link. -/
def linkBindTokens (link : LinkContext) : Option (List Cidr) := do
  let ipv6 ← (link.ipv6.filter linkIpv6AddrIsSambaBindable).mapM linkContextIpv6Cidr
  return (link.ipv4.filter linkIpv4AddrIsSambaBindable).map linkContextIpv4Cidr ++ ipv6

/-- `print_smb_link_bind_tokens`, which fails without any token. -/
def printSmbLinkBindTokens (links : LinkContextSet) : Option (List Cidr) := do
  let tokens := (← links.mapM linkBindTokens).flatten
  if tokens.isEmpty then none else return tokens

inductive ServiceExit where
  | autoIpUnavailable
  | autoIpProbeFailed
deriving DecidableEq, Repr

/-- The links the helper binds Samba to. -/
def selectSmbBindLinks (found : Option LinkDiscovery) (lanOnly : Bool) :
    Except ServiceExit LinkContextSet :=
  match found with
  | none => .error .autoIpProbeFailed
  | some all =>
      if all.links.isEmpty then .error .autoIpUnavailable
      else if all.truncated then .error .autoIpProbeFailed
      else
        let bind := smbBindLinkContexts all.links lanOnly
        if bind.links.isEmpty then .error .autoIpUnavailable
        else if bind.truncated then .error .autoIpProbeFailed
        else .ok bind.links

def printSmbBindInterfacesWithPolicy (found : Option LinkDiscovery) (lanOnly : Bool) :
    Except ServiceExit (List Cidr) := do
  let links ← selectSmbBindLinks found lanOnly
  (printSmbLinkBindTokens links).elim (.error .autoIpProbeFailed) .ok

end TimeCapsule.Mdns
