import Mathlib.Data.List.Basic

/-!
# Links

The network interfaces the responder advertises on, with the transports that work on each of them.
IPv4 addresses are numbers in host byte order; address zero stands for no address.
-/

namespace TimeCapsule.Mdns

def maxIfaceContexts : Nat := 16

abbrev Ipv4 := UInt32

abbrev In6Addr := Vector UInt8 16

structure LinkIpv4Addr where
  addr : Ipv4
  netmask : Ipv4
deriving DecidableEq, Repr

structure LinkIpv6Addr where
  addr : In6Addr
  scopeId : UInt32
  prefixLen : Int
  linkLocal : Bool
deriving DecidableEq, Repr

structure LinkContext where
  name : String
  flags : UInt32
  ifindex : UInt32
  isWan : Bool
  mdnsIpv4Transport : Bool
  mdnsIpv4TransportAddr : Ipv4
  mdnsIpv6Transport : Bool
  ipv4 : List LinkIpv4Addr
  ipv6 : List LinkIpv6Addr
deriving DecidableEq, Repr

abbrev LinkContextSet := List LinkContext

/-! ## Address kinds -/

def ipv4Octet (addr : Ipv4) (n : Nat) : Nat := addr.toNat >>> (8 * (3 - n)) % 256

def ipv4IsRfc1918 (addr : Ipv4) : Bool :=
  let first := ipv4Octet addr 0
  let second := ipv4Octet addr 1
  first == 10 || (first == 172 && 16 ≤ second && second ≤ 31) || (first == 192 && second == 168)

def ipv4IsLinkLocal (addr : Ipv4) : Bool :=
  ipv4Octet addr 0 == 169 && ipv4Octet addr 1 == 254

def runtimeIpv4IsBindable (addr : Ipv4) : Bool :=
  let first := ipv4Octet addr 0
  !(addr == 0 || addr == 0xffffffff || first == 0 || first == 127 || 224 ≤ first)

def ipv6IsUnspecifiedAddr (addr : In6Addr) : Bool := addr.all (· == 0)

def ipv6IsLoopbackAddr (addr : In6Addr) : Bool := addr.toList == List.replicate 15 0 ++ [1]

def ipv6IsMulticastAddr (addr : In6Addr) : Bool := addr[0] == 0xff

def ipv6IsLinkLocalAddr (addr : In6Addr) : Bool := addr[0] == 0xfe && addr[1] &&& 0xc0 == 0x80

def ipv6IsUlaAddr (addr : In6Addr) : Bool := addr[0] &&& 0xfe == 0xfc

/-- Link-local addresses without the interface number that the kernel keeps in them. -/
def ipv6CanonicalizeScopedAddress (addr : In6Addr) : In6Addr :=
  if ipv6IsLinkLocalAddr addr then (addr.set 2 0).set 3 0 else addr

def runtimeIpv6IsUsable (addr : In6Addr) : Bool :=
  !ipv6IsUnspecifiedAddr addr && !ipv6IsLoopbackAddr addr && !ipv6IsMulticastAddr addr

def runtimeIpv6IsBindable (addr : In6Addr) : Bool := runtimeIpv6IsUsable addr

def linkIpv6AddrIsSambaBindable (addr : LinkIpv6Addr) : Bool :=
  0 ≤ addr.prefixLen && runtimeIpv6IsBindable addr.addr

def linkIpv4AddrIsSambaBindable (addr : LinkIpv4Addr) : Bool :=
  runtimeIpv4IsBindable addr.addr && !ipv4IsLinkLocal addr.addr

/-! ## Transports of a link -/

namespace LinkContext

def hasMdnsIpv4Transport (link : LinkContext) : Bool :=
  link.mdnsIpv4Transport && !link.ipv4.isEmpty

def hasMdnsIpv6Transport (link : LinkContext) : Bool :=
  link.mdnsIpv6Transport && link.ifindex != 0 && !link.ipv6.isEmpty

def hasAnyMdnsTransport (link : LinkContext) : Bool :=
  link.hasMdnsIpv4Transport || link.hasMdnsIpv6Transport

end LinkContext

/-- Private addresses first, then public ones, link-local ones last. -/
def linkIpv4SourceScore (addr : Ipv4) : Nat :=
  if ipv4IsRfc1918 addr then 0 else if !ipv4IsLinkLocal addr then 100 else 200

/-- The first address of the lowest score. -/
def bestIpv4Source : List Ipv4 → Option Ipv4
  | [] => none
  | a :: rest =>
      match bestIpv4Source rest with
      | none => some a
      | some b => if linkIpv4SourceScore b < linkIpv4SourceScore a then some b else some a

/-- The address the link sends from: the one its membership was joined with, or the best. -/
def linkPreferredIpv4Source (link : LinkContext) : Ipv4 :=
  if link.ipv4.isEmpty then 0
  else if link.mdnsIpv4TransportAddr ≠ 0 then link.mdnsIpv4TransportAddr
  else (bestIpv4Source (link.ipv4.map (·.addr))).getD 0

namespace LinkContextSet

def needIpv4Socket (set : LinkContextSet) : Bool := set.any (·.hasMdnsIpv4Transport)

def needIpv6Socket (set : LinkContextSet) : Bool := set.any (·.hasMdnsIpv6Transport)

def disableMdnsIpv4Transport (set : LinkContextSet) : LinkContextSet :=
  set.map fun link => { link with mdnsIpv4Transport := false, mdnsIpv4TransportAddr := 0 }

def disableMdnsIpv6Transport (set : LinkContextSet) : LinkContextSet :=
  set.map fun link => { link with mdnsIpv6Transport := false }

/-- `compact_link_contexts_for_mdns_transport` -/
def compact (set : LinkContextSet) : LinkContextSet := set.filter (·.hasAnyMdnsTransport)

end LinkContextSet

theorem bestIpv4Source_eq_none {addrs : List Ipv4} : bestIpv4Source addrs = none ↔ addrs = [] := by
  cases addrs with
  | nil => exact ⟨fun _ => rfl, fun _ => rfl⟩
  | cons a rest =>
    unfold bestIpv4Source
    split <;> simp
    split <;> simp

theorem bestIpv4Source_mem {addrs : List Ipv4} {a : Ipv4} (h : bestIpv4Source addrs = some a) :
    a ∈ addrs := by
  induction addrs with
  | nil => cases h
  | cons b rest ih =>
    unfold bestIpv4Source at h
    split at h
    · simp_all
    · next c hc =>
      split at h
      · obtain rfl := Option.some.inj h
        exact List.mem_cons_of_mem _ (ih hc)
      · simp_all

end TimeCapsule.Mdns
