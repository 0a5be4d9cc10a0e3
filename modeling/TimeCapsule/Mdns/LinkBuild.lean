import TimeCapsule.Lib.Upsert
import TimeCapsule.Mdns.BindPolicy

/-!
# Building link sets

The rows that the system reports, interface by interface or mixed, are put into one set: a link for each
name, with its addresses in the order of their rows.
-/

namespace TimeCapsule.Mdns

def maxLinkIpv4Addrs : Nat := 8
def maxLinkIpv6Addrs : Nat := 8

/-- `IFNAMSIZ` -/
def ifNameSize : Nat := 16

/-- A name that its buffer holds with its end. -/
abbrev IfName := { name : String // name.utf8ByteSize < ifNameSize }

/-- `struct link_context_set` while it is filled. -/
structure LinkTable where
  links : LinkContextSet
  truncated : Bool
deriving DecidableEq, Repr

namespace LinkContext

/-- A link with nothing but its name. -/
def blank (name : String) : LinkContext :=
  { name := name
    flags := 0
    ifindex := 0
    isWan := false
    mdnsIpv4Transport := false
    mdnsIpv4TransportAddr := 0
    mdnsIpv6Transport := false
    ipv4 := []
    ipv6 := [] }

/-- The flags of a link that is found again. -/
def touch (flags : UInt32) (ctx : LinkContext) : LinkContext :=
  if ctx.flags = 0 then { ctx with flags := flags } else ctx

def hasIpv4 (ctx : LinkContext) (addr : Ipv4) : Bool := ctx.ipv4.any (·.addr == addr)

def hasIpv6 (ctx : LinkContext) (addr : In6Addr) : Bool := ctx.ipv6.any (·.addr == addr)

def addIpv4 (addr netmask : Ipv4) (flags : UInt32) (ctx : LinkContext) : LinkContext :=
  { ctx with
    ipv4 := ctx.ipv4 ++ [⟨addr, netmask⟩]
    mdnsIpv4Transport := true
    flags := if ctx.ipv4.isEmpty then flags else ctx.flags }

def addIpv6 (addr : In6Addr) (prefixLen : Int) (scopeId : UInt32) (transport : Bool)
    (ctx : LinkContext) : LinkContext :=
  { ctx with
    ifindex := if ctx.ifindex = 0 ∧ scopeId ≠ 0 then scopeId else ctx.ifindex
    mdnsIpv6Transport := transport || ctx.mdnsIpv6Transport
    ipv6 := ctx.ipv6 ++
      [⟨addr, scopeId, if 0 ≤ prefixLen ∧ prefixLen ≤ 128 then prefixLen else -1,
        ipv6IsLinkLocalAddr addr⟩] }

/-- The index that a row of the link itself brings. -/
def setIndex (index : UInt32) (ctx : LinkContext) : LinkContext :=
  if ctx.ifindex = 0 then { ctx with ifindex := index } else ctx

end LinkContext

/-- The table, and where the link is unless there is no room for it. -/
def findOrAddLinkContext (out : LinkTable) (name : IfName) (flags : UInt32) : LinkTable × Option Nat :=
  match out.links.findIdx? (fun ctx => decide (ctx.name = name.val)) with
  | some i => ({ out with links := out.links.modify i (·.touch flags) }, some i)
  | none =>
      if maxIfaceContexts ≤ out.links.length then ({ out with truncated := true }, none)
      else
        ({ out with links := out.links ++ [{ LinkContext.blank name.val with flags := flags }] },
          some out.links.length)

/-- What `append_link_ipv4` and `append_link_ipv6_with_transport` have in common: an address that the
link does not have is added while there is room. -/
def appendAddress (out : LinkTable) (name : IfName) (flags : UInt32) (has full : LinkContext → Bool)
    (add : LinkContext → LinkContext) : LinkTable × Bool :=
  let found := findOrAddLinkContext out name flags
  match found.2 with
  | none => (found.1, false)
  | some i =>
      match found.1.links[i]? with
      | none => (found.1, false)
      | some ctx =>
          if has ctx then (found.1, false)
          else if full ctx then ({ found.1 with truncated := true }, false)
          else ({ found.1 with links := found.1.links.modify i add }, true)

def appendLinkIpv4 (out : LinkTable) (name : IfName) (addr netmask : Ipv4) (flags : UInt32) :
    LinkTable × Bool :=
  if !runtimeIpv4IsBindable addr then (out, false)
  else
    appendAddress out name flags (·.hasIpv4 addr) (fun ctx => maxLinkIpv4Addrs ≤ ctx.ipv4.length)
      (·.addIpv4 addr netmask flags)

def appendLinkIpv6WithTransport (out : LinkTable) (name : IfName) (addr : In6Addr) (prefixLen : Int)
    (scopeId flags : UInt32) (transport : Bool) : LinkTable × Bool :=
  if !runtimeIpv6IsUsable addr then (out, false)
  else
    appendAddress out name flags (·.hasIpv6 addr) (fun ctx => maxLinkIpv6Addrs ≤ ctx.ipv6.length)
      (·.addIpv6 addr prefixLen scopeId transport)

/-- The row of the link itself. -/
def addLinkRow (out : LinkTable) (name : IfName) (flags index : UInt32) : LinkTable :=
  let found := findOrAddLinkContext out name flags
  match found.2 with
  | none => found.1
  | some i => { found.1 with links := found.1.links.modify i (·.setIndex index) }

/-- A row of the collection, with the name that it goes by. -/
inductive LinkRow where
  | ipv4 (name : IfName) (addr netmask : Ipv4) (flags : UInt32)
  | ipv6 (name : IfName) (addr : In6Addr) (prefixLen : Int) (scopeId flags : UInt32) (transport : Bool)
  | link (name : IfName) (flags index : UInt32)
deriving DecidableEq

def addRow (out : LinkTable) : LinkRow → LinkTable
  | .ipv4 name addr netmask flags => (appendLinkIpv4 out name addr netmask flags).1
  | .ipv6 name addr prefixLen scopeId flags transport =>
      (appendLinkIpv6WithTransport out name addr prefixLen scopeId flags transport).1
  | .link name flags index => addLinkRow out name flags index

/-- The set of the rows in their order. -/
def buildLinkContexts (rows : List LinkRow) : LinkTable := rows.foldl addRow ⟨[], false⟩

/-! ## Equality -/

namespace LinkContext

/-- `link_context_identity_equal`; of a list, the addresses one after the other. -/
def identityEqual (a b : LinkContext) : Bool :=
  a.name == b.name && a.flags == b.flags && a.ifindex == b.ifindex && a.isWan == b.isWan &&
    a.mdnsIpv4Transport == b.mdnsIpv4Transport && a.mdnsIpv6Transport == b.mdnsIpv6Transport &&
    a.ipv4 == b.ipv4 && a.ipv6 == b.ipv6

end LinkContext

def linkContextSetContains (set : LinkContextSet) (ctx : LinkContext) : Bool :=
  set.any (·.identityEqual ctx)

def linkContextSetsEqual (a b : LinkContextSet) : Bool :=
  a.length == b.length && a.all (linkContextSetContains b)

end TimeCapsule.Mdns
