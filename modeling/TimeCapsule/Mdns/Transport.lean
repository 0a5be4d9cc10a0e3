import TimeCapsule.Lib.Prog
import TimeCapsule.Mdns.Link
import Mathlib.Data.Finset.Basic

/-!
# Multicast sockets

One UDP socket for each address family, and the multicast memberships the kernel holds on it.  The
kernel may refuse any call.  An IPv4 join that is refused for the interface's address is tried again
on an interface of the kernel's choice; memberships are dropped without looking at the result.
-/

namespace TimeCapsule.Mdns

open Lib

/-! ## Kernel -/

inductive Errno where
  | addrNotAvail
  | addrInUse
  | noMem
  | badF
  | other (code : Nat)
deriving DecidableEq, Repr

inductive Family where
  | ipv4
  | ipv6
deriving DecidableEq, Repr

/-- What a membership is keyed by: the interface's IPv4 address (zero for the kernel's choice), or
its IPv6 interface index. -/
abbrev MembershipKey := UInt32

/-- An open socket.  `refused` collects the memberships whose drop the kernel has ever refused. -/
structure KernelSocket where
  memberships : Finset MembershipKey
  refused : Finset MembershipKey

structure NetWorld where
  ipv4 : Option KernelSocket
  ipv6 : Option KernelSocket

namespace NetWorld

def socket (w : NetWorld) : Family → Option KernelSocket
  | .ipv4 => w.ipv4
  | .ipv6 => w.ipv6

def setSocket (w : NetWorld) (family : Family) (s : Option KernelSocket) : NetWorld :=
  match family with
  | .ipv4 => { w with ipv4 := s }
  | .ipv6 => { w with ipv6 := s }

@[simp] theorem socket_setSocket (w : NetWorld) (f g : Family) (s : Option KernelSocket) :
    (w.setSocket f s).socket g = if f = g then s else w.socket g := by
  cases f <;> cases g <;> rfl

end NetWorld

inductive NetOp where
  | openBound (family : Family) (sharedBind : Bool)
  | addMembership (family : Family) (key : MembershipKey)
  | dropMembership (family : Family) (key : MembershipKey)
  | setMulticastIf (family : Family) (key : MembershipKey)
  | close (family : Family)
deriving DecidableEq, Repr

abbrev NetM := Prog NetOp fun _ => Option Errno

/-- The answer is `none` for success, else the error; the fault names the error of a call that could
succeed.  A membership is not held twice, and only a held one can be dropped. -/
def netKernel : Kernel NetOp (fun _ => Option Errno) NetWorld (Option Errno) where
  step op fault w :=
    match op with
    | .openBound family _ =>
        match fault with
        | some e => (some e, w)
        | none => (none, w.setSocket family (some ⟨∅, ∅⟩))
    | .addMembership family key =>
        match w.socket family, fault with
        | none, _ => (some .badF, w)
        | some _, some e => (some e, w)
        | some s, none =>
            if key ∈ s.memberships then (some .addrInUse, w)
            else (none, w.setSocket family (some { s with memberships := insert key s.memberships }))
    | .dropMembership family key =>
        match w.socket family with
        | none => (some .badF, w)
        | some s =>
            if key ∉ s.memberships then (some .addrNotAvail, w)
            else
              match fault with
              | some e => (some e, w.setSocket family (some { s with refused := insert key s.refused }))
              | none =>
                  (none, w.setSocket family (some { s with memberships := s.memberships.erase key }))
    | .setMulticastIf _ _ => (fault, w)
    | .close family => (none, w.setSocket family none)

/-! ## Socket functions -/

/-- `mdns_socket_pair`: which of the two descriptors is open. -/
structure MdnsSocketPair where
  ipv4Fd : Bool
  ipv6Fd : Bool
deriving DecidableEq, Repr

namespace MdnsSocketPair

def fd (pair : MdnsSocketPair) : Family → Bool
  | .ipv4 => pair.ipv4Fd
  | .ipv6 => pair.ipv6Fd

def setFd (pair : MdnsSocketPair) (family : Family) (isOpen : Bool) : MdnsSocketPair :=
  match family with
  | .ipv4 => { pair with ipv4Fd := isOpen }
  | .ipv6 => { pair with ipv6Fd := isOpen }

end MdnsSocketPair

structure MembershipDelta where
  ipv4 : List Ipv4
  ipv6 : List UInt32
deriving DecidableEq, Repr

def joinMdnsMulticastGroup (addr : Ipv4) : NetM (Option Errno) := do
  if addr ≠ 0 then
    match ← Prog.op (.addMembership .ipv4 addr) with
    | none => return none
    | some explicitErrno =>
        match ← Prog.op (.addMembership .ipv4 0) with
        | none => return none
        | some _ => return some explicitErrno
  else
    Prog.op (.addMembership .ipv4 0)

def setOutboundMulticastInterface (addr : Ipv4) : NetM (Option Errno) := do
  if addr ≠ 0 then
    match ← Prog.op (.setMulticastIf .ipv4 addr) with
    | none => return none
    | some explicitErrno =>
        match ← Prog.op (.setMulticastIf .ipv4 0) with
        | none => return none
        | some _ => return some explicitErrno
  else
    Prog.op (.setMulticastIf .ipv4 0)

def joinMdnsMulticastGroup6 (ifindex : UInt32) : NetM (Option Errno) :=
  if ifindex = 0 then return some .addrNotAvail
  else Prog.op (.addMembership .ipv6 ifindex)

def setOutboundMulticastInterface6 (ifindex : UInt32) : NetM (Option Errno) :=
  if ifindex = 0 then return some .addrNotAvail
  else Prog.op (.setMulticastIf .ipv6 ifindex)

def dropMdnsMulticastGroupBestEffort (addr : Ipv4) : NetM Unit := do
  let _ ← Prog.op (.dropMembership .ipv4 addr)

def dropMdnsMulticastGroup6BestEffort (ifindex : UInt32) : NetM Unit := do
  if ifindex = 0 then return ()
  else
    let _ ← Prog.op (.dropMembership .ipv6 ifindex)

def closeMdnsSocket (family : Family) : NetM Unit := do
  let _ ← Prog.op (.close family)

def closeMdnsSocketPair (sockets : MdnsSocketPair) : NetM MdnsSocketPair := do
  if sockets.ipv4Fd then closeMdnsSocket .ipv4
  if sockets.ipv6Fd then closeMdnsSocket .ipv6
  return ⟨false, false⟩

/-! ## Memberships of links -/

/-- Whether a link of the set has its IPv4 membership under `addr`; no set has none. -/
def linkSetHasIpv4Membership (set : Option LinkContextSet) (addr : Ipv4) : Bool :=
  (set.getD []).any fun link => link.hasMdnsIpv4Transport && linkPreferredIpv4Source link == addr

def linkSetHasIpv6Membership (set : Option LinkContextSet) (ifindex : UInt32) : Bool :=
  ifindex != 0 &&
    (set.getD []).any fun link => link.hasMdnsIpv6Transport && link.ifindex == ifindex

/-- Both record functions: a delta that is not kept takes everything, a full one nothing. -/
def recordMdnsMembershipIpv4 (delta : Option MembershipDelta) (addr : Ipv4) :
    Option (Option MembershipDelta) :=
  match delta with
  | none => some none
  | some d =>
      if maxIfaceContexts ≤ d.ipv4.length then none
      else some (some { d with ipv4 := d.ipv4 ++ [addr] })

def recordMdnsMembershipIpv6 (delta : Option MembershipDelta) (ifindex : UInt32) :
    Option (Option MembershipDelta) :=
  match delta with
  | none => some none
  | some d =>
      if maxIfaceContexts ≤ d.ipv6.length then none
      else some (some { d with ipv6 := d.ipv6 ++ [ifindex] })

/-- `join_mdns_multicast_group_for_link4`: the untried addresses in the order of their scores.  The
result is the error, or the link with the address that was joined, or without IPv4 transport. -/
def joinForLink4 (oldLinks : Option LinkContextSet) (link : LinkContext) :
    (tries : Nat) → (untried : List Ipv4) → Option MembershipDelta →
      NetM (Except Errno (LinkContext × Bool × Option MembershipDelta))
  | 0, _, delta =>
      return .ok ({ link with mdnsIpv4Transport := false, mdnsIpv4TransportAddr := 0 }, false, delta)
  | tries + 1, untried, delta =>
      match bestIpv4Source untried with
      | none =>
          return .ok
            ({ link with mdnsIpv4Transport := false, mdnsIpv4TransportAddr := 0 }, false, delta)
      | some addr => do
          if linkSetHasIpv4Membership oldLinks addr then
            return .ok ({ link with mdnsIpv4TransportAddr := addr }, true, delta)
          match ← joinMdnsMulticastGroup addr with
          | some _ => joinForLink4 oldLinks link tries (untried.erase addr) delta
          | none =>
              match recordMdnsMembershipIpv4 delta addr with
              | none =>
                  dropMdnsMulticastGroupBestEffort addr
                  return .error .noMem
              | some delta =>
                  return .ok ({ link with mdnsIpv4TransportAddr := addr }, true, delta)

/-- What preparing the memberships of one family leaves: the error, the links with the transports
that work, and the memberships joined. -/
structure Prepared where
  error : Option Errno
  links : LinkContextSet
  delta : Option MembershipDelta
deriving DecidableEq, Repr

/-- The loop over the links; `first` is the first address joined or kept. -/
def prepareLinks4 (oldLinks : Option LinkContextSet) :
    LinkContextSet → (first : Ipv4) → Option MembershipDelta →
      NetM (Except Errno LinkContextSet × Ipv4 × Option MembershipDelta)
  | [], first, delta => return (.ok [], first, delta)
  | link :: rest, first, delta => do
      if link.hasMdnsIpv4Transport then
        match ← joinForLink4 oldLinks link (link.ipv4.length + 1) (link.ipv4.map (·.addr)) delta with
        | .error e => return (.error e, first, delta)
        | .ok (link, joined, delta) =>
            let first := if joined && first == 0 then linkPreferredIpv4Source link else first
            let (links, first, delta) ← prepareLinks4 oldLinks rest first delta
            return (links.map (link :: ·), first, delta)
      else
        let (links, first, delta) ← prepareLinks4 oldLinks rest first delta
        return (links.map (link :: ·), first, delta)

def prepareMdnsSocket4Memberships (oldLinks : Option LinkContextSet) (newLinks : LinkContextSet)
    (delta : Option MembershipDelta) : NetM Prepared := do
  let (links, first, delta) ← prepareLinks4 oldLinks newLinks 0 delta
  match links with
  | .error e => return ⟨some e, newLinks, delta⟩
  | .ok links =>
      let links := LinkContextSet.compact links
      if first = 0 then return ⟨some .addrNotAvail, links, delta⟩
      let error ← setOutboundMulticastInterface first
      return ⟨error, links, delta⟩

def prepareLinks6 (oldLinks : Option LinkContextSet) :
    LinkContextSet → (first : UInt32) → Option MembershipDelta →
      NetM (Except Errno LinkContextSet × UInt32 × Option MembershipDelta)
  | [], first, delta => return (.ok [], first, delta)
  | link :: rest, first, delta => do
      if link.hasMdnsIpv6Transport then
        if linkSetHasIpv6Membership oldLinks link.ifindex then
          let first := if first = 0 then link.ifindex else first
          let (links, first, delta) ← prepareLinks6 oldLinks rest first delta
          return (links.map (link :: ·), first, delta)
        else
          match ← joinMdnsMulticastGroup6 link.ifindex with
          | some _ =>
              let link := { link with mdnsIpv6Transport := false }
              let (links, first, delta) ← prepareLinks6 oldLinks rest first delta
              return (links.map (link :: ·), first, delta)
          | none =>
              match recordMdnsMembershipIpv6 delta link.ifindex with
              | none =>
                  dropMdnsMulticastGroup6BestEffort link.ifindex
                  return (.error .noMem, first, delta)
              | some delta =>
                  let first := if first = 0 then link.ifindex else first
                  let (links, first, delta) ← prepareLinks6 oldLinks rest first delta
                  return (links.map (link :: ·), first, delta)
      else
        let (links, first, delta) ← prepareLinks6 oldLinks rest first delta
        return (links.map (link :: ·), first, delta)

def prepareMdnsSocket6Memberships (oldLinks : Option LinkContextSet) (newLinks : LinkContextSet)
    (delta : Option MembershipDelta) : NetM Prepared := do
  let (links, first, delta) ← prepareLinks6 oldLinks newLinks 0 delta
  match links with
  | .error e => return ⟨some e, newLinks, delta⟩
  | .ok links =>
      let links := LinkContextSet.compact links
      if first = 0 then return ⟨some .addrNotAvail, links, delta⟩
      let error ← setOutboundMulticastInterface6 first
      return ⟨error, links, delta⟩

/-! ## Opening both sockets -/

/-- The IPv4 half of `open_dualstack_mdns_sockets`: the links with the transports that work, and
whether the socket is open. -/
def openDualstackIpv4 (sharedBind needIpv4 : Bool) (links : LinkContextSet) :
    NetM (LinkContextSet × Bool) := do
  if !needIpv4 then return (links, false)
  else
    match ← Prog.op (.openBound .ipv4 sharedBind) with
    | some _ => return (links.disableMdnsIpv4Transport.compact, false)
    | none =>
        let prepared ← prepareMdnsSocket4Memberships none links none
        match prepared.error with
        | none => return (prepared.links, true)
        | some _ =>
            closeMdnsSocket .ipv4
            return (prepared.links.disableMdnsIpv4Transport.compact, false)

/-- The IPv6 half; when it fails, the caller decides what becomes of the links. -/
def openDualstackIpv6 (sharedBind needIpv6 : Bool) (links : LinkContextSet) :
    NetM (LinkContextSet × Bool) := do
  if !needIpv6 then return (links, false)
  else
    match ← Prog.op (.openBound .ipv6 sharedBind) with
    | some _ => return (links, false)
    | none =>
        let prepared ← prepareMdnsSocket6Memberships none links none
        match prepared.error with
        | none => return (prepared.links, true)
        | some _ =>
            closeMdnsSocket .ipv6
            return (prepared.links, false)

/-- `open_dualstack_mdns_sockets`: whether it succeeded, the sockets, and the links with the
transports that work. -/
def openDualstackMdnsSockets (sharedBind : Bool) (links : LinkContextSet) :
    NetM (Bool × MdnsSocketPair × LinkContextSet) := do
  let needIpv4 := links.needIpv4Socket
  let needIpv6 := links.needIpv6Socket
  if !needIpv4 && !needIpv6 then return (false, ⟨false, false⟩, links)
  else
    let (links, hasIpv4) ← openDualstackIpv4 sharedBind needIpv4 links
    if needIpv4 && !hasIpv4 && !needIpv6 then return (false, ⟨false, false⟩, links)
    else
      let (links, hasIpv6) ← openDualstackIpv6 sharedBind needIpv6 links
      if needIpv6 && !hasIpv6 then
        if hasIpv4 then return (true, ⟨true, false⟩, links.disableMdnsIpv6Transport.compact)
        else return (false, ⟨false, false⟩, links)
      else
        let links := links.compact
        if links.isEmpty then
          let closed ← closeMdnsSocketPair ⟨hasIpv4, hasIpv6⟩
          return (false, closed, links)
        else return (true, ⟨hasIpv4, hasIpv6⟩, links)

/-! ## Changing the links of open sockets -/

/-- The local variables of `prepare_runtime_mdns_sockets_for_links`. -/
structure RuntimeSetup where
  sockets : MdnsSocketPair
  newLinks : LinkContextSet
  needIpv4 : Bool
  needIpv6 : Bool
  openedIpv4 : Bool
  openedIpv6 : Bool
  delta : MembershipDelta
deriving DecidableEq, Repr

/-- Where the function goes after a part of it: to its `fail` label, to a successful return, on. -/
inductive SetupOutcome where
  | fail
  | done
  | next
deriving DecidableEq, Repr

def openIpv4ForLinks (sharedBind : Bool) (s : RuntimeSetup) : NetM (SetupOutcome × RuntimeSetup) := do
  if s.needIpv4 && !s.sockets.ipv4Fd then
    match ← Prog.op (.openBound .ipv4 sharedBind) with
    | some _ =>
        if s.needIpv6 then
          return (.next, { s with
            newLinks := s.newLinks.disableMdnsIpv4Transport.compact
            needIpv4 := false })
        else return (.fail, s)
    | none => return (.next, { s with
        sockets := { s.sockets with ipv4Fd := true }
        openedIpv4 := true })
  else return (.next, s)

def openIpv6ForLinks (sharedBind : Bool) (s : RuntimeSetup) : NetM (SetupOutcome × RuntimeSetup) := do
  if s.needIpv6 && !s.sockets.ipv6Fd then
    match ← Prog.op (.openBound .ipv6 sharedBind) with
    | some _ =>
        if s.needIpv4 && s.sockets.ipv4Fd then
          return (.next, { s with
            newLinks := s.newLinks.disableMdnsIpv6Transport.compact
            needIpv6 := false })
        else return (.fail, s)
    | none => return (.next, { s with
        sockets := { s.sockets with ipv6Fd := true }
        openedIpv6 := true })
  else return (.next, s)

def prepareIpv4ForLinks (oldLinks : LinkContextSet) (s : RuntimeSetup) :
    NetM (SetupOutcome × RuntimeSetup) := do
  if s.needIpv4 then
    let prepared ← prepareMdnsSocket4Memberships (if s.openedIpv4 then none else some oldLinks)
      s.newLinks (some s.delta)
    let s := { s with newLinks := prepared.links, delta := prepared.delta.getD s.delta }
    match prepared.error with
    | none => return (.next, s)
    | some e =>
        if e = .addrNotAvail && s.needIpv6 && s.sockets.ipv6Fd then
          let s := { s with
            newLinks := s.newLinks.disableMdnsIpv4Transport
            needIpv4 := false }
          if s.openedIpv4 && s.sockets.ipv4Fd then
            closeMdnsSocket .ipv4
            return (.next, { s with sockets := { s.sockets with ipv4Fd := false } })
          else return (.next, s)
        else return (.fail, s)
  else return (.next, s)

def prepareIpv6ForLinks (oldLinks : LinkContextSet) (s : RuntimeSetup) :
    NetM (SetupOutcome × RuntimeSetup) := do
  if s.needIpv6 then
    let prepared ← prepareMdnsSocket6Memberships (if s.openedIpv6 then none else some oldLinks)
      s.newLinks (some s.delta)
    let s := { s with newLinks := prepared.links, delta := prepared.delta.getD s.delta }
    match prepared.error with
    | none => return (.next, s)
    | some _ =>
        if s.needIpv4 && s.sockets.ipv4Fd then
          let s := { s with newLinks := s.newLinks.disableMdnsIpv6Transport }
          if s.openedIpv6 && s.sockets.ipv6Fd then
            closeMdnsSocket .ipv6
            return (.done, { s with
              sockets := { s.sockets with ipv6Fd := false }
              newLinks := s.newLinks.compact })
          else return (.done, { s with newLinks := s.newLinks.compact })
        else return (.fail, s)
  else return (.next, s)

def dropAll4 : List Ipv4 → NetM Unit
  | [] => return ()
  | addr :: rest => do
      dropMdnsMulticastGroupBestEffort addr
      dropAll4 rest

def dropAll6 : List UInt32 → NetM Unit
  | [] => return ()
  | ifindex :: rest => do
      dropMdnsMulticastGroup6BestEffort ifindex
      dropAll6 rest

/-- The joined memberships are dropped, the last one first. -/
def rollbackMdnsMembershipDelta (sockets : MdnsSocketPair) (delta : MembershipDelta) :
    NetM Unit := do
  if sockets.ipv4Fd then dropAll4 delta.ipv4.reverse
  if sockets.ipv6Fd then dropAll6 delta.ipv6.reverse

/-- The `fail` label. -/
def failRuntimeSetup (s : RuntimeSetup) : NetM (Bool × MdnsSocketPair × LinkContextSet) := do
  rollbackMdnsMembershipDelta s.sockets s.delta
  let closeIpv4 := s.openedIpv4 && s.sockets.ipv4Fd
  let closeIpv6 := s.openedIpv6 && s.sockets.ipv6Fd
  if closeIpv4 then closeMdnsSocket .ipv4
  if closeIpv6 then closeMdnsSocket .ipv6
  return (false, ⟨s.sockets.ipv4Fd && !closeIpv4, s.sockets.ipv6Fd && !closeIpv6⟩, s.newLinks)

/-- The end of the function: links that kept a transport are served. -/
def finishRuntimeSetup (s : RuntimeSetup) : NetM (Bool × MdnsSocketPair × LinkContextSet) :=
  let links := s.newLinks.compact
  if links.isEmpty then failRuntimeSetup { s with newLinks := links }
  else return (true, s.sockets, links)

/-- One part after the other, as long as none of them leaves. -/
def runSetup (s : RuntimeSetup) :
    List (RuntimeSetup → NetM (SetupOutcome × RuntimeSetup)) →
      NetM (Bool × MdnsSocketPair × LinkContextSet)
  | [] => finishRuntimeSetup s
  | part :: parts => do
      match ← part s with
      | (.fail, s) => failRuntimeSetup s
      | (.done, s) => return (true, s.sockets, s.newLinks)
      | (.next, s) => runSetup s parts

def prepareRuntimeMdnsSocketsForLinks (sharedBind : Bool) (sockets : MdnsSocketPair)
    (oldLinks newLinks : LinkContextSet) : NetM (Bool × MdnsSocketPair × LinkContextSet) :=
  let needIpv4 := newLinks.needIpv4Socket
  let needIpv6 := newLinks.needIpv6Socket
  if !needIpv4 && !needIpv6 then return (false, sockets, newLinks)
  else
    runSetup ⟨sockets, newLinks, needIpv4, needIpv6, false, false, ⟨[], []⟩⟩
      [openIpv4ForLinks sharedBind, openIpv6ForLinks sharedBind, prepareIpv4ForLinks oldLinks,
        prepareIpv6ForLinks oldLinks]

/-- The memberships of old links that no new link has are dropped. -/
def retireRuntimeMdnsMembershipsForMissing (sockets : MdnsSocketPair)
    (oldLinks newLinks : LinkContextSet) : NetM Unit := do
  if sockets.ipv4Fd then
    dropAll4 (((oldLinks.filter (·.hasMdnsIpv4Transport)).map linkPreferredIpv4Source).filter
      fun addr => addr ≠ 0 && !linkSetHasIpv4Membership (some newLinks) addr)
  if sockets.ipv6Fd then
    dropAll6 (((oldLinks.filter (·.hasMdnsIpv6Transport)).map (·.ifindex)).filter
      fun ifindex => !linkSetHasIpv6Membership (some newLinks) ifindex)

def closeUnusedRuntimeMdnsSocketFamilies (sockets : MdnsSocketPair) (links : LinkContextSet) :
    NetM MdnsSocketPair := do
  let closeIpv4 := !links.needIpv4Socket && sockets.ipv4Fd
  let closeIpv6 := !links.needIpv6Socket && sockets.ipv6Fd
  if closeIpv4 then closeMdnsSocket .ipv4
  if closeIpv6 then closeMdnsSocket .ipv6
  return ⟨sockets.ipv4Fd && !closeIpv4, sockets.ipv6Fd && !closeIpv6⟩

end TimeCapsule.Mdns
