import AtorProtocol.Lib.AssocMap
import AtorProtocol.Policies.AddrPolicy
import Mathlib.Data.List.DropRight

/-!
# Client address maps

`addressmap` rewrites the addresses of client requests, and `virtaddress_reversemap` remembers
which virtual addresses were given out for an address: `src/feature/client/addressmap.c`.  An
operation that reads a missing string or freed memory, or fails an assertion, has no result.

* `addressmapRegister`, `addressmapRegisterVirtualAddress` — new mappings.
* `Sweep` — the loops over the map that take entries out of it.
* `Op`, `step` — what can happen to the maps.
-/

namespace Ator.Addressmap

open Policies (TorAddr torAddrCompareMasked torAddrFamily afInet6)

/-- A hostname or an address, as a C string. -/
abbrev Address := List Char

/-- `tor_addr_parse` and `tor_addr_to_str`, the latter with what it decorates. -/
structure AddrText where
  torAddrParse : Address → Option TorAddr
  torAddrToStr : TorAddr → Bool → Address

/-- Text with hostnames only. -/
def namesOnly : AddrText := ⟨fun _ => none, fun _ _ => []⟩

inductive EntrySource where
  | controller
  | automap
  | torrc
  | trackexit
  | dns
  | none
deriving DecidableEq

structure Entry where
  newAddress : Option Address
  expires : ℤ
  source : EntrySource
  srcWildcard : Bool
  dstWildcard : Bool
  numResolveFailures : ℕ
deriving DecidableEq

/-- `tor_malloc_zero(sizeof(addressmap_entry_t))` -/
def Entry.zero : Entry := ⟨none, 0, .controller, false, false, 0⟩

/-- The fields of a mapping that is registered.  Two, for a virtual address, becomes one. -/
def Entry.registered (newAddress : Address) (expires : ℤ) (source : EntrySource)
    (wildcardAddr wildcardNewAddr : Bool) : Entry :=
  ⟨some newAddress, if expires = 2 then 1 else expires, source, wildcardAddr, wildcardNewAddr, 0⟩

/-- The types of address that can be asked for: `RESOLVED_TYPE_*`. -/
inductive ResolvedType where
  | hostname
  | ipv4
  | ipv6
deriving DecidableEq

structure VirtaddressEntry where
  ipv4Address : Option Address
  ipv6Address : Option Address
  hostnameAddress : Option Address
deriving DecidableEq

namespace VirtaddressEntry

def zero : VirtaddressEntry := ⟨none, none, none⟩

/-- The string that `addrp` points at. -/
def get (vent : VirtaddressEntry) : ResolvedType → Option Address
  | .ipv4 => vent.ipv4Address
  | .ipv6 => vent.ipv6Address
  | .hostname => vent.hostnameAddress

def set (vent : VirtaddressEntry) (type : ResolvedType) (address : Address) : VirtaddressEntry :=
  match type with
  | .ipv4 => { vent with ipv4Address := some address }
  | .ipv6 => { vent with ipv6Address := some address }
  | .hostname => { vent with hostnameAddress := some address }

end VirtaddressEntry

structure VirtualAddrConf where
  addr : TorAddr
  bits : ℕ

/-- The static variables.  An entry of the reverse map may point at freed memory: `none`. -/
structure State where
  addressmap : AssocMap Address Entry
  virtaddressReversemap : AssocMap Address (Option VirtaddressEntry)
  virtaddrConfIpv4 : VirtualAddrConf
  virtaddrConfIpv6 : VirtualAddrConf

def addressmapInit (ipv4 ipv6 : VirtualAddrConf) : State := ⟨∅, ∅, ipv4, ipv6⟩

/-- `strmap_set(addressmap, address, ent)` -/
def State.setEntry (s : State) (address : Address) (ent : Entry) : State :=
  { s with addressmap := s.addressmap.set address ent }

/-- `strmap_set(virtaddress_reversemap, new_address, ve)` -/
def State.setVirtaddress (s : State) (newAddress : Address) (ve : Option VirtaddressEntry) :
    State :=
  { s with virtaddressReversemap := s.virtaddressReversemap.set newAddress ve }

variable {ν : Type*} (text : AddrText) (s : State)

/-! ## Strings -/

def torStrlower (address : Address) : Address := address.map Char.toLower

/-- `!strcasecmp(s1, s2)` -/
def sameCase (s1 s2 : Address) : Bool := torStrlower s1 = torStrlower s2

/-- `!strcmpend(s1, s2)` -/
def endsIn (s1 s2 : Address) : Bool := s2.isSuffixOf s1

/-- `!strcasecmpend(s1, s2)` -/
def caseEndsIn (s1 s2 : Address) : Bool := endsIn (torStrlower s1) (torStrlower s2)

def addressIsInVirtualRange (address : Address) : Bool :=
  if caseEndsIn address ".virtual".toList then true
  else
    match text.torAddrParse address with
    | none => false
    | some addr =>
      let conf := if torAddrFamily addr = afInet6 then s.virtaddrConfIpv6 else s.virtaddrConfIpv4
      torAddrCompareMasked addr conf.addr conf.bits = 0

/-! ## Removal -/

/-- `if (!strcmp(address, field)) tor_free(field);` -/
def freeIfSame (address : Address) (field : Option Address) : Option (Option Address) :=
  field.map fun string => if address = string then none else some string

/-- What `addressmap_virtaddress_remove` does to the entry it finds. -/
def virtaddressEntryRemove (address : Address) (ve : VirtaddressEntry) :
    Option VirtaddressEntry := do
  let ipv4Address ← freeIfSame address ve.ipv4Address
  let ipv6Address ← freeIfSame address ve.ipv6Address
  let hostnameAddress ← freeIfSame address ve.hostnameAddress
  return ⟨ipv4Address, ipv6Address, hostnameAddress⟩

/-- `addressmap_virtaddress_remove`, of a key that may have been freed: `none`. -/
def addressmapVirtaddressRemove (address : Option Address) (ent : Entry) : Option State :=
  match ent.newAddress with
  | none => some s
  | some newAddress =>
    if addressIsInVirtualRange text s newAddress then
      match s.virtaddressReversemap.get newAddress with
      | none => some s
      | some ve => do
          let ve ← virtaddressEntryRemove (← address) (← ve)
          if ve = .zero then
            return { s with virtaddressReversemap := s.virtaddressReversemap.erase newAddress }
          else return s.setVirtaddress newAddress (some ve)
    else some s

/-- An entry leaves the map, and `addressmap_ent_remove` cleans up after it.  Where the map frees
its key first, the key is no longer there to be compared with. -/
def entRemove (keyFreed : Bool) (address : Address) (ent : Entry) : Option State :=
  (addressmapVirtaddressRemove text s (if keyFreed then none else some address) ent).map fun s =>
    { s with addressmap := s.addressmap.erase address }

/-! ## Registration -/

/-- What a registration maps the address to: nothing, where it only removes a mapping. -/
def registrationTarget (address : Address) (newAddress : Option Address)
    (wildcardAddr wildcardNewAddr : Bool) : Option Address :=
  newAddress.filter fun newAddress =>
    !(sameCase address newAddress && wildcardAddr == wildcardNewAddr)

/-- `addressmap_register`: `new_address` may be missing. -/
def addressmapRegister (address : Address) (newAddress : Option Address) (expires : ℤ)
    (source : EntrySource) (wildcardAddr wildcardNewAddr : Bool) : Option State :=
  if wildcardNewAddr && !wildcardAddr then none
  else
    let ent := s.addressmap.get address
    match registrationTarget address newAddress wildcardAddr wildcardNewAddr with
    | none =>
      match ent with
      | none => some s
      | some ent => entRemove text s false address ent
    | some newAddress =>
      let newEnt := Entry.registered newAddress expires source wildcardAddr wildcardNewAddr
      let register (s : State) : State := s.setEntry address newEnt
      match ent with
      | none => some (register s)
      | some ent =>
        match ent.newAddress with
        | none => some (register s)
        | some oldAddress =>
          if expires > 1 then some s
          else if addressIsInVirtualRange text s oldAddress ∧ expires ≠ 2 then
            (addressmapVirtaddressRemove text s (some address) ent).map register
          else some (register s)

/-- The random addresses and names of one request, in the order they are drawn. -/
structure Draws where
  addrs : List TorAddr
  names : List Bytes

/-- `tor_addr_to_ipv4h(&addr) & 0xff` -/
def lowByte : TorAddr → ℕ
  | .inet a => a.toNat % 256
  | _ => 0

/-- The name made of ten random bytes. -/
def virtualName (randBytes : Bytes) : Address := base32Encode randBytes ++ ".virtual".toList

/-- `addressmap_get_virtual_address`.  Names are drawn until one is new, so that there is no
result as long as none is; of the addresses, no more than a thousand are tried. -/
def addressmapGetVirtualAddress (type : ResolvedType) (draws : Draws) : Option (Option Address) :=
  let unused (buf : Address) : Bool := (s.addressmap.get buf).isNone
  match type with
  | .hostname => ((draws.names.map virtualName).find? unused).map some
  | _ =>
    let usable (addr : TorAddr) : Bool :=
      !(type = .ipv4 && (lowByte addr = 0 || lowByte addr = 0xff)) &&
        unused (text.torAddrToStr addr true) && unused (text.torAddrToStr addr false)
    some (((draws.addrs.take 1000).find? usable).map fun addr => text.torAddrToStr addr true)

/-- The virtual address that is already there, if `addressmap` agrees. -/
def addressmapKnownVirtualAddress (vent : VirtaddressEntry) (type : ResolvedType)
    (newAddress : Address) : Option Address :=
  (vent.get type).filter fun addr =>
    match (s.addressmap.get addr).bind Entry.newAddress with
    | some target => sameCase newAddress target
    | none => false

/-- `addressmap_register_virtual_address`, with the address it returns, if any. -/
def addressmapRegisterVirtualAddress (type : ResolvedType) (newAddress : Address) (draws : Draws) :
    Option (State × Option Address) := do
  let found := s.virtaddressReversemap.get newAddress
  let vent ← found.getD (some .zero)
  match addressmapKnownVirtualAddress s vent type newAddress with
  | some addr => return (s, some addr)
  | none =>
    match ← addressmapGetVirtualAddress text s type draws with
    | none =>
      -- `tor_free(vent)`, which the map may still point at
      return (if found.isSome then s.setVirtaddress newAddress none else s, none)
    | some addr =>
      let s := s.setVirtaddress newAddress (some (vent.set type addr))
      let s ← addressmapRegister text s addr (some newAddress) 2 .automap false false
      return (s, some addr)

/-! ## Sweeps -/

/-- What `addressmap_clear_excluded_trackexithosts` reads: the sets of nodes that are not empty, the
node list and `TrackHostExits`. -/
structure TrackExitRules (ν : Type*) where
  exitNodes : Option (ν → Bool)
  excludeExitNodesUnion : Option (ν → Bool)
  nodeGetByNickname : Address → Option ν
  hostnameInTrackHostExits : Address → Bool

/-- What `addressmap_clear_invalid_automaps` reads. -/
structure AutomapRules where
  automapHostsOnResolve : Bool
  automapHostsSuffixes : Option (List Address)

/-- The loops over `addressmap` that remove entries. -/
inductive Sweep (ν : Type*) where
  | getMappings (minExpires maxExpires : ℤ)
  | clearTrackexithostMappings (exitname : Address)
  | clearExcludedTrackexithosts (options : TrackExitRules ν)
  | clearInvalidAutomaps (options : AutomapRules)

/-- The nickname in `….nickname.exit` -/
def exitNodename (target : Address) : Address :=
  (target.take (target.length - 5)).rtakeWhile (· ≠ '.')

def addressmapAddressShouldAutomap (address : Address) (options : AutomapRules) : Bool :=
  (options.automapHostsSuffixes.getD []).any fun suffix =>
    suffix = ".".toList || caseEndsIn address suffix

/-- Whether an entry has to go. -/
def Sweep.drops (address : Address) (ent : Entry) : Sweep ν → Option Bool
  | .getMappings minExpires maxExpires =>
    some (ent.expires ≥ minExpires && ent.expires ≤ maxExpires)
  | .clearTrackexithostMappings exitname =>
    let suffix := torStrlower ('.' :: exitname ++ ".exit".toList)
    if ent.source = .trackexit then ent.newAddress.map fun target => endsIn target suffix
    else some false
  | .clearExcludedTrackexithosts options =>
    if options.exitNodes.isNone && options.excludeExitNodesUnion.isNone then some false
    else
      match ent.newAddress with
      | none => some false
      | some target =>
        if !endsIn target ".exit".toList then some false
        else if ent.source ≠ .trackexit then some false
        else if target.length < 6 then some false
        else
          match options.nodeGetByNickname (exitNodename target) with
          | none => some true
          | some node => some (options.exitNodes.any (fun allow => !allow node) ||
              options.excludeExitNodesUnion.any (fun exclude => exclude node) ||
              !options.hostnameInTrackHostExits address)
  | .clearInvalidAutomaps options =>
    if ent.source ≠ .automap then some false
    else if !options.automapHostsOnResolve || options.automapHostsSuffixes.isNone then some true
    else if !addressmapAddressShouldAutomap address options then some true
    else ent.newAddress.map fun target => !addressIsInVirtualRange text s target

/-- `strmap_iter_next_rmv` frees the key of the entry it takes out, and `addressmap_get_mappings`
calls it first. -/
def Sweep.keyFreed : Sweep ν → Bool
  | .getMappings _ _ => true
  | _ => false

/-- One turn of a loop. -/
def Sweep.visit (sweep : Sweep ν) (address : Address) : Option State :=
  match s.addressmap.get address with
  | none => some s
  | some ent => do
      if ← sweep.drops text s address ent then entRemove text s sweep.keyFreed address ent
      else some s

/-! ## Operations -/

/-- What can happen to the maps. -/
inductive Op (ν : Type*) where
  | register (address : Address) (newAddress : Option Address) (expires : ℤ)
      (source : EntrySource) (wildcardAddr wildcardNewAddr : Bool)
  | registerVirtualAddress (type : ResolvedType) (newAddress : Address) (draws : Draws)
  | sweep (sweep : Sweep ν) (order : List Address)
  | haveMapping (address : Address) (updateExpiry now : ℤ)
  | dnsIncrFailures (address : Address) (now : ℤ)
  | dnsClearFailures (address : Address)
  | setVirtualAddrNetwork (ipv4 ipv6 : VirtualAddrConf)

def maxDnsEntryAge : ℤ := 30 * 60

def shrtMax : ℕ := 32767

def addressmapHaveMapping (address : Address) (updateExpiry now : ℤ) : State × Bool :=
  match s.addressmap.get (torStrlower address) with
  | none => (s, false)
  | some ent =>
    if updateExpiry ≠ 0 ∧ ent.source = .trackexit then
      let ent := { ent with expires := now + updateExpiry }
      (s.setEntry (torStrlower address) ent, true)
    else (s, true)

def clientDnsIncrFailures (address : Address) (now : ℤ) : State × ℕ :=
  let ent := (s.addressmap.get address).getD { Entry.zero with expires := now + maxDnsEntryAge }
  let failures := if ent.numResolveFailures < shrtMax then ent.numResolveFailures + 1
    else ent.numResolveFailures
  (s.setEntry address { ent with numResolveFailures := failures }, failures)

def clientDnsClearFailures (address : Address) : State :=
  { s with addressmap := s.addressmap.modify address fun ent =>
      { ent with numResolveFailures := 0 } }

/-- The maps after an operation.  A sweep visits the keys in the order the table has them. -/
def step : Op ν → Option State
  | .register address newAddress expires source wildcardAddr wildcardNewAddr =>
    addressmapRegister text s address newAddress expires source wildcardAddr wildcardNewAddr
  | .registerVirtualAddress type newAddress draws =>
    (addressmapRegisterVirtualAddress text s type newAddress draws).map Prod.fst
  | .sweep sweep order => order.foldlM (sweep.visit text) s
  | .haveMapping address updateExpiry now =>
    some (addressmapHaveMapping s address updateExpiry now).1
  | .dnsIncrFailures address now => some (clientDnsIncrFailures s address now).1
  | .dnsClearFailures address => some (clientDnsClearFailures s address)
  | .setVirtualAddrNetwork ipv4 ipv6 =>
    some { s with virtaddrConfIpv4 := ipv4, virtaddrConfIpv6 := ipv6 }

end Ator.Addressmap
