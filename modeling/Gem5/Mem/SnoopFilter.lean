import Gem5.Lib.Except
import Gem5.Mem.Packet

/-!
# The snoop filter

`SnoopFilter` of `mem/snoop_filter.{hh,cc}`: for each line, which of the snooping ports above have asked for it
(`requested`) and which have it (`holder`). `cachedLocations` is the `unordered_map`, as a finite map from the address of
a line to its item; the lowest bit of the address says that the line is secure.

The iterator `reqLookupResult.it` is the address of the line it points to, or `none` for `end()`. A port is the number it
has in the crossbar. Statistics and the latency, which is the same for all lookups, are left out.
-/

namespace Gem5.Mem

open Lib

/-- `SnoopMask`. -/
abbrev SnoopMask := BitVec 256

/-- `SnoopItem`. -/
structure SnoopItem where
  requested : SnoopMask := 0
  holder : SnoopMask := 0
  deriving DecidableEq, Repr

/-- The parameters of a snoop filter, and which of the ports of the crossbar are snooping. -/
structure SnoopParams where
  linesize : ℕ
  maxEntryCount : ℕ
  snooping : List Bool
  /-- The lowest bit of the address of a line is free. -/
  even : linesize % 2 = 0
  pos : 0 < linesize
  /-- `fatal_if(id > SNOOP_MASK_SIZE)`. -/
  fits : snooping.count true ≤ 256

/-- The ways a snoop filter can stop the simulator. -/
inductive SnoopFault where
  /-- `panic_if("double request")`. -/
  | doubleRequest
  /-- `panic_if("Need to hold the value!")`. -/
  | needToHold
  /-- `panic_if("requestor is not a holder")`. -/
  | notHolder
  /-- `panic_if("snoop filter exceeded capacity")`. -/
  | capacity
  /-- `panic_if("does not have the line")`. -/
  | noLine
  /-- `panic_if("missing the original request")`. -/
  | missingOriginal
  /-- `panic_if("missing request bit")`. -/
  | missingRequest
  /-- An `assert` about the packet. -/
  | packet
  /-- The `assert` that `finishRequest` follows `lookupRequest`. -/
  | wrongLine
  /-- The `assert` that an item has a bit. -/
  | nullItem
  /-- `reqLookupResult.it` points to an entry that was erased. -/
  | dangling
  deriving DecidableEq, Repr

namespace SnoopParams

variable (c : SnoopParams)

/-- `isSnooping()` of a port. -/
def isSnooping (port : ℕ) : Bool := c.snooping[port]?.getD false

/-- `localResponsePortIds[port]`. -/
def localId (port : ℕ) : ℕ := (c.snooping.take port).count true

/-- `portToMask(port)`. -/
def portToMask (port : ℕ) : SnoopMask := if c.isSnooping port then BitVec.twoPow 256 (c.localId port) else 0

/-- `maskToPortList(port_mask)`. -/
def maskToPortList (portMask : SnoopMask) : List ℕ :=
  (List.range c.snooping.length).filter fun p => c.isSnooping p && portMask &&& c.portToMask p != 0

/-- The address of a line, with `LineSecure`. -/
def lineAddr (pkt : Packet) : Addr := pkt.getBlockAddr c.linesize ||| if pkt.isSecure then 1 else 0

end SnoopParams

/-- `SnoopFilter`. -/
structure SnoopFilter where
  cachedLocations : Finmap fun _ : Addr => SnoopItem
  /-- `reqLookupResult`. -/
  it : Option Addr
  retryItem : SnoopItem
  deriving DecidableEq

namespace SnoopFilter

variable (c : SnoopParams) (f : SnoopFilter)

def init : SnoopFilter := { cachedLocations := ∅, it := none, retryItem := {} }

def setItem (line : Addr) (item : SnoopItem) : SnoopFilter := { f with cachedLocations := f.cachedLocations.insert line item }

/-- `eraseIfNullEntry(sf_it)`. -/
def eraseIfNullEntry (line : Addr) : SnoopFilter :=
  match f.cachedLocations.lookup line with
  | some item => if item.requested ||| item.holder = 0 then { f with cachedLocations := f.cachedLocations.erase line } else f
  | none => f

/-- What `lookupRequest` does to the item of the line, if it allocates. -/
def requestItem (pkt : Packet) (reqPort : SnoopMask) (item : SnoopItem) : Except SnoopFault SnoopItem :=
  if pkt.cmd.needsResponse then
    if !pkt.cacheResponding then do
      -- max one request per address per port
      ensure (item.requested &&& reqPort == 0) .doubleRequest
      .ok { item with requested := item.requested ||| reqPort }
    else do
      ensure (item.holder &&& reqPort != 0) .needToHold
      .ok item
  else do
    ensure pkt.cmd.isEviction .packet
    ensure (item.holder &&& reqPort != 0) .notHolder
    .ok (if pkt.isBlockCached then item else { item with holder := item.holder &&& ~~~ reqPort })

/-- `lookupRequest(cpkt, cpu_side_port)`: the ports to snoop, and the filter. -/
def lookupRequest (pkt : Packet) (port : ℕ) : Except SnoopFault (List ℕ × SnoopFilter) :=
  let allocate := !pkt.req.uncacheable && c.isSnooping port && pkt.cmd.fromCache
  let line := c.lineAddr pkt
  let reqPort := c.portToMask port
  let hit := f.cachedLocations.lookup line
  if hit.isNone && !allocate then .ok ([], { f with it := none })
  else
    let item := hit.getD {}
    let interested := item.holder ||| item.requested
    let f := { f.setItem line item with it := some line, retryItem := item }
    if !allocate then .ok (c.maskToPortList (interested &&& ~~~ reqPort), f)
    else do
      let item ← requestItem pkt reqPort item
      .ok (c.maskToPortList (interested &&& ~~~ reqPort), f.setItem line item)

/-- `finishRequest(will_retry, addr, is_secure)`. -/
def finishRequest (willRetry : Bool) (pkt : Packet) : Except SnoopFault SnoopFilter :=
  match f.it with
  | none => .ok f
  | some line => do
    ensure (f.cachedLocations.lookup line).isSome .dangling
    ensure (line == c.lineAddr pkt) .wrongLine
    .ok ((if willRetry then f.setItem line f.retryItem else f).eraseIfNullEntry line)

/-- `lookupSnoop(cpkt)`: the ports to snoop, and the filter. -/
def lookupSnoop (pkt : Packet) : Except SnoopFault (List ℕ × SnoopFilter) := do
  ensure pkt.cmd.isRequest .packet
  let line := c.lineAddr pkt
  match f.cachedLocations.lookup line with
  | none =>
    ensure (f.cachedLocations.keys.card < c.maxEntryCount) .capacity
    .ok ([], f)
  | some item =>
    let interested := item.holder ||| item.requested
    ensure (pkt.cmd.isWriteback || pkt.req.uncacheable || pkt.cmd.isInvalidate == pkt.cmd.needsWritable ||
      pkt.req.isCacheMaintenance) .packet
    let f :=
      if pkt.cmd.isInvalidate && item.requested == 0 then (f.setItem line { item with holder := 0 }).eraseIfNullEntry line
      else f
    .ok (c.maskToPortList interested, f)

/-- `updateSnoopResponse(cpkt, rsp_port, req_port)`. -/
def updateSnoopResponse (pkt : Packet) (rspPort reqPort : ℕ) : Except SnoopFault SnoopFilter := do
  ensure pkt.cmd.isResponse .packet
  ensure pkt.cacheResponding .packet
  if pkt.req.uncacheable || !c.isSnooping reqPort then .ok f
  else
    let line := c.lineAddr pkt
    let rspMask := c.portToMask rspPort
    let reqMask := c.portToMask reqPort
    let item := (f.cachedLocations.lookup line).getD {}
    ensure (item.holder &&& rspMask != 0) .noLine
    ensure (item.requested &&& reqMask != 0) .missingOriginal
    let item := if pkt.hasSharers then item else { item with holder := 0 }
    ensure (!pkt.cmd.isWriteback) .packet
    let item := { requested := item.requested &&& ~~~ reqMask, holder := item.holder ||| reqMask : SnoopItem }
    ensure (item.requested ||| item.holder != 0) .nullItem
    .ok (f.setItem line item)

/-- `updateSnoopForward(cpkt, rsp_port, req_port)`. -/
def updateSnoopForward (pkt : Packet) : Except SnoopFault SnoopFilter := do
  ensure pkt.cmd.isResponse .packet
  ensure pkt.cacheResponding .packet
  let line := c.lineAddr pkt
  match f.cachedLocations.lookup line with
  | none => .ok f
  | some item =>
    if pkt.hasSharers then .ok f else .ok ((f.setItem line { item with holder := 0 }).eraseIfNullEntry line)

/-- `updateResponse(cpkt, cpu_side_port)`. -/
def updateResponse (pkt : Packet) (port : ℕ) : Except SnoopFault SnoopFilter := do
  ensure pkt.cmd.isResponse .packet
  if pkt.req.uncacheable || !c.isSnooping port then .ok f
  else
    let line := c.lineAddr pkt
    match f.cachedLocations.lookup line with
    | none => .ok f
    | some item =>
      let responseMask := c.portToMask port
      ensure (item.requested &&& responseMask != 0) .missingRequest
      let item := { item with requested := item.requested &&& ~~~ responseMask }
      if pkt.req.isCacheMaintenance then
        -- a clean response does not change the holders, unless it is invalidating
        let item := if pkt.cmd.isInvalidate then { item with holder := item.holder &&& ~~~ responseMask } else item
        .ok ((f.setItem line item).eraseIfNullEntry line)
      else
        let item := { item with holder := item.holder ||| responseMask }
        ensure (item.holder ||| item.requested != 0) .nullItem
        .ok (f.setItem line item)

end SnoopFilter

/-! ### Runs -/

/-- A snoop filter in use: with the requests that were accepted and need a response that was not seen yet, and the one
that was looked up and is not finished; each with its port. -/
structure SnoopRun where
  filter : SnoopFilter
  outstanding : List (ℕ × Packet)
  pending : Option (ℕ × Packet)
  deriving DecidableEq

/-- The calls of `CoherentXBar`. A response comes with the request it answers. -/
inductive SnoopCall where
  | lookupRequest (port : ℕ) (pkt : Packet)
  | finishRequest (willRetry : Bool)
  | lookupSnoop (pkt : Packet)
  | updateResponse (pkt : Packet) (port : ℕ) (request : Packet)
  | updateSnoopResponse (pkt : Packet) (rspPort reqPort : ℕ) (request : Packet)
  | updateSnoopForward (pkt : Packet)

namespace SnoopRun

variable (c : SnoopParams) (s : SnoopRun)

def init : SnoopRun := { filter := .init, outstanding := [], pending := none }

/-- The packets are for the same line. -/
def SameLine (p q : Packet) : Prop := p.getBlockAddr c.linesize = q.getBlockAddr c.linesize ∧ p.isSecure = q.isSecure

/-- A cacheable request of a snooping port that needs a response and that no cache has answered yet. -/
def Tracked (x : ℕ × Packet) : Prop :=
  x.2.cmd.needsResponse = true ∧ x.2.cacheResponding = false ∧ x.2.req.uncacheable = false ∧ c.isSnooping x.1 = true

/-- The packet is not for the line of the request that is not finished. -/
def Elsewhere (pkt : Packet) : Prop := ∀ x, s.pending = some x → ¬ SameLine c pkt x.2

/-- The packet answers a request of the port. -/
def Answers (pkt : Packet) (port : ℕ) (request : Packet) : Prop :=
  (port, request) ∈ s.outstanding ∧ SameLine c pkt request ∧ pkt.req.uncacheable = request.req.uncacheable

def Allowed : SnoopCall → Prop
  | .lookupRequest port pkt => s.pending = none ∧
      (pkt.req.uncacheable = false → c.isSnooping port = true → pkt.cmd.fromCache = true) ∧
      (Tracked c (port, pkt) → ∀ x ∈ s.outstanding, Tracked c x → ¬ (x.1 = port ∧ SameLine c pkt x.2))
  | .finishRequest _ => s.pending ≠ none
  | .lookupSnoop pkt => s.Elsewhere c pkt
  | .updateResponse pkt port request => s.Elsewhere c pkt ∧ s.Answers c pkt port request
  | .updateSnoopResponse pkt _ reqPort request => s.Elsewhere c pkt ∧ s.Answers c pkt reqPort request
  | .updateSnoopForward pkt => s.Elsewhere c pkt

def call : SnoopCall → Except SnoopFault SnoopRun
  | .lookupRequest port pkt => do
    let (_, filter) ← s.filter.lookupRequest c pkt port
    .ok { s with filter, pending := some (port, pkt) }
  | .finishRequest willRetry =>
    match s.pending with
    | none => .ok s
    | some x => do
      let filter ← s.filter.finishRequest c willRetry x.2
      let accepted := !willRetry && x.2.cmd.needsResponse && !x.2.cacheResponding
      .ok { filter, outstanding := if accepted then x :: s.outstanding else s.outstanding, pending := none }
  | .lookupSnoop pkt => do
    let (_, filter) ← s.filter.lookupSnoop c pkt
    .ok { s with filter }
  | .updateResponse pkt port request => do
    let filter ← s.filter.updateResponse c pkt port
    .ok { s with filter, outstanding := s.outstanding.erase (port, request) }
  | .updateSnoopResponse pkt rspPort reqPort request => do
    let filter ← s.filter.updateSnoopResponse c pkt rspPort reqPort
    .ok { s with filter, outstanding := s.outstanding.erase (reqPort, request) }
  | .updateSnoopForward pkt => do
    let filter ← s.filter.updateSnoopForward c pkt
    .ok { s with filter }

inductive Reachable : SnoopRun → Prop where
  | init : Reachable init
  | call {s s' : SnoopRun} {k : SnoopCall} : Reachable s → s.Allowed c k → s.call c k = .ok s' → Reachable s'

end SnoopRun

end Gem5.Mem
