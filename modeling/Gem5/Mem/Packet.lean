import Mathlib

/-!
# Packets

The part of `mem/packet.{hh,cc}` and `mem/request.hh` that the memory system reads: the commands with the table of
their attributes, and packets with their flags. A `PacketPtr` is a packet with the number of the object it points to.
-/

namespace Gem5.Mem

/-- `MemCmd::Command`. -/
inductive MemCmd where
  | invalidCmd | readReq | readResp | readRespWithInvalidate | writeReq | writeResp | writeCompleteResp
  | writebackDirty | writebackClean | writeClean | cleanEvict | softPFReq | softPFExReq | hardPFReq
  | softPFResp | hardPFResp | writeLineReq | upgradeReq | scUpgradeReq | upgradeResp | scUpgradeFailReq
  | upgradeFailResp | readExReq | readExResp | readCleanReq | readSharedReq | loadLockedReq | storeCondReq
  | storeCondFailReq | storeCondResp | lockedRMWReadReq | lockedRMWReadResp | lockedRMWWriteReq
  | lockedRMWWriteResp | swapReq | swapResp | memFenceReq | memSyncReq | memSyncResp | memFenceResp
  | cleanSharedReq | cleanSharedResp | cleanInvalidReq | cleanInvalidResp | invalidDestError | badAddressError
  | readError | writeError | functionalReadError | functionalWriteError | printReq | flushReq | invalidateReq
  | invalidateResp | htmReq | htmReqResp | htmAbort | tlbiExtSync
  deriving DecidableEq, Repr

/-- `MemCmd::Attribute`. -/
inductive Attribute where
  | isRead | isWrite | isUpgrade | isInvalidate | isClean | needsWritable | isRequest | isResponse
  | needsResponse | isEviction | isSWPrefetch | isHWPrefetch | isLlsc | isLockedRMW | hasData | isError
  | isPrint | isFlush | fromCache
  deriving DecidableEq, Repr

namespace MemCmd

/-- `commandInfo[cmd].attributes`. -/
def attributes : MemCmd → List Attribute
  | invalidCmd => []
  | readReq => [.isRead, .isRequest, .needsResponse]
  | readResp => [.isRead, .isResponse, .hasData]
  | readRespWithInvalidate => [.isRead, .isResponse, .hasData, .isInvalidate]
  | writeReq => [.isWrite, .needsWritable, .isRequest, .needsResponse, .hasData]
  | writeResp => [.isWrite, .isResponse]
  | writeCompleteResp => [.isWrite, .isResponse]
  | writebackDirty => [.isWrite, .isRequest, .isEviction, .hasData, .fromCache]
  | writebackClean => [.isWrite, .isRequest, .isEviction, .hasData, .fromCache]
  | writeClean => [.isWrite, .isRequest, .hasData, .fromCache]
  | cleanEvict => [.isRequest, .isEviction, .fromCache]
  | softPFReq => [.isRead, .isRequest, .isSWPrefetch, .needsResponse]
  | softPFExReq => [.isRead, .needsWritable, .isInvalidate, .isRequest, .isSWPrefetch, .needsResponse]
  | hardPFReq => [.isRead, .isRequest, .isHWPrefetch, .needsResponse, .fromCache]
  | softPFResp => [.isRead, .isResponse, .isSWPrefetch, .hasData]
  | hardPFResp => [.isRead, .isResponse, .isHWPrefetch, .hasData]
  | writeLineReq => [.isWrite, .needsWritable, .isRequest, .needsResponse, .hasData]
  | upgradeReq => [.isInvalidate, .needsWritable, .isUpgrade, .isRequest, .needsResponse, .fromCache]
  | scUpgradeReq => [.isInvalidate, .needsWritable, .isUpgrade, .isLlsc, .isRequest, .needsResponse, .fromCache]
  | upgradeResp => [.isUpgrade, .isResponse]
  | scUpgradeFailReq => [.isRead, .needsWritable, .isInvalidate, .isLlsc, .isRequest, .needsResponse, .fromCache]
  | upgradeFailResp => [.isRead, .isResponse, .hasData]
  | readExReq => [.isRead, .needsWritable, .isInvalidate, .isRequest, .needsResponse, .fromCache]
  | readExResp => [.isRead, .isResponse, .hasData]
  | readCleanReq => [.isRead, .isRequest, .needsResponse, .fromCache]
  | readSharedReq => [.isRead, .isRequest, .needsResponse, .fromCache]
  | loadLockedReq => [.isRead, .isLlsc, .isRequest, .needsResponse]
  | storeCondReq => [.isWrite, .needsWritable, .isLlsc, .isRequest, .needsResponse, .hasData]
  | storeCondFailReq => [.isWrite, .needsWritable, .isLlsc, .isRequest, .needsResponse, .hasData]
  | storeCondResp => [.isWrite, .isLlsc, .isResponse]
  | lockedRMWReadReq => [.isRead, .isLockedRMW, .needsWritable, .isRequest, .needsResponse]
  | lockedRMWReadResp => [.isRead, .isLockedRMW, .needsWritable, .isResponse, .hasData]
  | lockedRMWWriteReq => [.isWrite, .isLockedRMW, .needsWritable, .isRequest, .needsResponse, .hasData]
  | lockedRMWWriteResp => [.isWrite, .isLockedRMW, .needsWritable, .isResponse]
  | swapReq => [.isRead, .isWrite, .needsWritable, .isRequest, .hasData, .needsResponse]
  | swapResp => [.isRead, .isWrite, .isResponse, .hasData]
  | memFenceReq => [.isRequest, .needsResponse]
  | memSyncReq => [.isRequest, .needsResponse]
  | memSyncResp => [.isResponse]
  | memFenceResp => [.isResponse]
  | cleanSharedReq => [.isRequest, .isClean, .needsResponse, .fromCache]
  | cleanSharedResp => [.isResponse, .isClean]
  | cleanInvalidReq => [.isRequest, .isInvalidate, .isClean, .needsResponse, .fromCache]
  | cleanInvalidResp => [.isResponse, .isInvalidate, .isClean]
  | invalidDestError => [.isResponse, .isError]
  | badAddressError => [.isResponse, .isError]
  | readError => [.isRead, .isResponse, .isError]
  | writeError => [.isWrite, .isResponse, .isError]
  | functionalReadError => [.isRead, .isResponse, .isError]
  | functionalWriteError => [.isWrite, .isResponse, .isError]
  | printReq => [.isRequest, .isPrint]
  | flushReq => [.isRequest, .isFlush, .needsWritable]
  | invalidateReq => [.isInvalidate, .isRequest, .needsWritable, .needsResponse, .fromCache]
  | invalidateResp => [.isInvalidate, .isResponse]
  | htmReq => [.isRead, .isRequest, .needsResponse]
  | htmReqResp => [.isRead, .isResponse]
  | htmAbort => [.isRead, .isRequest]
  | tlbiExtSync => [.isRequest]

/-- `responseCommand()`: `commandInfo[cmd].response`. -/
def responseCommand : MemCmd → MemCmd
  | readReq => readResp
  | writeReq => writeResp
  | softPFReq => softPFResp
  | softPFExReq => softPFResp
  | hardPFReq => hardPFResp
  | writeLineReq => writeResp
  | upgradeReq => upgradeResp
  | scUpgradeReq => upgradeResp
  | scUpgradeFailReq => upgradeFailResp
  | readExReq => readExResp
  | readCleanReq => readResp
  | readSharedReq => readResp
  | loadLockedReq => readResp
  | storeCondReq => storeCondResp
  | storeCondFailReq => storeCondResp
  | lockedRMWReadReq => lockedRMWReadResp
  | lockedRMWWriteReq => lockedRMWWriteResp
  | swapReq => swapResp
  | memFenceReq => memFenceResp
  | memSyncReq => memSyncResp
  | cleanSharedReq => cleanSharedResp
  | cleanInvalidReq => cleanInvalidResp
  | invalidateReq => invalidateResp
  | htmReq => htmReqResp
  | _ => invalidCmd

/-- `testCmdAttrib(attrib)`. -/
def testCmdAttrib (cmd : MemCmd) (attrib : Attribute) : Bool := cmd.attributes.contains attrib

/-! The attributes, by name. -/

def isWrite (cmd : MemCmd) : Bool := cmd.testCmdAttrib .isWrite

def isUpgrade (cmd : MemCmd) : Bool := cmd.testCmdAttrib .isUpgrade

def isRequest (cmd : MemCmd) : Bool := cmd.testCmdAttrib .isRequest

def isResponse (cmd : MemCmd) : Bool := cmd.testCmdAttrib .isResponse

def needsWritable (cmd : MemCmd) : Bool := cmd.testCmdAttrib .needsWritable

def needsResponse (cmd : MemCmd) : Bool := cmd.testCmdAttrib .needsResponse

def isInvalidate (cmd : MemCmd) : Bool := cmd.testCmdAttrib .isInvalidate

def isEviction (cmd : MemCmd) : Bool := cmd.testCmdAttrib .isEviction

def isClean (cmd : MemCmd) : Bool := cmd.testCmdAttrib .isClean

def fromCache (cmd : MemCmd) : Bool := cmd.testCmdAttrib .fromCache

def hasData (cmd : MemCmd) : Bool := cmd.testCmdAttrib .hasData

/-- `isWriteback()`: an eviction that carries data. -/
def isWriteback (cmd : MemCmd) : Bool := cmd.testCmdAttrib .isEviction && cmd.testCmdAttrib .hasData

end MemCmd

/-- The flags of a `Request`, and whether one of its bytes is not enabled. -/
structure Request where
  uncacheable : Bool := false
  strictOrder : Bool := false
  privileged : Bool := false
  llsc : Bool := false
  memSwap : Bool := false
  memSwapCond : Bool := false
  secure : Bool := false
  lockedRmw : Bool := false
  clean : Bool := false
  invalidate : Bool := false
  isMasked : Bool := false
  deriving DecidableEq, Repr

namespace Request

/-- `isCacheMaintenance()`. -/
def isCacheMaintenance (r : Request) : Bool := r.clean || r.invalidate

end Request

/-- An `Addr`. -/
abbrev Addr := BitVec 64

/-- A `Packet`. -/
structure Packet where
  /-- `id`. -/
  id : ℕ
  cmd : MemCmd
  addr : Addr
  isSecure : Bool := false
  size : ℕ := 0
  req : Request := {}
  /-- `EXPRESS_SNOOP`. -/
  isExpressSnoop : Bool := false
  cacheResponding : Bool := false
  responderHadWritable : Bool := false
  hasSharers : Bool := false
  satisfied : Bool := false
  isBlockCached : Bool := false
  deriving DecidableEq, Repr

namespace Packet

/-- `getBlockAddr(blk_size)`. -/
def getBlockAddr (blkSize : ℕ) (p : Packet) : Addr := p.addr &&& ~~~ BitVec.ofNat 64 (blkSize - 1)

/-- `getOffset(blk_size)`. -/
def getOffset (blkSize : ℕ) (p : Packet) : Addr := p.addr &&& BitVec.ofNat 64 (blkSize - 1)

/-- `matchAddr(pkt)`: the same address of the same address space. -/
def matchAddr (p pkt : Packet) : Bool := p.addr == pkt.addr && p.isSecure == pkt.isSecure

/-- `hasRespData()`. -/
def hasRespData (p : Packet) : Bool := p.cmd.responseCommand.hasData

end Packet

end Gem5.Mem
