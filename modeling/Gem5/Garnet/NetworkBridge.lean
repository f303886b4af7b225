import Gem5.Garnet.Flit
import Gem5.Sim.Clock

/-!
# Bridges

A `NetworkBridge` sits between a link and a router or an interface of another clock or of another width
(`mem/ruby/network/garnet/NetworkBridge.{hh,cc}`, with `serialize` and `deserialize` of `flit.cc` and
`Credit.cc`). Between two widths it cuts each wide flit into narrow ones, or collects narrow ones into a wide
one, and it tells its co-bridge, which carries the credits the other way, how many narrow flits went with each
wide one. The `float` quotients of the source are exact here.

`lenBuffer`, `sizeSent`, `flitsSent` and `extraCredit` have an entry for each virtual channel; the four entries
of one are a `BridgeVc`. `Bridges` are a bridge and its `coBridge`, since a call on one of them changes both.
-/

namespace Gem5.Garnet

open Lib Sim List

/-- The ways a bridge can stop the simulator. -/
inductive BridgeFault where
  /-- `assert(target_width != cur_width)`. -/
  | sameWidth
  /-- `assert(extraCredit[vc].front())`, or there is no front. -/
  | extraCredit
  /-- Deserializing: `assert(flitPossible < 2)`. -/
  | manyFlits
  /-- Serializing: `assert(flitPossible > 0)`. -/
  | noFlits
  /-- `flit::serialize`: `assert(m_width > bWidth)`. -/
  | width
  /-- `assert(new_id < new_size)`. -/
  | newId
  deriving DecidableEq, Repr

/-! ### What a bridge carries -/

namespace Flit

/-- The flit that `serialize` and `deserialize` make: the constructor, `set_enqueue_time` and `set_src_delay`. -/
def resized (newId newSize bWidth : ℕ) (f : Flit) : Flit :=
  { new f.packetId newId f.vc f.vnet f.route newSize f.msgPtr f.msgSize bWidth f.time f.srcDelay with
    enqueueTime := f.enqueueTime }

/-- `flit::serialize(ser_id, parts, bWidth)`; `parts` is not read. -/
def serialize (serId bWidth : ℕ) (f : Flit) : Except BridgeFault Flit := do
  ensure (decide (bWidth < f.width)) .width
  let ratio := divCeil f.width bWidth
  let newId := f.id * ratio + serId
  let newSize := divCeil f.msgSize bWidth
  ensure (decide (newId < newSize)) .newId
  .ok (f.resized newId newSize bWidth)

/-- `flit::deserialize(des_id, num_flits, bWidth)`; `des_id` and `num_flits` are not read. -/
def deserialize (bWidth : ℕ) (f : Flit) : Except BridgeFault Flit := do
  let ratio := divCeil bWidth f.width
  let newId := divCeil (f.id + 1) ratio - 1
  let newSize := divCeil f.msgSize bWidth
  ensure (decide (newId < newSize)) .newId
  .ok (f.resized newId newSize bWidth)

lemma serialize_eq (serId : ℕ) {bWidth : ℕ} {f : Flit} (hw : bWidth < f.width)
    (hid : f.id * divCeil f.width bWidth + serId < divCeil f.msgSize bWidth) :
    f.serialize serId bWidth =
      .ok (f.resized (f.id * divCeil f.width bWidth + serId) (divCeil f.msgSize bWidth) bWidth) := by
  unfold serialize
  rw [ensure_bind, if_pos (by simpa using hw), ensure_bind, if_pos (by simpa using hid)]

lemma deserialize_eq {bWidth : ℕ} {f : Flit}
    (hid : divCeil (f.id + 1) (divCeil bWidth f.width) - 1 < divCeil f.msgSize bWidth) :
    f.deserialize bWidth =
      .ok (f.resized (divCeil (f.id + 1) (divCeil bWidth f.width) - 1) (divCeil f.msgSize bWidth) bWidth) := by
  unfold deserialize
  rw [ensure_bind, if_pos (by simpa using hid)]

end Flit

namespace Credit

/-- `Credit::serialize(ser_id, parts, bWidth)`: the last part is the free signal. -/
def serialize (serId : ℕ) (parts : ℤ) (c : Credit) : Credit :=
  { vc := c.vc, isFreeSignal := decide ((serId : ℤ) + 1 = parts) && c.isFreeSignal, time := c.time }

/-- `Credit::deserialize(des_id, num_flits, bWidth)`. -/
def deserialize (c : Credit) : Credit :=
  if c.isFreeSignal then { vc := c.vc, isFreeSignal := true, time := c.time }
  else { vc := c.vc, isFreeSignal := false, time := c.time }

end Credit

/-- A `flit*`: a flit, or a credit, whose type is `CREDIT_`. -/
inductive AnyFlit where
  | flit (f : Flit)
  | credit (c : Credit)
  deriving DecidableEq, Repr

namespace AnyFlit

/-- `get_vc()`. -/
def vc : AnyFlit → ℕ
  | flit f => f.vc
  | credit c => c.vc

/-- `get_type() == CREDIT_`. -/
def isCredit : AnyFlit → Bool
  | flit _ => false
  | credit _ => true

instance : Timed AnyFlit where
  time
    | flit f => f.time
    | credit c => c.time
  setTime t
    | flit f => flit { f with time := t }
    | credit c => credit { c with time := t }

/-- The virtual call `serialize(ser_id, parts, bWidth)`. -/
def serialize (serId : ℕ) (parts : ℤ) (bWidth : ℕ) : AnyFlit → Except BridgeFault AnyFlit
  | flit f => do .ok (flit (← f.serialize serId bWidth))
  | credit c => .ok (credit (c.serialize serId parts))

/-- The virtual call `deserialize(des_id, num_flits, bWidth)`. -/
def deserialize (bWidth : ℕ) : AnyFlit → Except BridgeFault AnyFlit
  | flit f => do .ok (flit (← f.deserialize bWidth))
  | credit c => .ok (credit c.deserialize)

end AnyFlit

/-! ### The bridge -/

/-- `ceil((float)a / (float)b)`. -/
def ceilDiv (a b : ℤ) : ℤ := -(-a / b)

/-- Entry `vc` of `lenBuffer`, `sizeSent`, `flitsSent` and `extraCredit`. -/
structure BridgeVc where
  /-- Credits that came since the last one was sent on. -/
  lenBuffer : ℤ := 0
  /-- Size of the part of the current packet that was sent on. -/
  sizeSent : ℤ := 0
  /-- Number of narrow flits of that part. -/
  flitsSent : ℤ := 0
  /-- A queue: how many narrow credits go with each wide one. -/
  extraCredit : List ℤ := []
  deriving DecidableEq, Repr

/-- `enums::CDCType`. -/
inductive CDCType where
  | linkObject | objectLink
  deriving DecidableEq, Repr

/-- What does not change after `initBridge`. -/
structure BridgeParams where
  mType : CDCType
  bitWidth : ℕ
  /-- `nLink->bitWidth`. -/
  linkBitWidth : ℕ
  enCdc : Bool
  enSerDes : Bool
  cdcLatency : ℕ
  serDesLatency : ℕ
  /-- Clock period of `link_consumer->getObject()`. -/
  consumerPeriod : ℕ
  deriving DecidableEq, Repr

/-- A `NetworkBridge`. -/
structure NetworkBridge where
  vcs : ℕ → BridgeVc := fun _ => {}
  lastScheduledAt : ℕ := 0
  linkBuffer : List AnyFlit := []
  /-- The ticks `link_consumer->scheduleEventAbsolute` was called with. -/
  consumerTicks : List ℕ := []

/-- A bridge and its `coBridge`. -/
structure Bridges where
  own : NetworkBridge
  co : NetworkBridge

namespace NetworkBridge

/-- Write the entries of a virtual channel. -/
def setVc (vc : ℕ) (r : BridgeVc) (b : NetworkBridge) : NetworkBridge := { b with vcs := Function.update b.vcs vc r }

/-- `neutralize(vc, eCredit)`. -/
def neutralize (vc : ℕ) (eCredit : ℤ) (b : NetworkBridge) : NetworkBridge :=
  b.setVc vc { b.vcs vc with extraCredit := (b.vcs vc).extraCredit ++ [eCredit] }

@[simp] lemma setVc_vcs (vc : ℕ) (r : BridgeVc) (b : NetworkBridge) :
    (b.setVc vc r).vcs = Function.update b.vcs vc r := rfl

@[simp] lemma setVc_linkBuffer (vc : ℕ) (r : BridgeVc) (b : NetworkBridge) :
    (b.setVc vc r).linkBuffer = b.linkBuffer := rfl

@[simp] lemma neutralize_linkBuffer (vc : ℕ) (e : ℤ) (b : NetworkBridge) :
    (b.neutralize vc e).linkBuffer = b.linkBuffer := rfl

lemma neutralize_vcs (vc : ℕ) (e : ℤ) (b : NetworkBridge) : (b.neutralize vc e).vcs =
      Function.update b.vcs vc { b.vcs vc with extraCredit := (b.vcs vc).extraCredit ++ [e] } := rfl

end NetworkBridge

namespace BridgeParams

variable (c : BridgeParams)

/-- `target_width`. -/
def targetWidth : ℕ :=
  match c.mType with
  | .linkObject => c.bitWidth
  | .objectLink => c.linkBitWidth

/-- `cur_width`. -/
def curWidth : ℕ :=
  match c.mType with
  | .linkObject => c.linkBitWidth
  | .objectLink => c.bitWidth

/-- `scheduleFlit(t_flit, latency)` at tick `now`. -/
def scheduleFlit (now : ℕ) (t : AnyFlit) (latency : ℕ) (b : NetworkBridge) : NetworkBridge :=
  let totLatency := if c.enCdc then latency + c.cdcLatency else latency
  let sendTime := clockEdge c.consumerPeriod now totLatency
  let nextAvailTick := b.lastScheduledAt + c.consumerPeriod
  let sendTime := max nextAvailTick sendTime
  { b with
    lastScheduledAt := sendTime
    linkBuffer := b.linkBuffer ++ [Timed.setTime sendTime t]
    consumerTicks := b.consumerTicks ++ [sendTime] }

/-- `flitisizeAndSend`, deserializing: the counts after `t_flit`, `num_flits` and `flitPossible`. -/
def deserializable (t : AnyFlit) (r : BridgeVc) : Except BridgeFault (BridgeVc × ℤ × ℤ) :=
  match t with
  | .credit _ =>
    let r := { r with lenBuffer := r.lenBuffer + 1 }
    match r.extraCredit with
    | [] => .error .extraCredit
    | e :: rest => do
      ensure (decide (e ≠ 0)) .extraCredit
      if r.lenBuffer = e then .ok ({ r with extraCredit := rest, lenBuffer := 0 }, 0, 1) else .ok (r, 0, 0)
  | .flit f =>
    if f.isTail then do
      -- at the end of the packet, send whatever is available
      let sizeAvail := (f.msgSize : ℤ) - r.sizeSent
      let flitPossible := ceilDiv sizeAvail c.targetWidth
      ensure (decide (flitPossible < 2)) .manyFlits
      let numFlits := (f.id : ℤ) + 1 - r.flitsSent
      .ok ({ r with flitsSent := 0, sizeSent := 0 }, numFlits, flitPossible)
    else do
      let sizeAvail := ((f.id : ℤ) + 1) * c.curWidth - r.sizeSent
      let flitPossible := sizeAvail / c.targetWidth
      ensure (decide (flitPossible < 2)) .manyFlits
      let numFlits := (f.id : ℤ) + 1 - r.flitsSent
      if flitPossible ≠ 0 then
        .ok ({ r with sizeSent := r.sizeSent + c.targetWidth, flitsSent := (f.id : ℤ) + 1 }, numFlits, flitPossible)
      else .ok (r, numFlits, flitPossible)

/-- `flitisizeAndSend`, serializing: the counts after `t_flit` and `flitPossible`. -/
def serializable (t : AnyFlit) (r : BridgeVc) : Except BridgeFault (BridgeVc × ℤ) :=
  match t with
  | .credit _ =>
    match r.extraCredit with
    | [] => .error .extraCredit
    | e :: rest => do
      ensure (decide (e ≠ 0)) .extraCredit
      .ok ({ r with extraCredit := rest }, e)
  | .flit f =>
    if f.isTail then
      let sizeAvail := (f.msgSize : ℤ) - r.sizeSent
      let flitPossible := ceilDiv sizeAvail c.targetWidth
      .ok ({ r with sizeSent := 0, flitsSent := 0 }, flitPossible)
    else
      let sizeAvail := ((f.id : ℤ) + 1) * c.curWidth - r.sizeSent
      let flitPossible := sizeAvail / c.targetWidth
      if flitPossible ≠ 0 then
        .ok ({ r with sizeSent := r.sizeSent + flitPossible * c.targetWidth, flitsSent := r.flitsSent + flitPossible },
          flitPossible)
      else .ok (r, flitPossible)

/-- `flitisizeAndSend(t_flit)` at tick `now`. -/
def flitisizeAndSend (now : ℕ) (t : AnyFlit) (s : Bridges) : Except BridgeFault Bridges :=
  if c.enSerDes then do
    ensure (decide (c.targetWidth ≠ c.curWidth)) .sameWidth
    if c.curWidth < c.targetWidth then do
      let (r, numFlits, flitPossible) ← c.deserializable t (s.own.vcs t.vc)
      if flitPossible ≠ 0 then do
        let fl ← t.deserialize c.targetWidth
        let co := if t.isCredit then s.co else s.co.neutralize t.vc numFlits
        .ok ⟨c.scheduleFlit now fl c.serDesLatency (s.own.setVc t.vc { r with lenBuffer := 0 }), co⟩
      else .ok { s with own := s.own.setVc t.vc r }
    else do
      let (r, flitPossible) ← c.serializable t (s.own.vcs t.vc)
      ensure (decide (0 < flitPossible)) .noFlits
      let own := s.own.setVc t.vc r
      let own ← (range flitPossible.toNat).foldlM (fun own i => do
        let fl ← t.serialize i flitPossible c.targetWidth
        .ok (c.scheduleFlit now fl c.serDesLatency own)) own
      .ok ⟨own, if t.isCredit then s.co else s.co.neutralize t.vc flitPossible⟩
  else
    -- only the clock domain is crossed
    .ok { s with own := c.scheduleFlit now t 0 s.own }

/-- `wakeup()` at tick `now`, with `link_srcQueue` given: the bridges, what is left in the queue and whether the
bridge is woken again one cycle later. -/
def wakeup (now : ℕ) (srcQueue : List AnyFlit) (s : Bridges) : Except BridgeFault (Bridges × List AnyFlit × Bool) :=
  match srcQueue with
  | [] => .ok (s, [], false)
  | t :: rest =>
    if Timed.time t ≤ now then do
      let s ← c.flitisizeAndSend now t s
      .ok (s, rest, !rest.isEmpty)
    else .ok (s, srcQueue, true)

/-! ### What a call does -/

/-- Schedule each of `ts`. -/
def scheduleAll (now : ℕ) (ts : List AnyFlit) (b : NetworkBridge) : NetworkBridge :=
  ts.foldl (fun b t => c.scheduleFlit now t c.serDesLatency b) b

variable {c} (now : ℕ) {t : AnyFlit} {s : Bridges}

lemma scheduleAll_vcs (ts : List AnyFlit) (b : NetworkBridge) : (c.scheduleAll now ts b).vcs = b.vcs := by
  induction ts generalizing b with
  | nil => rfl
  | cons t ts ih => exact ih (c.scheduleFlit now t c.serDesLatency b)

lemma scheduleAll_linkBuffer {γ : Type} {φ : AnyFlit → γ} (hφ : ∀ n t, φ (Timed.setTime n t) = φ t)
    (ts : List AnyFlit) (b : NetworkBridge) :
    ∃ outs, (c.scheduleAll now ts b).linkBuffer = b.linkBuffer ++ outs ∧ outs.map φ = ts.map φ := by
  induction ts generalizing b with
  | nil => exact ⟨[], (append_nil _).symm, rfl⟩
  | cons t ts ih =>
    obtain ⟨outs, h1, h2⟩ := ih (c.scheduleFlit now t c.serDesLatency b)
    refine ⟨_ :: outs, h1.trans (append_assoc ..), ?_⟩
    rw [map_cons, map_cons, hφ, h2]

section

variable {r : BridgeVc} (hen : c.enSerDes = true)
include hen

lemma flitisizeAndSend_serialize {n : ℤ} {part : ℕ → AnyFlit} (hw : c.targetWidth < c.curWidth)
    (hcount : c.serializable t (s.own.vcs t.vc) = .ok (r, n)) (hn : 0 < n)
    (hpart : ∀ i < n.toNat, t.serialize i n c.targetWidth = .ok (part i)) :
    c.flitisizeAndSend now t s = .ok ⟨c.scheduleAll now ((range n.toNat).map part) (s.own.setVc t.vc r),
      if t.isCredit then s.co else s.co.neutralize t.vc n⟩ := by
  have hloop : ∀ (l : List ℕ) (own : NetworkBridge), (∀ i ∈ l, i < n.toNat) → l.foldlM (fun own i => do
        let fl ← t.serialize i n c.targetWidth
        .ok (c.scheduleFlit now fl c.serDesLatency own)) own =
      (.ok (c.scheduleAll now (l.map part) own) : Except BridgeFault NetworkBridge) := by
    intro l
    induction l with
    | nil =>
      intro own _
      rfl
    | cons i l ih =>
      intro own hl
      rw [foldlM_cons, hpart i (hl i (mem_cons_self ..))]
      exact ih _ fun j hj => hl j (mem_cons_of_mem _ hj)
  unfold flitisizeAndSend
  rw [if_pos hen, ensure_bind, if_pos (by simpa using hw.ne), if_neg (by omega), hcount]
  refine bind_eq_ok.mpr ⟨_, rfl, ?_⟩
  dsimp only
  rw [ensure_bind, if_pos (by simpa using hn), hloop _ _ fun i hi => mem_range.mp hi]
  rfl

lemma flitisizeAndSend_deserialize {m n : ℤ} {fl : AnyFlit} (hw : c.curWidth < c.targetWidth)
    (hcount : c.deserializable t (s.own.vcs t.vc) = .ok (r, m, n)) (hn : n ≠ 0)
    (hfl : t.deserialize c.targetWidth = .ok fl) :
    c.flitisizeAndSend now t s = .ok ⟨c.scheduleAll now [fl] (s.own.setVc t.vc { r with lenBuffer := 0 }),
      if t.isCredit then s.co else s.co.neutralize t.vc m⟩ := by
  unfold flitisizeAndSend
  rw [if_pos hen, ensure_bind, if_pos (by simpa using hw.ne'), if_pos hw, hcount]
  refine bind_eq_ok.mpr ⟨_, rfl, ?_⟩
  dsimp only
  rw [if_pos hn, hfl]
  rfl

lemma flitisizeAndSend_wait {m : ℤ} (hw : c.curWidth < c.targetWidth)
    (hcount : c.deserializable t (s.own.vcs t.vc) = .ok (r, m, 0)) :
    c.flitisizeAndSend now t s = .ok ⟨s.own.setVc t.vc r, s.co⟩ := by
  unfold flitisizeAndSend
  rw [if_pos hen, ensure_bind, if_pos (by simpa using hw.ne'), if_pos hw, hcount]
  rfl

end

end BridgeParams

end Gem5.Garnet
