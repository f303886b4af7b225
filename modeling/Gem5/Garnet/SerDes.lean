import Gem5.Garnet.NetworkBridge
import Gem5.Lib.Lanes
import Gem5.Lib.Slice

/-!
# Serializing and deserializing

Packets that pass a bridge from flits of one width to flits of another, where the wide width `k * w` is a
multiple of the narrow one `w`. Of a packet of size `m`, the first `i` flits of width `a` hold `i * a` of it, and
the bridge has then sent `i * a / b` flits of width `b`, or all of them when the tail has come: this is
`VcPacket.sent`, and it is the same for both directions. `Passes` says what a call does to the entries of the
virtual channel; the code is shown to do that, and the rest is about `Passes`.
-/

namespace Gem5.Garnet

open Lib Sim Ruby List AnyFlit BridgeParams BridgeVc Nat

/-! ### Quotients -/

lemma lt_divCeil {i m b : ℕ} (hb : 0 < b) : i < divCeil m b ↔ i * b < m := by
  unfold divCeil
  rw [lt_iff_add_one_le, le_div_iff_mul_le hb, add_mul]
  omega

lemma divCeil_mul {k w : ℕ} (hw : 0 < w) : divCeil (k * w) w = k := by
  unfold divCeil
  rw [Nat.add_sub_assoc (by omega), Nat.add_comm, Nat.add_mul_div_right _ _ hw, Nat.div_eq_of_lt (by omega), Nat.zero_add]

lemma divCeil_succ {j k : ℕ} (hk : 0 < k) : divCeil (j + 1) k = j / k + 1 := by
  unfold divCeil
  rw [show j + 1 + k - 1 = j + k by omega, add_div_right _ hk]

lemma ceilDiv_natCast {m b : ℕ} (hb : 0 < b) : ceilDiv m b = divCeil m b := by
  have hb' : (0 : ℤ) < b := by exact_mod_cast hb
  unfold ceilDiv divCeil
  have h1 := Int.mul_ediv_add_emod (-(m : ℤ)) b
  have h2 := Int.emod_nonneg (-(m : ℤ)) hb'.ne'
  have h3 := Int.emod_lt_of_pos (-(m : ℤ)) hb'
  symm
  rw [Int.natCast_ediv, cast_sub (by omega)]
  push_cast
  rw [Int.ediv_eq_iff_of_pos hb', Int.neg_mul, Int.mul_comm]
  grind

lemma ceilDiv_sub_mul {b : ℕ} (hb : 0 < b) (a c : ℤ) : ceilDiv (a - c * b) b = ceilDiv a b - c := by
  unfold ceilDiv
  rw [show -(a - c * (b : ℤ)) = -a + c * b by ring, Int.add_mul_ediv_right _ _ (by exact_mod_cast hb.ne')]
  ring

/-! ### Packets -/

/-- What of a flit is fixed by its packet, its place in it and its width. -/
structure Header where
  packetId : ℕ
  id : ℕ
  vc : ℕ
  vnet : ℕ
  route : RouteInfo
  size : ℕ
  type : FlitType
  msgPtr : Message
  msgSize : ℕ
  width : ℕ
  deriving DecidableEq

def Flit.header (f : Flit) : Header :=
  { packetId := f.packetId, id := f.id, vc := f.vc, vnet := f.vnet, route := f.route, size := f.size, type := f.type
    msgPtr := f.msgPtr, msgSize := f.msgSize, width := f.width }

/-- What is carried, but for the times. -/
inductive Content where
  | flit (h : Header)
  | credit (vc : ℕ) (isFreeSignal : Bool)
  deriving DecidableEq

namespace Content

def vc : Content → ℕ
  | flit h => h.vc
  | credit v _ => v

/-- A tail flit, or a credit that is a free signal. -/
def isLast : Content → Bool
  | flit h => h.type == .tail || h.type == .headTail
  | credit _ free => free

end Content

/-- The content of a flit or a credit. -/
def AnyFlit.content : AnyFlit → Content
  | .flit f => .flit f.header
  | .credit c => .credit c.vc c.isFreeSignal

lemma AnyFlit.content_setTime (n : ℕ) (t : AnyFlit) : (Timed.setTime n t : AnyFlit).content = t.content := by
  cases t <;> rfl

lemma AnyFlit.vc_content (t : AnyFlit) : t.content.vc = t.vc := by cases t <;> rfl

/-- A packet on a virtual channel: what its flits have in common, whatever their width. -/
structure VcPacket where
  packetId : ℕ
  vc : ℕ
  vnet : ℕ
  route : RouteInfo
  msgPtr : Message
  msgSize : ℕ
  deriving DecidableEq

namespace VcPacket

variable (p : VcPacket)

/-- The number of its flits of width `b`. -/
def numFlits (b : ℕ) : ℕ := divCeil p.msgSize b

/-- Its flit `i` of width `b`. -/
def flit (b i : ℕ) : Content :=
  .flit { packetId := p.packetId, id := i, vc := p.vc, vnet := p.vnet, route := p.route, size := p.numFlits b
          type := flitType i (p.numFlits b), msgPtr := p.msgPtr, msgSize := p.msgSize, width := b }

/-- Its flits of width `b`. -/
def flits (b : ℕ) : List Content := slice (p.flit b) 0 (p.numFlits b)

/-- The number of flits of width `b` that are sent when `i` flits of width `a` have come. -/
def sent (a b i : ℕ) : ℕ := if i < p.numFlits a then i * a / b else p.numFlits b

variable {p} {a b i : ℕ}

lemma vc_flit : (p.flit b i).vc = p.vc := rfl

lemma vc_of_mem_flits {x : Content} (h : x ∈ p.flits b) : x.vc = p.vc := by
  obtain ⟨_, _, _, rfl⟩ := mem_slice.mp h
  rfl

lemma lt_numFlits (hb : 0 < b) : i < p.numFlits b ↔ i * b < p.msgSize := lt_divCeil hb

lemma isLast_flit (h : i < p.numFlits b) : (p.flit b i).isLast = decide (i + 1 = p.numFlits b) := by
  have hcases : (flitType i (p.numFlits b) = .tail ∨ flitType i (p.numFlits b) = .headTail) ↔ i + 1 = p.numFlits b := by
    unfold flitType
    split_ifs <;> simp <;> omega
  rw [Bool.eq_iff_iff, decide_eq_true_iff, ← hcases]
  simp [Content.isLast, flit]

lemma sent_zero (hp : 1 ≤ p.msgSize) (ha : 0 < a) : p.sent a b 0 = 0 := by
  rw [sent, if_pos ((lt_numFlits ha).mpr (by omega)), Nat.zero_mul, Nat.zero_div]

lemma sent_le_numFlits (ha : 0 < a) (hb : 0 < b) (i : ℕ) : p.sent a b i ≤ p.numFlits b := by
  unfold sent
  split_ifs with h
  · -- what has come of the packet is not more than there is
    rw [lt_numFlits ha] at h
    refine Nat.le_of_not_lt fun hlt => ?_
    have h1 := Nat.div_mul_le_self (i * a) b
    have h2 := (not_congr (lt_numFlits (p := p) hb)).mp (lt_irrefl _)
    have h3 := mul_le_mul_right b hlt.le
    omega
  · exact le_rfl

lemma sent_le (ha : 0 < a) (hb : 0 < b) (i : ℕ) : p.sent a b i ≤ p.sent a b (i + 1) := by
  by_cases h' : i + 1 < p.numFlits a
  · rw [sent, sent, if_pos h', if_pos (by omega)]
    exact Nat.div_le_div_right (Nat.mul_le_mul_right _ (by omega))
  grind [sent, sent_le_numFlits]

lemma sent_succ_tail (h : ¬ i + 1 < p.numFlits a) : p.sent a b (i + 1) = p.numFlits b := if_neg h

end VcPacket

/-! ### One call -/

/-- The entries of a virtual channel when `q` whole wide flits of the current packet have been passed on. -/
def BridgeVc.after (w k q : ℕ) (e : List ℤ) : BridgeVc :=
  { lenBuffer := 0, sizeSent := q * (k * w), flitsSent := q * k, extraCredit := e }

/-- The number of whole wide flits, after flit `i` of width `a`, that `BridgeVc.after` then has. -/
def VcPacket.next (p : VcPacket) (w k a i : ℕ) : ℕ := if i + 1 < p.numFlits a then (i + 1) * a / (k * w) else 0

/-- A call with flit `x` of width `a` on a virtual channel with entries `r` sends `outs` and leaves `r'`. -/
def Passes (w k a b : ℕ) (r : BridgeVc) (x : Content) (outs : List Content) (r' : BridgeVc) : Prop :=
  ∃ (p : VcPacket) (i : ℕ), i < p.numFlits a ∧ x = p.flit a i ∧ r = .after w k (i * a / (k * w)) r.extraCredit ∧
    outs = slice (p.flit b) (p.sent a b i) (p.sent a b (i + 1)) ∧ r' = .after w k (p.next w k a i) r.extraCredit

section Call

variable {w k : ℕ} {c : BridgeParams} (now : ℕ) {f : Flit} {s : Bridges} {p : VcPacket} {i : ℕ} {e : List ℤ}

lemma Flit.isTail_of_content {a : ℕ} (hf : (flit f).content = p.flit a i) (hi : i < p.numFlits a) :
    f.isTail = decide (i + 1 = p.numFlits a) := by
  rw [← VcPacket.isLast_flit hi, ← hf]
  rfl

lemma Flit.fields_of_content {a : ℕ} (hf : (flit f).content = p.flit a i) :
    f.id = i ∧ f.msgSize = p.msgSize ∧ f.width = a := by
  injection hf with hf
  injection hf with _ hid _ _ _ _ _ _ hsize hwidth
  exact ⟨hid, hsize, hwidth⟩

lemma content_resized {a b j : ℕ} (hf : (flit f).content = p.flit a i) :
    (flit (f.resized j (divCeil f.msgSize b) b)).content = p.flit b j := by
  injection hf with hf
  injection hf with h1 h2 h3 h4 h5 h6 h7 h8 h9 h10
  simp only [content, VcPacket.flit, VcPacket.numFlits, Flit.header, Flit.resized, Flit.new, Flit.type, h1, h3, h4,
    h5, h8, h9]

section

variable (hw : 0 < w)
include hw

lemma sent_wide (hi : i < p.numFlits (k * w)) : p.sent (k * w) w i = i * k := by
  rw [VcPacket.sent, if_pos hi, ← Nat.mul_assoc, Nat.mul_div_cancel _ hw]

lemma sent_narrow (hi : i < p.numFlits w) : p.sent w (k * w) i = i / k := by
  rw [VcPacket.sent, if_pos hi, Nat.mul_div_mul_right _ _ hw]

lemma serializable_flit (hk : 0 < k) (hcur : c.curWidth = k * w) (htar : c.targetWidth = w)
    (hi : i < p.numFlits (k * w)) (hf : (flit f).content = p.flit (k * w) i) :
    c.serializable (.flit f) (.after w k i e) =
      .ok (.after w k (p.next w k (k * w) i) e, (p.sent (k * w) w (i + 1) : ℤ) - i * k) := by
  have hW : 0 < k * w := mul_pos hk hw
  have htail := Flit.isTail_of_content hf hi
  obtain ⟨hid, hsize, -⟩ := Flit.fields_of_content hf
  unfold serializable VcPacket.next
  dsimp only
  rw [htail, hcur, htar, hid, hsize]
  by_cases hlast : i + 1 < p.numFlits (k * w)
  · rw [if_neg (by simp; omega), if_pos hlast, sent_wide hw hlast, Nat.mul_div_cancel _ hW]
    have hpossible : (((i : ℤ) + 1) * ((k * w : ℕ) : ℤ) - (after w k i e).sizeSent) / (w : ℤ) = k := by
      unfold BridgeVc.after
      grind [Int.mul_ediv_cancel, LT.lt.ne']
    rw [hpossible, if_pos (by exact_mod_cast hk.ne')]
    unfold BridgeVc.after
    push_cast
    ring_nf
  · rw [if_pos (by simp; omega), if_neg hlast, VcPacket.sent_succ_tail hlast]
    have hpossible : ceilDiv ((p.msgSize : ℤ) - (after w k i e).sizeSent) (w : ℤ) =
        (p.numFlits w : ℤ) - i * k := by
      unfold BridgeVc.after VcPacket.numFlits
      dsimp only
      rw [← Int.mul_assoc, ceilDiv_sub_mul hw, ceilDiv_natCast hw]
    rw [hpossible]
    simp [BridgeVc.after]

lemma lt_sent_succ (hk : 0 < k) (hi : i < p.numFlits (k * w)) : i * k < p.sent (k * w) w (i + 1) := by
  by_cases hlast : i + 1 < p.numFlits (k * w)
  · rw [sent_wide hw hlast, add_mul]
    omega
  · rw [VcPacket.sent_succ_tail hlast, VcPacket.lt_numFlits hw, mul_assoc]
    exact (VcPacket.lt_numFlits (mul_pos hk hw)).mp hi

lemma flitisizeAndSend_wide (hk : 1 < k) (hen : c.enSerDes = true) (hcur : c.curWidth = k * w)
    (htar : c.targetWidth = w) (hi : i < p.numFlits (k * w)) (hf : (flit f).content = p.flit (k * w) i)
    (hr : s.own.vcs p.vc = .after w k i e) :
    ∃ s' fs, c.flitisizeAndSend now (.flit f) s = .ok s' ∧
      s'.own.vcs = Function.update s.own.vcs p.vc (.after w k (p.next w k (k * w) i) e) ∧
      s'.own.linkBuffer = s.own.linkBuffer ++ fs ∧
      fs.map content = slice (p.flit w) (p.sent (k * w) w i) (p.sent (k * w) w (i + 1)) ∧
      s'.co = s.co.neutralize p.vc ((p.sent (k * w) w (i + 1) - i * k : ℕ) : ℤ) := by
  have hk0 : 0 < k := by omega
  have hww : w < k * w := (lt_mul_iff_one_lt_left hw).mpr hk
  have hlt := lt_sent_succ (p := p) hw hk0 hi
  have hvc : (flit f).vc = p.vc := by rw [← vc_content, hf, VcPacket.vc_flit]
  have hcount := serializable_flit (e := e) hw hk0 hcur htar hi hf
  rw [← hr, ← hvc] at hcount
  have hn : (p.sent (k * w) w (i + 1) : ℤ) - i * k = ((p.sent (k * w) w (i + 1) - i * k : ℕ) : ℤ) := by
    rw [cast_sub hlt.le, cast_mul]
  rw [hn] at hcount
  -- part `j` is narrow flit `i * k + j`
  have hpart : ∀ j < ((p.sent (k * w) w (i + 1) - i * k : ℕ) : ℤ).toNat,
      (flit f).serialize j ((p.sent (k * w) w (i + 1) - i * k : ℕ) : ℤ) c.targetWidth =
        .ok (.flit (f.resized (i * k + j) (divCeil f.msgSize w) w)) := by
    intro j hj
    rw [Int.toNat_natCast] at hj
    obtain ⟨hid, hsize, hwidth⟩ := Flit.fields_of_content hf
    have hratio : f.id * divCeil f.width w = i * k := by rw [hid, hwidth, divCeil_mul hw]
    have hbound : i * k + j < divCeil f.msgSize w := by
      have hle := p.sent_le_numFlits (mul_pos hk0 hw) hw (i + 1)
      unfold VcPacket.numFlits at hle
      rw [hsize]
      omega
    have := Flit.serialize_eq j (by rwa [hwidth]) (by rwa [hratio])
    rw [hratio] at this
    unfold serialize
    dsimp only
    rw [htar, this]
    rfl
  have hcall := flitisizeAndSend_serialize now hen (by rwa [hcur, htar]) hcount (by omega) hpart
  obtain ⟨fs, hbuf, hfs⟩ := scheduleAll_linkBuffer (c := c) now content_setTime _ _
  refine ⟨_, fs, hcall, ?_, hbuf, hfs.trans ?_, ?_⟩
  · rw [scheduleAll_vcs, NetworkBridge.setVc_vcs, hvc]
  · rw [map_map, Int.toNat_natCast, sent_wide hw hi, slice, range'_eq_map_range, map_map]
    exact map_congr_left fun j _ => content_resized hf
  · rw [hvc]
    rfl

lemma next_narrow (h : i + 1 < p.numFlits w) : p.next w k w i = (i + 1) / k := by
  rw [VcPacket.next, if_pos h, Nat.mul_div_mul_right _ _ hw]

section

variable (hk : 0 < k) (hi : i < p.numFlits w)
include hk hi

lemma div_lt_numFlits : i / k < p.numFlits (k * w) := by
  rw [VcPacket.lt_numFlits hw] at hi
  rw [VcPacket.lt_numFlits (mul_pos hk hw), ← mul_assoc]
  have := mul_le_mul_right w (div_mul_le_self i k)
  omega

lemma numFlits_wide (hlast : ¬ i + 1 < p.numFlits w) : p.numFlits (k * w) = i / k + 1 := by
  have hW : 0 < k * w := mul_pos hk hw
  have hmod := lt_div_mul_add hk (a := i)
  have h1 := div_lt_numFlits hw hk hi
  rw [VcPacket.lt_numFlits hw] at hlast
  have h2 : ¬ i / k + 1 < p.numFlits (k * w) := by
    rw [VcPacket.lt_numFlits hW, ← mul_assoc]
    have : (i + 1) * w ≤ (i / k + 1) * k * w := mul_le_mul_right w (by rw [add_mul]; omega)
    omega
  omega

lemma sent_succ_narrow :
    p.sent w (k * w) (i + 1) = if k ∣ i + 1 ∨ i + 1 = p.numFlits w then i / k + 1 else i / k := by
  grind [sent_narrow, Nat.succ_div, VcPacket.sent_succ_tail, numFlits_wide]

end

lemma deserializable_flit (hk : 0 < k) (hcur : c.curWidth = w) (htar : c.targetWidth = k * w)
    (hi : i < p.numFlits w) (hf : (flit f).content = p.flit w i) :
    c.deserializable (.flit f) (.after w k (i / k) e) =
      .ok (.after w k (p.next w k w i) e, (i % k + 1 : ℕ), (p.sent w (k * w) (i + 1) : ℤ) - (i / k : ℕ)) := by
  have hW : 0 < k * w := mul_pos hk hw
  have htail := Flit.isTail_of_content hf hi
  obtain ⟨hid, hsize, -⟩ := Flit.fields_of_content hf
  have hnum : (i : ℤ) + 1 - (after w k (i / k) e).flitsSent = (i % k + 1 : ℕ) := by
    have := div_add_mod i k
    rw [mul_comm] at this
    unfold BridgeVc.after
    dsimp only
    rw [← cast_mul]
    omega
  unfold deserializable
  dsimp only
  rw [htail, hcur, htar, hid, hsize, hnum]
  by_cases hlast : i + 1 < p.numFlits w
  · rw [if_neg (by simp; omega), next_narrow hw hlast, sent_narrow hw hlast]
    have hpossible : (((i : ℤ) + 1) * (w : ℤ) - (after w k (i / k) e).sizeSent) / ((k * w : ℕ) : ℤ) =
        (((i + 1) / k : ℕ) : ℤ) - (i / k : ℕ) := by
      unfold BridgeVc.after
      dsimp only
      have := Nat.mul_div_mul_right (i + 1) k hw
      rw [← cast_mul, Int.sub_mul_ediv_right _ _ (by exact_mod_cast hW.ne')]
      rw [← this]
      push_cast
      rfl
    rw [hpossible, Nat.succ_div]
    by_cases hdvd : k ∣ i + 1
    · rw [if_pos hdvd, ensure_bind, if_pos (by simp), if_pos (by simp)]
      have hfull : i + 1 = (i / k + 1) * k := by
        have := Nat.div_mul_cancel hdvd
        rwa [succ_div_of_dvd hdvd, eq_comm] at this
      have hfull' : (i : ℤ) + 1 = ((i / k + 1 : ℕ) : ℤ) * k := by exact_mod_cast hfull
      rw [hfull']
      unfold BridgeVc.after
      push_cast
      ring_nf
    simp_all [ensure_bind]
  · rw [if_pos (by simp; omega), VcPacket.sent_succ_tail hlast, VcPacket.next, if_neg hlast]
    have hpossible : ceilDiv ((p.msgSize : ℤ) - (after w k (i / k) e).sizeSent) ((k * w : ℕ) : ℤ) =
        (p.numFlits (k * w) : ℤ) - (i / k : ℕ) := by
      unfold BridgeVc.after VcPacket.numFlits
      dsimp only
      rw [← cast_mul, ceilDiv_sub_mul hW, ceilDiv_natCast hW]
    rw [hpossible, ensure_bind, if_pos (by rw [numFlits_wide hw hk hi hlast]; simp)]
    simp [BridgeVc.after]

lemma flitisizeAndSend_narrow (hk : 1 < k) (hen : c.enSerDes = true) (hcur : c.curWidth = w)
    (htar : c.targetWidth = k * w) (hi : i < p.numFlits w) (hf : (flit f).content = p.flit w i)
    (hr : s.own.vcs p.vc = .after w k (i / k) e) :
    ∃ s' fs, c.flitisizeAndSend now (.flit f) s = .ok s' ∧
      s'.own.vcs = Function.update s.own.vcs p.vc (.after w k (p.next w k w i) e) ∧
      s'.own.linkBuffer = s.own.linkBuffer ++ fs ∧
      fs.map content = slice (p.flit (k * w)) (p.sent w (k * w) i) (p.sent w (k * w) (i + 1)) ∧
      s'.co = if p.sent w (k * w) (i + 1) = i / k then s.co else s.co.neutralize p.vc (i % k + 1 : ℕ) := by
  have hk0 : 0 < k := by omega
  have hW : 0 < k * w := mul_pos hk0 hw
  have hww : w < k * w := (lt_mul_iff_one_lt_left hw).mpr hk
  have hvc : (flit f).vc = p.vc := by rw [← vc_content, hf, VcPacket.vc_flit]
  have hcount := deserializable_flit (e := e) hw hk0 hcur htar hi hf
  rw [← hr, ← hvc] at hcount
  by_cases hsame : p.sent w (k * w) (i + 1) = i / k
  · rw [hsame, Int.sub_self] at hcount
    refine ⟨_, [], flitisizeAndSend_wait now hen (by rwa [hcur, htar]) hcount, ?_, ?_, ?_, ?_⟩
    · rw [NetworkBridge.setVc_vcs, hvc]
    · rw [NetworkBridge.setVc_linkBuffer, append_nil]
    · rw [sent_narrow hw hi, hsame, slice_self]
      rfl
    · rw [if_pos hsame]
  · have hsent : p.sent w (k * w) (i + 1) = i / k + 1 := by grind [sent_succ_narrow]
    obtain ⟨hid, hsize, hwidth⟩ := Flit.fields_of_content hf
    -- the wide flit that the narrow one completes
    have hnew : divCeil (f.id + 1) (divCeil (k * w) f.width) - 1 = i / k := by
      rw [hid, hwidth, divCeil_mul hw, divCeil_succ hk0, Nat.add_sub_cancel]
    have hfl : (flit f).deserialize c.targetWidth =
        .ok (.flit (f.resized (i / k) (divCeil f.msgSize (k * w)) (k * w))) := by
      have hlt : i / k < divCeil f.msgSize (k * w) := by
        rw [hsize]
        exact div_lt_numFlits hw hk0 hi
      have := Flit.deserialize_eq (f := f) (by rwa [hnew])
      rw [hnew] at this
      unfold deserialize
      dsimp only
      rw [htar, this]
      rfl
    have hcall := flitisizeAndSend_deserialize now hen (by rwa [hcur, htar]) hcount (by omega) hfl
    obtain ⟨fs, hbuf, hfs⟩ := scheduleAll_linkBuffer (c := c) now content_setTime _ _
    refine ⟨_, fs, hcall, ?_, hbuf, hfs.trans ?_, ?_⟩
    · rw [scheduleAll_vcs, NetworkBridge.setVc_vcs, hvc]
      rfl
    · rw [sent_narrow hw hi, hsent, slice_singleton, map_singleton, content_resized hf]
    · rw [if_neg hsame, hvc]
      rfl

end

end Call

/-! ### Streams of calls -/

/-- Nothing of a packet is under way. -/
def BridgeVc.Clear (r : BridgeVc) : Prop := r.lenBuffer = 0 ∧ r.sizeSent = 0 ∧ r.flitsSent = 0

lemma BridgeVc.clear_after (w k : ℕ) (e : List ℤ) : (after w k 0 e).Clear := by simp [Clear, after]

lemma BridgeVc.Clear.eq_after {r : BridgeVc} (h : r.Clear) (w k : ℕ) : r = .after w k 0 r.extraCredit := by
  obtain ⟨h1, h2, h3⟩ := h
  cases r
  simp_all [after]

lemma Passes.clear_of_isLast {w k a b : ℕ} {r r' : BridgeVc} {x : Content} {outs : List Content} (h : Passes w k a b r x outs r')
    (hx : x.isLast = true) : r'.Clear := by
  obtain ⟨p, i, hi, rfl, -, -, rfl⟩ := h
  simp_all [VcPacket.isLast_flit, VcPacket.next, clear_after]

/-- The contents of `l` on virtual channel `v`. -/
def onVc (v : ℕ) (l : List Content) : List Content := l.filter fun x => decide (x.vc = v)

/-- The contents of a list of calls, each a tick and a flit. -/
def contents (calls : List (ℕ × AnyFlit)) : List Content := calls.map fun x => x.2.content

namespace BridgeParams

/-- `flitisizeAndSend` for each of `calls`. -/
def sendAll (c : BridgeParams) (calls : List (ℕ × AnyFlit)) (s : Bridges) : Except BridgeFault Bridges :=
  calls.foldlM (fun s x => c.flitisizeAndSend x.1 x.2 s) s

/-- A call that returns, and what it sends. -/
def Sends (c : BridgeParams) (s : Bridges) (x : ℕ × AnyFlit) (outs : List Content) (s' : Bridges) : Prop :=
  c.flitisizeAndSend x.1 x.2 s = .ok s' ∧ ∃ fs, s'.own.linkBuffer = s.own.linkBuffer ++ fs ∧ fs.map content = outs

/-- After each tail, the entries of its virtual channel are clear. -/
def ClearAfterTails (c : BridgeParams) (calls : List (ℕ × AnyFlit)) (s : Bridges) : Prop :=
  ∀ pre x post, calls = pre ++ x :: post → x.2.content.isLast = true →
    ∃ s', c.sendAll (pre ++ [x]) s = .ok s' ∧ (s'.own.vcs x.2.vc).Clear

/-- The bridge changes flits of width `a` to flits of width `b`, one of which is `w` and the other `k * w`. -/
structure Converts (c : BridgeParams) (w k a b : ℕ) : Prop where
  narrow_pos : 0 < w
  ratio : 1 < k
  enabled : c.enSerDes = true
  cur : c.curWidth = a
  target : c.targetWidth = b
  widths : a = k * w ∧ b = w ∨ a = w ∧ b = k * w

variable {c : BridgeParams} {w k a b : ℕ} {s s' : Bridges} {calls : List (ℕ × AnyFlit)}

lemma Converts.pos (hc : c.Converts w k a b) : 0 < a ∧ 0 < b := by
  have hW : 0 < k * w := mul_pos (by have := hc.ratio; omega) hc.narrow_pos
  grind [Converts.narrow_pos, Converts.widths]

/-- The code does what `Passes` says. -/
lemma Converts.sends (hc : c.Converts w k a b) {x : ℕ × AnyFlit} {outs : List Content} {r : BridgeVc}
    (h : Passes w k a b (s.own.vcs x.2.vc) x.2.content outs r) :
    (∀ y ∈ outs, y.vc = x.2.vc) ∧ ∃ s', c.Sends s x outs s' ∧ s'.own.vcs = Function.update s.own.vcs x.2.vc r := by
  obtain ⟨p, i, hi, hx, hr, rfl, rfl⟩ := h
  have hk := hc.ratio
  have hw := hc.narrow_pos
  obtain ⟨now, t⟩ := x
  dsimp only at hx hr ⊢
  have hvc : t.vc = p.vc := by rw [← vc_content, hx, VcPacket.vc_flit]
  refine ⟨fun y hy => ?_, ?_⟩
  · grind [mem_slice, VcPacket.vc_flit]
  cases t with
  | credit _ => cases hx
  | flit f =>
    rw [hvc] at hr ⊢
    have hfrom : ∃ s' fs, c.flitisizeAndSend now (.flit f) s = .ok s' ∧
        s'.own.vcs = Function.update s.own.vcs p.vc (.after w k (p.next w k a i) (s.own.vcs p.vc).extraCredit) ∧
        s'.own.linkBuffer = s.own.linkBuffer ++ fs ∧
        fs.map content = slice (p.flit b) (p.sent a b i) (p.sent a b (i + 1)) := by
      obtain ⟨rfl, rfl⟩ | ⟨rfl, rfl⟩ := hc.widths
      · rw [Nat.mul_div_cancel _ hc.pos.1] at hr
        obtain ⟨s', fs, h1, h2, h3, h4, -⟩ :=
          flitisizeAndSend_wide now hw hk hc.enabled hc.cur hc.target hi hx hr
        exact ⟨s', fs, h1, h2, h3, h4⟩
      · rw [Nat.mul_div_mul_right _ _ hw] at hr
        obtain ⟨s', fs, h1, h2, h3, h4, -⟩ :=
          flitisizeAndSend_narrow now hw hk hc.enabled hc.cur hc.target hi hx hr
        exact ⟨s', fs, h1, h2, h3, h4⟩
    obtain ⟨s', fs, h1, h2, h3, h4⟩ := hfrom
    exact ⟨s', ⟨h1, fs, h3, h4⟩, h2⟩

/-- A packet, from its flit `i` on. -/
lemma Converts.runs_from (hc : c.Converts w k a b) {p : VcPacket} (e : List ℤ) (i : ℕ) (hi : i < p.numFlits a) :
    Runs (Passes w k a b) (.after w k (i * a / (k * w)) e) (slice (p.flit a) i (p.numFlits a))
      (slice (p.flit b) (p.sent a b i) (p.numFlits b)) (.after w k 0 e) := by
  have hstep : Passes w k a b (.after w k (i * a / (k * w)) e) (p.flit a i)
      (slice (p.flit b) (p.sent a b i) (p.sent a b (i + 1))) (.after w k (p.next w k a i) e) :=
    ⟨p, i, hi, rfl, rfl, rfl, rfl⟩
  rw [slice_cons hi]
  by_cases hlast : i + 1 < p.numFlits a
  · rw [← slice_append (p.sent_le hc.pos.1 hc.pos.2 i) (p.sent_le_numFlits hc.pos.1 hc.pos.2 (i + 1))]
    refine .cons hstep ?_
    rw [VcPacket.next, if_pos hlast]
    exact hc.runs_from e (i + 1) hlast
  · rw [VcPacket.sent_succ_tail hlast, VcPacket.next, if_neg hlast] at hstep
    rw [slice_of_le (by omega)]
    exact .single hstep
termination_by p.numFlits a - i

lemma Converts.runs_packets (hc : c.Converts w k a b) (e : List ℤ) {ps : List VcPacket}
    (hps : ∀ p ∈ ps, 1 ≤ p.msgSize) :
    Runs (Passes w k a b) (.after w k 0 e) (ps.flatMap (·.flits a)) (ps.flatMap (·.flits b)) (.after w k 0 e) := by
  induction ps with
  | nil => exact .nil _
  | cons p ps ih =>
    rw [forall_mem_cons] at hps
    have hp := hc.runs_from (p := p) e 0 ((VcPacket.lt_numFlits hc.pos.1).mpr (by omega))
    rw [VcPacket.sent_zero hps.1 hc.pos.1, Nat.zero_mul, Nat.zero_div] at hp
    rw [flatMap_cons, flatMap_cons]
    exact hp.append (ih hps.2)

lemma sendAll_of_runs {outs : List Content} (h : Runs c.Sends s calls outs s') :
    c.sendAll calls s = .ok s' ∧ ∃ fs, s'.own.linkBuffer = s.own.linkBuffer ++ fs ∧ fs.map content = outs := by
  induction h with
  | nil s => exact ⟨rfl, [], (append_nil _).symm, rfl⟩
  | cons hstep _ ih =>
    obtain ⟨hcall, fs, hfs, rfl⟩ := hstep
    obtain ⟨hrest, gs, hgs, rfl⟩ := ih
    refine ⟨?_, fs ++ gs, ?_, map_append⟩
    · unfold sendAll
      rw [foldlM_cons, hcall]
      exact hrest
    · rw [hgs, hfs, append_assoc]

section Streams

variable {packets : ℕ → List VcPacket}

section

variable (hc : c.Converts w k a b) (hs : ∀ v, (s.own.vcs v).Clear) (hp : ∀ v, ∀ p ∈ packets v, 1 ≤ p.msgSize)
  (hcalls : ∀ v, onVc v (contents calls) <+: (packets v).flatMap (·.flits a))
include hc hs hp hcalls

/-- A stream of packets on each virtual channel, interleaved in any way and cut off anywhere: no check fails, and on
each virtual channel the bridge sends the same packets in flits of the other width. -/
lemma Converts.exists_sendAll :
    ∃ s' fs, c.sendAll calls s = .ok s' ∧ s'.own.linkBuffer = s.own.linkBuffer ++ fs ∧ ∀ v,
      Runs (Passes w k a b) (s.own.vcs v) (onVc v (contents calls)) (onVc v (fs.map content)) (s'.own.vcs v) ∧
      onVc v (fs.map content) <+: (packets v).flatMap (·.flits b) ∧
      (onVc v (contents calls) = (packets v).flatMap (·.flits a) →
        onVc v (fs.map content) = (packets v).flatMap (·.flits b)) := by
  have hlane : ∀ v, ∃ outs r, Runs (Passes w k a b) (s.own.vcs v) (onVc v (contents calls)) outs r ∧
      outs <+: (packets v).flatMap (·.flits b) ∧
      (onVc v (contents calls) = (packets v).flatMap (·.flits a) → outs = (packets v).flatMap (·.flits b)) := by
    intro v
    have hall := hc.runs_packets (s.own.vcs v).extraCredit (hp v)
    rw [← (hs v).eq_after w k] at hall
    by_cases hwhole : onVc v (contents calls) = (packets v).flatMap (·.flits a)
    · grind
    · obtain ⟨r, outs, hpre, hrun⟩ := hall.of_prefix (hcalls v)
      exact ⟨outs, r, hrun, hpre, fun h => absurd h hwhole⟩
  choose outs ls hlane using hlane
  have hruns : ∀ v, Runs (fun r (x : ℕ × AnyFlit) => Passes w k a b r x.2.content) (s.own.vcs v)
      (calls.filter fun x => decide (x.2.vc = v)) (outs v) (ls v) := by
    intro v
    refine Runs.of_map (f := fun x => x.2.content) (fun _ _ _ _ h => h) ?_
    have := (hlane v).1
    rw [onVc, contents, filter_map] at this
    convert this using 3
    funext x
    simp [vc_content]
  obtain ⟨bs, s', hrun, hview, hbs⟩ := Runs.exists_runs (fun x : ℕ × AnyFlit => x.2.vc) Content.vc
    (fun s : Bridges => s.own.vcs) (fun s x outs r h => hc.sends h) hruns
  obtain ⟨hcall, fs, hbuf, rfl⟩ := sendAll_of_runs hrun
  refine ⟨s', fs, hcall, hbuf, fun v => ?_⟩
  have hout : onVc v (fs.map content) = outs v := hbs v
  rw [hout, hview]
  exact hlane v

lemma Converts.clearAfterTails : c.ClearAfterTails calls s := by
  rintro pre x post rfl hx
  have hsplit : ∀ v, onVc v (contents (pre ++ [x])) <+: onVc v (contents (pre ++ x :: post)) := by
    intro v
    rw [show pre ++ x :: post = (pre ++ [x]) ++ post by simp]
    generalize pre ++ [x] = l
    unfold onVc contents
    simp_all
  obtain ⟨s', fs, hcall, -, hlanes⟩ := hc.exists_sendAll hs hp fun v => (hsplit v).trans (hcalls v)
  refine ⟨s', hcall, ?_⟩
  -- the last step on the virtual channel is that of the tail
  have hrun := (hlanes x.2.vc).1
  have hlast : onVc x.2.vc (contents (pre ++ [x])) = onVc x.2.vc (contents pre) ++ [x.2.content] := by
    simp [onVc, contents, vc_content]
  rw [hlast] at hrun
  obtain ⟨r, _, _, -, -, hend⟩ := hrun.of_append
  grind [Runs.cons_iff, Runs.nil_iff, Passes.clear_of_isLast]

end

/-- Packets that are serialized from width `k * w` to width `w` and deserialized again, those of each virtual channel in
order and the virtual channels interleaved in any way: no check fails, the packets pass as flits of width `w` and
come out as the flits that went in, and each tail leaves the entries of its virtual channel clear. -/
theorem serialize_deserialize {ser des : BridgeParams} (hser : ser.Converts w k (k * w) w)
    (hdes : des.Converts w k w (k * w)) {t : Bridges} (hs : ∀ v, (s.own.vcs v).Clear) (ht : ∀ v, (t.own.vcs v).Clear)
    (hp : ∀ v, ∀ p ∈ packets v, 1 ≤ p.msgSize)
    (hcalls : ∀ v, onVc v (contents calls) <+: (packets v).flatMap (·.flits (k * w))) :
    ∃ s' narrow, ser.sendAll calls s = .ok s' ∧ s'.own.linkBuffer = s.own.linkBuffer ++ narrow ∧
      (∀ v, onVc v (narrow.map AnyFlit.content) <+: (packets v).flatMap (·.flits w)) ∧
      (∀ v, onVc v (contents calls) = (packets v).flatMap (·.flits (k * w)) →
        onVc v (narrow.map AnyFlit.content) = (packets v).flatMap (·.flits w)) ∧
      ser.ClearAfterTails calls s ∧
      ∀ calls', contents calls' = narrow.map AnyFlit.content →
        ∃ t' wide, des.sendAll calls' t = .ok t' ∧ t'.own.linkBuffer = t.own.linkBuffer ++ wide ∧
          (∀ v, onVc v (wide.map AnyFlit.content) <+: (packets v).flatMap (·.flits (k * w))) ∧
          (∀ v, onVc v (contents calls) = (packets v).flatMap (·.flits (k * w)) →
            onVc v (wide.map AnyFlit.content) = onVc v (contents calls)) ∧
          des.ClearAfterTails calls' t := by
  obtain ⟨s', narrow, hcall, hbuf, hlanes⟩ := hser.exists_sendAll hs hp hcalls
  refine ⟨s', narrow, hcall, hbuf, fun v => (hlanes v).2.1, fun v => (hlanes v).2.2,
    hser.clearAfterTails hs hp hcalls, fun calls' hcalls' => ?_⟩
  have hnarrow : ∀ v, onVc v (contents calls') <+: (packets v).flatMap (·.flits w) := by
    intro v
    rw [hcalls']
    exact (hlanes v).2.1
  obtain ⟨t', wide, hcall', hbuf', hlanes'⟩ := hdes.exists_sendAll ht hp hnarrow
  refine ⟨t', wide, hcall', hbuf', fun v => (hlanes' v).2.1, fun v hwhole => ?_, hdes.clearAfterTails ht hp hnarrow⟩
  have hout := (hlanes v).2.2 hwhole
  rw [← hcalls'] at hout
  rw [hwhole]
  exact (hlanes' v).2.2 hout

end Streams

/-- A message of size 5 on virtual channel 0 and one of size 2 on virtual channel 1, whose flit of width 4 comes
between the two of the other. -/
theorem serialize_deserialize_five : let ser : BridgeParams := ⟨.linkObject, 2, 4, false, true, 1, 1, 1⟩
    let des : BridgeParams := ⟨.linkObject, 4, 2, false, true, 1, 1, 1⟩
    let packet (id vc size : ℕ) : VcPacket := ⟨id, vc, 0, ⟨0, [1], 0, 0, 1, 0, 0⟩, ⟨id, [1], size, 0, 0, 0⟩, size⟩
    let flit (p : VcPacket) (i : ℕ) : AnyFlit :=
      .flit (Flit.new p.packetId i p.vc p.vnet p.route (p.numFlits 4) p.msgPtr p.msgSize 4 0 0)
    let calls := [(0, flit (packet 0 0 5) 0), (1, flit (packet 1 1 2) 0), (2, flit (packet 0 0 5) 1)]
    ∃ s' narrow, ser.sendAll calls ⟨{}, {}⟩ = .ok s' ∧ s'.own.linkBuffer = narrow ∧
      onVc 0 (narrow.map content) = (packet 0 0 5).flits 2 ∧
      ∃ t' wide, des.sendAll (narrow.map fun f => (0, f)) ⟨{}, {}⟩ = .ok t' ∧ t'.own.linkBuffer = wide ∧
        onVc 0 (wide.map content) = (packet 0 0 5).flits 4 := by
  intro ser des packet flit calls
  have hser : ser.Converts 2 2 (2 * 2) 2 := ⟨by decide, by decide, rfl, rfl, rfl, by decide⟩
  have hdes : des.Converts 2 2 2 (2 * 2) := ⟨by decide, by decide, rfl, rfl, rfl, by decide⟩
  have hclear : ∀ v, ((⟨{}, {}⟩ : Bridges).own.vcs v).Clear := fun _ => ⟨rfl, rfl, rfl⟩
  let packets : ℕ → List VcPacket
    | 0 => [packet 0 0 5]
    | 1 => [packet 1 1 2]
    | _ => []
  have hp : ∀ v, ∀ p ∈ packets v, 1 ≤ p.msgSize
    | 0 => by decide
    | 1 => by decide
    | _ + 2 => by simp [packets]
  have hcalls : ∀ v, onVc v (contents calls) = (packets v).flatMap (·.flits (2 * 2))
    | 0 => by decide
    | 1 => by decide
    | _ + 2 => rfl
  obtain ⟨s', narrow, h1, h2, -, h4, -, hback⟩ :=
    serialize_deserialize hser hdes hclear hclear hp fun v => ⟨[], by rw [append_nil, hcalls v]⟩
  obtain ⟨t', wide, g1, g2, -, g4, -⟩ := hback (narrow.map fun f => (0, f)) (by simp [contents])
  have hone : ∀ b, (packets 0).flatMap (·.flits b) = (packet 0 0 5).flits b := fun _ => flatMap_singleton ..
  exact ⟨s', narrow, h1, h2, (h4 0 (hcalls 0)).trans (hone 2), t', wide, g1, g2,
    ((g4 0 (hcalls 0)).trans (hcalls 0)).trans (hone 4)⟩

end BridgeParams

end Gem5.Garnet
