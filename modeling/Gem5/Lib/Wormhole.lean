import Gem5.Lib.Slice

/-!
# Wormhole flow control with credits

A packet moves through a network as a worm of flits. On each channel it takes, the sender holds the
channel from the packet's first flit until a credit says that its last one has left the receiver's
buffer, and may only send while it has credits, one for each place in that buffer.

This module says what such a channel looks like at any moment and how the moves of flits and credits
change it, for channels of any type. A channel is seen through a `View`: the flits still waiting at a
source, those on the way, those in the receiver's buffer, the credits on the way back, and what the
two ends remember. `Holds` explains a view by a `Worm`: one packet and four counters, of the flits
sent, received, forwarded and credited. Everything in the view is a slice of that packet.

`Inv` puts the channels together: the packet in a channel's receiver has claimed the next channel
of its way, no two channels have claimed the same one, and the claimed channel carries the same
packet, up to the flit the claimant will forward next. The lemmas `Inv.create` to `Inv.unstall` are
the moves. An *entry* channel is fed by a source, an *exit* channel leads to a sink, which takes flits
out one by one, but may hold back the last flit of a packet.
-/

namespace Gem5.Lib.Wormhole

open Function

universe u v

variable {C : Type u} {P : Type v}

structure Params (C : Type u) (P : Type v) where
  /-- The number of flits of a packet. -/
  size : P → ℕ
  /-- The places in the receiver's buffer. -/
  depth : C → ℕ
  /-- The channel is fed by a source. -/
  entry : C → Bool
  /-- The channel leads to a sink. -/
  exit : C → Bool

/-- A channel at a moment. A flit is a packet and a number. -/
@[ext]
structure View (C : Type u) (P : Type v) where
  /-- Flits at the source. -/
  pend : List (P × ℕ)
  /-- Flits on the way, the first to arrive first. -/
  wire : List (P × ℕ)
  /-- Flits in the receiver's buffer. -/
  buf : List (P × ℕ)
  /-- Credits on the way back; the last one of a packet frees the channel. -/
  back : List Bool
  /-- The sender's credits. -/
  credit : ℤ
  /-- The sender takes the channel for free. -/
  idle : Bool
  /-- The receiver is in the middle of a packet. -/
  opened : Bool
  /-- The channel the receiver's packet goes to next, once it has one. -/
  next : Option C

/-- The packet on a channel, and how far it has got. -/
structure Worm (P : Type v) where
  pkt : P
  /-- The channels the packet took before this one. -/
  hop : ℕ
  /-- Flits whose credit has come back. -/
  ret : ℕ
  /-- Flits that have left the receiver. -/
  left : ℕ
  /-- Flits that have arrived. -/
  rcvd : ℕ
  /-- Flits that have been sent. -/
  sent : ℕ

variable (π : Params C P)

/-- The flits `i, …, j - 1` of a packet. -/
def seg (p : P) (i j : ℕ) : List (P × ℕ) := slice (fun k => (p, k)) i j

/-- The credits for the flits `i, …, j - 1` of a packet of `n` flits. -/
def flags (n i j : ℕ) : List Bool := slice (fun k => decide (k + 1 = n)) i j

structure Free (c : C) (v : View C P) : Prop where
  idle : v.idle = true
  pend : v.pend = []
  wire : v.wire = []
  buf : v.buf = []
  back : v.back = []
  credit : v.credit = π.depth c
  opened : v.opened = false
  next : v.next = none

/-- A channel that is held by a packet. -/
structure Busy (c : C) (v : View C P) (w : Worm P) : Prop where
  idle : v.idle = false
  ret_le : w.ret ≤ w.left
  left_le : w.left ≤ w.rcvd
  rcvd_le : w.rcvd ≤ w.sent
  sent_le : w.sent ≤ π.size w.pkt
  /-- It is not over. -/
  ret_lt : w.ret = π.size w.pkt → w.ret = 0
  pend : v.pend = if π.entry c then seg w.pkt w.sent (π.size w.pkt) else []
  wire : v.wire = seg w.pkt w.rcvd w.sent
  buf : v.buf = seg w.pkt w.left w.rcvd
  back : v.back = flags (π.size w.pkt) w.ret w.left
  credit : v.credit = π.depth c - (w.sent - w.ret : ℕ)
  credit_nonneg : 0 ≤ v.credit
  opened : v.opened = (!π.exit c && decide (0 < w.rcvd) && decide (w.left < π.size w.pkt))
  next : v.next.isSome = (!π.exit c && decide (0 < w.left) && decide (w.left < π.size w.pkt))
  /-- A sink only holds back last flits. -/
  sink : π.exit c = true → w.left < w.rcvd → w.rcvd = π.size w.pkt ∧ w.left + 1 = w.rcvd

def Holds (c : C) (v : View C P) : Option (Worm P) → Prop
  | none => Free π c v
  | some w => Busy π c v w

variable {π} {c : C} {v : View C P} {w : Worm P}

variable {o : Option (Worm P)} {x : P × ℕ} {rest : List (P × ℕ)} {d : C} {wc : Worm P}

section

variable (h : Holds π c v o)
include h

lemma Holds.free (hi : v.idle = true) : o = none ∧ Free π c v := by
  cases o with
  | none => exact ⟨rfl, h⟩
  | some w => exact absurd (h.idle.symm.trans hi) (by simp)

lemma Holds.busy (hi : v.idle = false) : ∃ w, o = some w ∧ Busy π c v w := by
  cases o with
  | none => exact absurd (h.idle.symm.trans hi) (by simp)
  | some w => exact ⟨w, rfl, h⟩

lemma Holds.balance : v.credit + (v.wire.length + v.buf.length + v.back.length : ℕ) = π.depth c := by
  cases o with
  | none => simp [h.wire, h.buf, h.back, h.credit]
  | some w =>
    have h1 := h.ret_le
    have h2 := h.left_le
    have h3 := h.rcvd_le
    rw [h.wire, h.buf, h.back, h.credit, seg, seg, flags, length_slice, length_slice, length_slice]
    omega

lemma Holds.credit_nonneg : 0 ≤ v.credit := by
  cases o with
  | none => rw [h.credit]; exact Int.natCast_nonneg _
  | some w => exact Busy.credit_nonneg h

end

/-! ### What moves do to one channel -/

lemma Free.create (h : Free π c v) (he : π.entry c = true) (p : P) :
    Busy π c { v with pend := seg p 0 (π.size p), idle := false } ⟨p, 0, 0, 0, 0, 0⟩ where
  idle := rfl
  ret_le := le_rfl
  left_le := le_rfl
  rcvd_le := le_rfl
  sent_le := Nat.zero_le _
  ret_lt _ := rfl
  pend := by rw [he, if_pos rfl]
  wire := by rw [h.wire]; exact slice_self.symm
  buf := by rw [h.buf]; exact slice_self.symm
  back := by rw [h.back]; exact slice_self.symm
  credit := by simp [h.credit]
  credit_nonneg := by simp [h.credit]
  opened := by simp [h.opened]
  next := by simp [h.next]
  sink _ h := absurd h (lt_irrefl _)

lemma Busy.inject (h : Busy π c v w) (hp : v.pend = x :: rest)
    (hc : 0 < v.credit) : x = (w.pkt, w.sent) ∧ w.sent < π.size w.pkt ∧
      Busy π c { v with pend := rest, wire := v.wire ++ [x], credit := v.credit - 1 } { w with sent := w.sent + 1 } := by
  have he : π.entry c = true := by
    by_contra hn
    have := h.pend
    rw [hp, if_neg hn] at this
    cases this
  have hpend := h.pend
  rw [hp, if_pos he] at hpend
  obtain ⟨hlt, hx, hrest⟩ := slice_eq_cons hpend.symm
  have h1 := h.ret_le
  have h2 := h.left_le
  have h3 := h.rcvd_le
  have h4 := h.credit
  refine ⟨hx, hlt, { h with
    rcvd_le := Nat.le_succ_of_le h3
    sent_le := hlt
    pend := by rw [he, if_pos rfl]; exact hrest
    wire := by rw [hx, h.wire]; exact (slice_snoc h3).symm
    credit := ?_
    credit_nonneg := ?_ }⟩
  · dsimp only
    omega
  · dsimp only
    omega

lemma Busy.arrive (h : Busy π c v w) (hx : π.exit c = false)
    (hw : v.wire = x :: rest) : x = (w.pkt, w.rcvd) ∧ w.rcvd < w.sent ∧ v.opened = decide (0 < w.rcvd) ∧
      Busy π c { v with wire := rest, buf := v.buf ++ [x], opened := true } { w with rcvd := w.rcvd + 1 } := by
  have hwire := h.wire
  rw [hw] at hwire
  obtain ⟨hlt, hxe, hrest⟩ := slice_eq_cons hwire.symm
  have h2 := h.left_le
  have h4 := h.sent_le
  have hleft : w.left < π.size w.pkt := by omega
  refine ⟨hxe, hlt, by simp [h.opened, hx, hleft], { h with
    left_le := Nat.le_succ_of_le h2
    rcvd_le := hlt
    wire := hrest
    buf := by rw [hxe, h.buf]; exact (slice_snoc h2).symm
    opened := by simp [hx, hleft]
    sink := by simp [hx] }⟩

/-- The first flit of the receiver's buffer goes on to `d`. -/
lemma Busy.depart (h : Busy π c v w) (hx : π.exit c = false)
    (hb : v.buf = x :: rest) (d : C) : x = (w.pkt, w.left) ∧ w.left < w.rcvd ∧
      (w.left + 1 = π.size w.pkt → rest = []) ∧ (v.next = none → w.left = 0) ∧
      Busy π c { v with
        buf := rest
        back := v.back ++ [decide (w.left + 1 = π.size w.pkt)]
        opened := !decide (w.left + 1 = π.size w.pkt)
        next := if w.left + 1 = π.size w.pkt then none else some d } { w with left := w.left + 1 } := by
  have hbuf := h.buf
  rw [hb] at hbuf
  obtain ⟨hlt, hxe, hrest⟩ := slice_eq_cons hbuf.symm
  have h1 := h.ret_le
  have h3 := h.rcvd_le
  have h4 := h.sent_le
  refine ⟨hxe, hlt, fun ht => ?_, fun hn => ?_, { h with
    ret_le := Nat.le_succ_of_le h1
    left_le := hlt
    buf := hrest
    back := by rw [h.back]; exact (slice_snoc h1).symm
    opened := ?_
    next := ?_
    sink := by simp [hx] }⟩
  · rw [hrest]
    exact slice_of_le (by omega)
  · grind [Busy.next]
  · grind
  grind

lemma Busy.accept (h : Busy π c v w) (he : π.entry c = false) (hs : w.sent < π.size w.pkt) (hc : 0 < v.credit) :
    Busy π c { v with wire := v.wire ++ [(w.pkt, w.sent)], credit := v.credit - 1 } { w with sent := w.sent + 1 } := by
  have h1 := h.ret_le
  have h2 := h.left_le
  have h3 := h.rcvd_le
  have h4 := h.credit
  refine { h with
    rcvd_le := Nat.le_succ_of_le h3
    sent_le := hs
    pend := by rw [h.pend]; simp [he]
    wire := by rw [h.wire]; exact (slice_snoc h3).symm
    credit := ?_
    credit_nonneg := ?_ }
  · dsimp only
    omega
  · dsimp only
    omega

lemma Free.accept (h : Free π c v) (he : π.entry c = false) {p : P} (k : ℕ) (hs : 0 < π.size p) (hd : 0 < π.depth c) :
    Busy π c { v with idle := false, wire := v.wire ++ [(p, 0)], credit := v.credit - 1 } ⟨p, k, 0, 0, 0, 1⟩ where
  idle := rfl
  ret_le := le_rfl
  left_le := le_rfl
  rcvd_le := Nat.zero_le _
  sent_le := hs
  ret_lt _ := rfl
  pend := by simp [h.pend, he]
  wire := by rw [h.wire, List.nil_append]; exact slice_singleton.symm
  buf := by rw [h.buf]; exact slice_self.symm
  back := by rw [h.back]; exact slice_self.symm
  credit := by simp [h.credit]
  credit_nonneg := by dsimp only; rw [h.credit]; omega
  opened := by simp [h.opened]
  next := by simp [h.next]
  sink _ h := absurd h (lt_irrefl _)

/-- A credit comes back: the sender has a place more, and with the last one the channel is free. -/
lemma Busy.refund (h : Busy π c v w) {b : Bool} {rest : List Bool} (hb : v.back = b :: rest) :
    v.credit + 1 ≤ π.depth c ∧ w.ret < w.left ∧ b = decide (w.ret + 1 = π.size w.pkt) ∧
      Holds π c { v with back := rest, credit := v.credit + 1, idle := b }
        (if b then none else some { w with ret := w.ret + 1 }) := by
  have hback := h.back
  rw [hb] at hback
  obtain ⟨hlt, hbe, hrest⟩ := slice_eq_cons hback.symm
  have h2 := h.left_le
  have h3 := h.rcvd_le
  have h4 := h.sent_le
  have h5 := h.credit
  refine ⟨by omega, hlt, hbe, ?_⟩
  by_cases ht : w.ret + 1 = π.size w.pkt
  · -- the last flit has been credited: all counters have reached the size of the packet
    have hb' : b = true := by rw [hbe]; simpa using ht
    subst hb'
    rw [if_pos rfl]
    refine ⟨rfl, ?_, ?_, ?_, ?_, ?_, ?_, ?_⟩
    · dsimp only
      rw [h.pend]
      split_ifs
      · exact slice_of_le (by omega)
      · rfl
    · dsimp only; rw [h.wire]; exact slice_of_le (by omega)
    · dsimp only; rw [h.buf]; exact slice_of_le (by omega)
    · dsimp only; rw [hrest]; exact slice_of_le (by omega)
    · dsimp only; omega
    · dsimp only
      rw [h.opened, decide_eq_false (by omega : ¬ w.left < π.size w.pkt), Bool.and_false]
    · have := h.next
      rw [decide_eq_false (by omega : ¬ w.left < π.size w.pkt), Bool.and_false] at this
      simpa using this
  · have hb' : b = false := by rw [hbe]; simpa using ht
    subst hb'
    refine { h with
      idle := rfl
      ret_le := hlt
      ret_lt := fun h' => absurd h' ht
      back := hrest
      credit := ?_
      credit_nonneg := ?_ }
    · dsimp only; omega
    · dsimp only
      have := h.credit_nonneg
      omega

section

variable (h : Busy π c v w) (hx : π.exit c = true)
include h hx

lemma Busy.absorb (hw : v.wire = x :: rest) : x = (w.pkt, w.rcvd) ∧ w.rcvd < w.sent ∧ w.left = w.rcvd ∧
      Busy π c { v with wire := rest, back := v.back ++ [decide (w.left + 1 = π.size w.pkt)] }
        { w with rcvd := w.rcvd + 1, left := w.left + 1 } := by
  have hwire := h.wire
  rw [hw] at hwire
  obtain ⟨hlt, hxe, hrest⟩ := slice_eq_cons hwire.symm
  have h1 := h.ret_le
  have h2 := h.left_le
  have h4 := h.sent_le
  have hlr : w.left = w.rcvd := by grind [Busy.sink]
  refine ⟨hxe, hlt, hlr, { h with
    ret_le := Nat.le_succ_of_le h1
    left_le := by dsimp only; omega
    rcvd_le := hlt
    wire := hrest
    buf := by rw [h.buf, hlr, seg, slice_self, seg, slice_self]
    back := by rw [h.back]; exact (slice_snoc h1).symm
    opened := by simp [h.opened, hx]
    next := by simp [h.next, hx]
    sink := fun _ hn => by dsimp only at hn; omega }⟩

lemma Busy.stall (hw : v.wire = x :: rest) (ht : x.2 + 1 = π.size x.1) : x = (w.pkt, w.rcvd) ∧ w.rcvd < w.sent ∧
      Busy π c { v with wire := rest, buf := v.buf ++ [x] } { w with rcvd := w.rcvd + 1 } := by
  obtain ⟨hxe, hlt, hlr, -⟩ := h.absorb hx hw
  have hwire := h.wire
  rw [hw] at hwire
  obtain ⟨-, -, hrest⟩ := slice_eq_cons hwire.symm
  rw [hxe] at ht
  refine ⟨hxe, hlt, { h with
    left_le := Nat.le_succ_of_le h.left_le
    rcvd_le := hlt
    wire := hrest
    buf := by rw [hxe, h.buf]; exact (slice_snoc h.left_le).symm
    opened := by simp [h.opened, hx]
    sink := fun _ _ => ⟨ht, by dsimp only; omega⟩ }⟩

lemma Busy.unstall (hb : x ∈ v.buf) :
    v.buf = [x] ∧ x = (w.pkt, w.left) ∧ w.left < w.rcvd ∧ w.left + 1 = π.size w.pkt ∧
      Busy π c { v with buf := [], back := v.back ++ [true] } { w with left := w.left + 1 } := by
  have hlt : w.left < w.rcvd := by
    have hb' := hb
    rw [h.buf] at hb'
    obtain ⟨k, hk1, hk2, -⟩ := mem_slice.mp hb'
    omega
  obtain ⟨h1, h2⟩ := h.sink hx hlt
  have hbuf : v.buf = [(w.pkt, w.left)] := by rw [h.buf, ← h2]; exact slice_singleton
  have hxe : x = (w.pkt, w.left) := by
    rw [hbuf] at hb
    exact List.mem_singleton.mp hb
  have ht : w.left + 1 = π.size w.pkt := by omega
  refine ⟨hxe ▸ hbuf, hxe, hlt, ht, { h with
    ret_le := Nat.le_succ_of_le h.ret_le
    left_le := hlt
    buf := by dsimp only; rw [h2]; exact slice_self.symm
    back := ?_
    opened := by simp [h.opened, hx]
    next := by simp [h.next, hx]
    sink := fun _ hn => by dsimp only at hn; omega }⟩
  dsimp only
  rw [h.back, flags, flags, slice_snoc h.ret_le, decide_eq_true ht]

lemma Busy.next_of_exit : v.next = none := by
  have := h.next
  simpa [hx] using this

end

/-! ### All channels -/

variable (π) in
/-- What holds of all channels at any moment; `w` says which packet is where. -/
structure Inv (s : C → View C P) (w : C → Option (Worm P)) : Prop where
  holds : ∀ c, Holds π c (s c) (w c)
  /-- A claimed channel carries the claimant's packet, up to the flit it will forward next. -/
  next : ∀ c d, (s c).next = some d → ∃ wc wd, w c = some wc ∧ w d = some wd ∧ wd.pkt = wc.pkt ∧
    wd.hop = wc.hop + 1 ∧ wd.sent = wc.left ∧ π.entry d = false
  /-- A channel has one claimant. -/
  inj : ∀ c c' d, (s c).next = some d → (s c').next = some d → c = c'

variable {s s' : C → View C P} {w : C → Option (Worm P)}

lemma Inv.busy (h : Inv π s w) (hne : (s c).pend ≠ [] ∨ (s c).wire ≠ [] ∨ (s c).buf ≠ [] ∨ (s c).back ≠ []) :
    ∃ wc, w c = some wc ∧ Busy π c (s c) wc := by
  refine (h.holds c).busy ?_
  cases hi : (s c).idle with
  | false => rfl
  | true =>
    have hf := ((h.holds c).free hi).2
    simp [hf.pend, hf.wire, hf.buf, hf.back] at hne

lemma Inv.unclaimed (h : Inv π s w) {c' : C} (hw : w c = none) : (s c').next ≠ some c := by
  intro hn
  obtain ⟨-, wd, -, hd, -⟩ := h.next c' c hn
  rw [hw] at hd
  cases hd

lemma Inv.busy_of_next (h : Inv π s w) (hn : (s c).next = some d) (hw : w c = some wc) :
    π.exit c = false ∧ 0 < wc.left ∧ wc.left < π.size wc.pkt := by
  have hb : Busy π c (s c) wc := by have := h.holds c; rwa [hw] at this
  grind [Busy.next]

variable [DecidableEq C]

section

variable (h : Inv π s w)
include h

/-- A move on one channel that does not change what its claimant and the channel it has claimed
depend on. -/
lemma Inv.update {wc' : Worm P} (hw : w c = some wc) (hne : ∀ c' ≠ c, s' c' = s c') (hb : Busy π c (s' c) wc')
    (hnext : (s' c).next = (s c).next) (hpkt : wc'.pkt = wc.pkt) (hhop : wc'.hop = wc.hop)
    (hsent : wc'.sent = wc.sent ∨ π.entry c = true) (hleft : wc'.left = wc.left ∨ (s c).next = none) :
    Inv π s' (update w c (some wc')) := by
  have hnx : ∀ c', (s' c').next = (s c').next := by
    intro c'
    by_cases hc : c' = c
    · rw [hc, hnext]
    · rw [hne c' hc]
  refine ⟨fun c' => ?_, fun c1 d hn => ?_, fun c1 c2 d h1 h2 => ?_⟩
  · by_cases hc : c' = c
    · subst hc
      rw [update_self]
      exact hb
    simp_all [Inv.holds]
  · rw [hnx] at hn
    obtain ⟨w1, w2, h1, h2, h3, h3', h4, h5⟩ := h.next c1 d hn
    -- replace the worm of `c` on either side
    obtain ⟨w1', hw1', hp1, hh1, hl1⟩ : ∃ w1', Function.update w c (some wc') c1 = some w1' ∧ w1'.pkt = w1.pkt ∧
        w1'.hop = w1.hop ∧ w1'.left = w1.left := by grind
    obtain ⟨w2', hw2', hp2, hh2, hs2⟩ : ∃ w2', Function.update w c (some wc') d = some w2' ∧ w2'.pkt = w2.pkt ∧
        w2'.hop = w2.hop ∧ w2'.sent = w2.sent := by grind
    exact ⟨w1', w2', hw1', hw2', by rw [hp1, hp2, h3], by rw [hh1, hh2, h3'], by rw [hs2, hl1, h4], h5⟩
  · rw [hnx] at h1 h2
    exact h.inj c1 c2 d h1 h2

lemma Inv.create (he : π.entry c = true) (hi : (s c).idle = true) (p : P)
    (hc : s' c = { s c with pend := seg p 0 (π.size p), idle := false }) (hne : ∀ c' ≠ c, s' c' = s c') :
    Inv π s' (Function.update w c (some ⟨p, 0, 0, 0, 0, 0⟩)) := by
  obtain ⟨hw, hf⟩ := (h.holds c).free hi
  have hnx : ∀ c', (s' c').next = (s c').next := by
    intro c'
    by_cases hcc : c' = c
    · rw [hcc, hc]
    · rw [hne c' hcc]
  refine ⟨fun c' => ?_, fun c1 d hn => ?_, fun c1 c2 d h1 h2 => ?_⟩
  · by_cases hcc : c' = c
    · subst hcc
      rw [update_self, hc]
      exact hf.create he p
    simp_all [Inv.holds]
  · rw [hnx] at hn
    obtain ⟨w1, w2, h1, h2, h3⟩ := h.next c1 d hn
    have hc1 : c1 ≠ c := by rintro rfl; rw [hw] at h1; cases h1
    have hd : d ≠ c := by rintro rfl; rw [hw] at h2; cases h2
    exact ⟨w1, w2, by rw [update_of_ne hc1]; exact h1, by rw [update_of_ne hd]; exact h2, h3⟩
  · rw [hnx] at h1 h2
    exact h.inj c1 c2 d h1 h2

lemma Inv.refund {b : Bool} {rest : List Bool} (hb : (s c).back = b :: rest)
    (hc : s' c = { s c with back := rest, credit := (s c).credit + 1, idle := (s c).idle || b })
    (hne : ∀ c' ≠ c, s' c' = s c') :
    (s c).credit + 1 ≤ π.depth c ∧ ∃ wc, w c = some wc ∧
      Inv π s' (Function.update w c (if b then none else some { wc with ret := wc.ret + 1 })) := by
  obtain ⟨wc, hw, hbusy⟩ := h.busy (c := c) (by simp [hb])
  obtain ⟨hle, hlt, hbe, hholds⟩ := hbusy.refund hb
  rw [hbusy.idle, Bool.false_or] at hc
  refine ⟨hle, wc, hw, ?_⟩
  cases b with
  | false => exact h.update hw hne (by rw [hc]; exact hholds) (by rw [hc]) rfl rfl (Or.inl rfl) (Or.inl rfl)
  | true =>
    have h2 := hbusy.left_le
    have h3 := hbusy.rcvd_le
    have h4 := hbusy.sent_le
    have ht : wc.ret + 1 = π.size wc.pkt := by simpa using hbe.symm
    have hnx : ∀ c', (s' c').next = (s c').next := by
      intro c'
      by_cases hcc : c' = c
      · rw [hcc, hc]
      · rw [hne c' hcc]
    refine ⟨fun c' => ?_, fun c1 d hn => ?_, fun c1 c2 d h1 h2 => ?_⟩
    · grind [Inv.holds]
    · rw [hnx] at hn
      obtain ⟨w1, w2, h1, hd, hp, hh, hs, he⟩ := h.next c1 d hn
      obtain ⟨-, -, hlt1⟩ := h.busy_of_next hn h1
      -- the channel claims nothing and nobody claims it: its last flit has been sent and has left
      have hc1 : c1 ≠ c := by grind
      have hdc : d ≠ c := by grind
      exact ⟨w1, w2, by rw [update_of_ne hc1]; exact h1, by rw [update_of_ne hdc]; exact hd, hp, hh, hs, he⟩
    · rw [hnx] at h1 h2
      exact h.inj c1 c2 d h1 h2

lemma Inv.inject (hp : (s c).pend = x :: rest) (hcr : 0 < (s c).credit)
    (hc : s' c = { s c with pend := rest, wire := (s c).wire ++ [x], credit := (s c).credit - 1 })
    (hne : ∀ c' ≠ c, s' c' = s c') :
    ∃ wc, w c = some wc ∧ x = (wc.pkt, wc.sent) ∧ wc.sent < π.size wc.pkt ∧
      Inv π s' (Function.update w c (some { wc with sent := wc.sent + 1 })) := by
  obtain ⟨wc, hw, hb⟩ := h.busy (c := c) (by simp [hp])
  have he : π.entry c = true := by
    by_contra hn
    have := hb.pend
    rw [hp, if_neg hn] at this
    cases this
  obtain ⟨hx, hlt, hb'⟩ := hb.inject hp hcr
  exact ⟨wc, hw, hx, hlt, h.update hw hne (by rw [hc]; exact hb') (by rw [hc]) rfl rfl (Or.inr he) (Or.inl rfl)⟩

lemma Inv.arrive (hx : π.exit c = false) (hw : (s c).wire = x :: rest)
    (hc : s' c = { s c with wire := rest, buf := (s c).buf ++ [x], opened := true }) (hne : ∀ c' ≠ c, s' c' = s c') :
    ∃ wc, w c = some wc ∧ Busy π c (s c) wc ∧ x = (wc.pkt, wc.rcvd) ∧ (s c).opened = decide (0 < wc.rcvd) ∧
      Inv π s' (Function.update w c (some { wc with rcvd := wc.rcvd + 1 })) := by
  obtain ⟨wc, hwc, hb⟩ := h.busy (c := c) (by simp [hw])
  obtain ⟨hxe, -, ho, hb'⟩ := hb.arrive hx hw
  exact ⟨wc, hwc, hb, hxe, ho, h.update hwc hne (by rw [hc]; exact hb') (by rw [hc]) rfl rfl (Or.inl rfl) (Or.inl rfl)⟩

lemma Inv.absorb (hx : π.exit c = true) (hw : (s c).wire = x :: rest)
    (hc : s' c = { s c with wire := rest, back := (s c).back ++ [decide (x.2 + 1 = π.size x.1)] })
    (hne : ∀ c' ≠ c, s' c' = s c') :
    ∃ wc, w c = some wc ∧ x = (wc.pkt, wc.left) ∧ wc.left < π.size wc.pkt ∧
      Inv π s' (Function.update w c (some { wc with rcvd := wc.rcvd + 1, left := wc.left + 1 })) := by
  obtain ⟨wc, hwc, hb⟩ := h.busy (c := c) (by simp [hw])
  obtain ⟨hxe, hlt, hlr, hb'⟩ := hb.absorb hx hw
  rw [hxe, ← hlr] at hc
  have := hb.sent_le
  exact ⟨wc, hwc, hlr ▸ hxe, by omega, h.update hwc hne (by rw [hc]; exact hb') (by rw [hc]) rfl rfl (Or.inl rfl)
    (Or.inr (hb.next_of_exit hx))⟩

lemma Inv.stall (hx : π.exit c = true) (hw : (s c).wire = x :: rest) (ht : x.2 + 1 = π.size x.1)
    (hc : s' c = { s c with wire := rest, buf := (s c).buf ++ [x] }) (hne : ∀ c' ≠ c, s' c' = s c') :
    ∃ wc, w c = some wc ∧ x = (wc.pkt, wc.rcvd) ∧
      Inv π s' (Function.update w c (some { wc with rcvd := wc.rcvd + 1 })) := by
  obtain ⟨wc, hwc, hb⟩ := h.busy (c := c) (by simp [hw])
  obtain ⟨hxe, -, hb'⟩ := hb.stall hx hw ht
  exact ⟨wc, hwc, hxe, h.update hwc hne (by rw [hc]; exact hb') (by rw [hc]) rfl rfl (Or.inl rfl) (Or.inl rfl)⟩

lemma Inv.unstall (hx : π.exit c = true) (hb : x ∈ (s c).buf)
    (hc : s' c = { s c with buf := [], back := (s c).back ++ [true] }) (hne : ∀ c' ≠ c, s' c' = s c') :
    ∃ wc, w c = some wc ∧ x = (wc.pkt, wc.left) ∧ wc.left + 1 = π.size wc.pkt ∧
      Inv π s' (Function.update w c (some { wc with left := wc.left + 1 })) := by
  obtain ⟨wc, hwc, hbusy⟩ := h.busy (c := c) (by
    grind)
  obtain ⟨-, hxe, -, ht, hb'⟩ := hbusy.unstall hx hb
  exact ⟨wc, hwc, hxe, ht, h.update hwc hne (by rw [hc]; exact hb') (by rw [hc]) rfl rfl (Or.inl rfl)
    (Or.inr (hbusy.next_of_exit hx))⟩

end

/-- The worm on a channel after it has taken another flit of `p`, as the channel number `k` of its way. -/
def grown (o : Option (Worm P)) (p : P) (k : ℕ) : Worm P :=
  match o with
  | none => ⟨p, k, 0, 0, 0, 1⟩
  | some w => { w with sent := w.sent + 1 }

/-- The channel `d` is where the packet of a worm goes: it is free and the worm has forwarded nothing yet,
or it carries the flits that the worm has forwarded. -/
def Joins (w : C → Option (Worm P)) (d : C) (wc : Worm P) : Prop :=
  (w d = none ∧ wc.left = 0) ∨ ∃ wd, w d = some wd ∧ wd.pkt = wc.pkt ∧ wd.hop = wc.hop + 1 ∧ wd.sent = wc.left

/-- The receiver of `c` forwards a flit to `d`, which its packet has claimed or claims now. -/
lemma Inv.forward (h : Inv π s w) (hx : π.exit c = false) (he : π.entry d = false)
    (hd : 0 < π.depth d) (hb : (s c).buf = x :: rest)
    (hgo : ((s c).next = some d ∧ 0 < (s d).credit) ∨ ((s c).next = none ∧ (s d).idle = true))
    {t : Bool} (ht : t = decide (x.2 + 1 = π.size x.1))
    (hc : s' c = { s c with buf := rest, back := (s c).back ++ [t], opened := !t, next := if t then none else some d })
    (hd' : s' d = { s d with wire := (s d).wire ++ [x], credit := (s d).credit - 1, idle := false })
    (hne : ∀ c', c' ≠ c → c' ≠ d → s' c' = s c') :
    c ≠ d ∧ (t = true → rest = []) ∧ ∃ wc, w c = some wc ∧ x = (wc.pkt, wc.left) ∧ wc.left < π.size wc.pkt ∧
      Joins w d wc ∧ Inv π s' (Function.update (Function.update w c (some { wc with left := wc.left + 1 })) d
        (some (grown (w d) wc.pkt (wc.hop + 1)))) := by
  obtain ⟨wc, hwc, hbc⟩ := h.busy (c := c) (by simp [hb])
  obtain ⟨hxe, hlt, hrest, h0, hbc'⟩ := hbc.depart hx hb d
  have h3 := hbc.rcvd_le
  have h4 := hbc.sent_le
  have hsz : wc.left < π.size wc.pkt := by omega
  have ht' : t = decide (wc.left + 1 = π.size wc.pkt) := by rw [ht, hxe]
  -- the channel that is claimed is another one, and carries this packet up to this flit
  obtain ⟨hcd, hjoin, hbd, hpd, hhd, hsd⟩ : c ≠ d ∧ Joins w d wc ∧ Busy π d (s' d) (grown (w d) wc.pkt (wc.hop + 1)) ∧
      (grown (w d) wc.pkt (wc.hop + 1)).pkt = wc.pkt ∧ (grown (w d) wc.pkt (wc.hop + 1)).hop = wc.hop + 1 ∧
      (grown (w d) wc.pkt (wc.hop + 1)).sent = wc.left + 1 := by
    rcases hgo with ⟨hn, hcr⟩ | ⟨hn, hi⟩
    · obtain ⟨w1, wd, h1, h2, hp, hh, hs, -⟩ := h.next c d hn
      obtain rfl : wc = w1 := by rw [hwc] at h1; exact Option.some.inj h1
      have hbd : Busy π d (s d) wd := by have := h.holds d; rwa [h2] at this
      have hacc := hbd.accept he (by rw [hp]; omega) hcr
      refine ⟨?_, Or.inr ⟨wd, h2, hp, hh, hs⟩, ?_, by rw [h2]; exact hp, by rw [h2]; exact hh,
        by rw [h2]; simp [grown, hs]⟩
      · grind
      · rw [h2, hd', hxe, ← hp, ← hs, ← hbd.idle]
        exact hacc
    · obtain ⟨hwd, hf⟩ := (h.holds d).free hi
      have hl0 := h0 hn
      refine ⟨?_, Or.inl ⟨hwd, hl0⟩, ?_, by rw [hwd]; rfl, by rw [hwd]; rfl, by rw [hwd]; simp [grown, hl0]⟩
      · grind
      · rw [hwd, hd', hxe, hl0]
        exact hf.accept he _ (by omega) hd
  -- only the claim of `c` changes, and nobody else has claimed `d`
  have hnc : ∀ e, (s' c).next = some e → d = e := by simp_all
  have hnx : ∀ c', c' ≠ c → (s' c').next = (s c').next := by
    intro c' h1
    by_cases h2 : c' = d
    · rw [h2, hd']
    · rw [hne c' h1 h2]
  have hclaim : ∀ c', c' ≠ c → (s c').next ≠ some d := by
    intro c' h1 hn
    rcases hgo with ⟨hn', -⟩ | ⟨-, hi⟩
    · exact h1 (h.inj c' c d hn hn')
    · exact h.unclaimed ((h.holds d).free hi).1 hn
  refine ⟨hcd, fun htt => hrest (by simpa [htt] using ht'.symm), wc, hwc, hxe, hsz, hjoin, ⟨fun c' => ?_,
    fun c1 e hn => ?_, fun c1 c2 e h1 h2 => ?_⟩⟩
  · by_cases h1 : c' = d
    · subst h1
      rw [update_self]
      exact hbd
    · rw [update_of_ne h1]
      by_cases h2 : c' = c
      · subst h2
        rw [update_self, hc, ht']
        simp only [decide_eq_true_eq]
        exact hbc'
      grind [Inv.holds]
  · by_cases h1 : c1 = c
    · subst h1
      obtain rfl := hnc e hn
      exact ⟨{ wc with left := wc.left + 1 }, grown (w d) wc.pkt (wc.hop + 1),
        by rw [update_of_ne hcd, update_self], update_self .., hpd, hhd, hsd, he⟩
    · have hn' : (s c1).next = some e := hnx c1 h1 ▸ hn
      have hed : e ≠ d := by rintro rfl; exact hclaim c1 h1 hn'
      obtain ⟨w1, w2, hw1, hw2, hp, hh, hs, hen⟩ := h.next c1 e hn'
      -- neither the flits forwarded by `c1` nor those sent on `e` have changed
      obtain ⟨w1', hw1', hp1, hh1, hl1⟩ : ∃ w1', Function.update (Function.update w c
          (some { wc with left := wc.left + 1 })) d (some (grown (w d) wc.pkt (wc.hop + 1))) c1 = some w1' ∧
          w1'.pkt = w1.pkt ∧ w1'.hop = w1.hop ∧ w1'.left = w1.left := by
        by_cases h2 : c1 = d
        · subst h2
          refine ⟨grown (w c1) wc.pkt (wc.hop + 1), update_self .., ?_, ?_, ?_⟩ <;> rw [hw1] <;> rfl
        · exact ⟨w1, by rw [update_of_ne h2, update_of_ne h1]; exact hw1, rfl, rfl, rfl⟩
      obtain ⟨w2', hw2', hp2, hh2, hs2⟩ : ∃ w2', Function.update (Function.update w c
          (some { wc with left := wc.left + 1 })) d (some (grown (w d) wc.pkt (wc.hop + 1))) e = some w2' ∧
          w2'.pkt = w2.pkt ∧ w2'.hop = w2.hop ∧ w2'.sent = w2.sent := by
        rw [update_of_ne hed]
        by_cases h2 : e = c
        · grind
        · exact ⟨w2, by rw [update_of_ne h2]; exact hw2, rfl, rfl, rfl⟩
      exact ⟨w1', w2', hw1', hw2', by rw [hp1, hp2, hp], by rw [hh1, hh2, hh], by rw [hl1, hs2, hs], hen⟩
  · by_cases hc1 : c1 = c <;> by_cases hc2 : c2 = c
    · rw [hc1, hc2]
    · grind
    · grind
    · exact h.inj c1 c2 e (hnx c1 hc1 ▸ h1) (hnx c2 hc2 ▸ h2)

/-! ### The way of a packet -/

/-- A packet takes one channel after the other: it has one channel for each hop, and where it has got
further it has forwarded something. -/
structure Trail (w : C → Option (Worm P)) : Prop where
  uniq : ∀ c c' wc wc', w c = some wc → w c' = some wc' → wc.pkt = wc'.pkt → wc.hop = wc'.hop → c = c'
  lead : ∀ c c' wc wc', w c = some wc → w c' = some wc' → wc.pkt = wc'.pkt → wc.hop < wc'.hop → 0 < wc.left

omit [DecidableEq C] in
lemma Trail.mono {w' : C → Option (Worm P)} (h : Trail w)
    (hw : ∀ c wc', w' c = some wc' → ∃ wc, w c = some wc ∧ wc'.pkt = wc.pkt ∧ wc'.hop = wc.hop ∧ wc.left ≤ wc'.left) :
    Trail w' := by
  constructor
  · intro c c' wc wc' h1 h2 hp hh
    obtain ⟨v, hv, hvp, hvh, -⟩ := hw c wc h1
    obtain ⟨v', hv', hvp', hvh', -⟩ := hw c' wc' h2
    exact h.uniq c c' v v' hv hv' (by rw [← hvp, ← hvp', hp]) (by rw [← hvh, ← hvh', hh])
  · intro c c' wc wc' h1 h2 hp hh
    obtain ⟨v, hv, hvp, hvh, hvl⟩ := hw c wc h1
    obtain ⟨v', hv', hvp', hvh', -⟩ := hw c' wc' h2
    exact lt_of_lt_of_le (h.lead c c' v v' hv hv' (by rw [← hvp, ← hvp', hp]) (by omega)) hvl

lemma Trail.update (h : Trail w) {wc' : Worm P} (hw : w c = some wc) (hp : wc'.pkt = wc.pkt)
    (hh : wc'.hop = wc.hop) (hl : wc.left ≤ wc'.left) : Trail (update w c (some wc')) := by
  grind [Trail.mono]

lemma Trail.remove (h : Trail w) (c : C) : Trail (Function.update w c none) := by grind [Trail.mono]

lemma Trail.extend (h : Trail w) {v : Worm P}
    (hlt : ∀ c wc, w c = some wc → wc.pkt = v.pkt → wc.hop < v.hop ∧ 0 < wc.left) :
    Trail (Function.update w d (some v)) := by
  constructor
  · intro c c' wc wc' h1 h2 hp hh
    by_cases hc : c = d <;> by_cases hc' : c' = d
    · rw [hc, hc']
    · grind
    · grind
    · rw [update_of_ne hc] at h1
      rw [update_of_ne hc'] at h2
      exact h.uniq c c' wc wc' h1 h2 hp hh
  · intro c c' wc wc' h1 h2 hp hh
    by_cases hc : c = d
    · -- nothing is further than the new channel
      grind
    · rw [update_of_ne hc] at h1
      by_cases hc' : c' = d
      · grind
      · rw [update_of_ne hc'] at h2
        exact h.lead c c' wc wc' h1 h2 hp hh

/-- A flit is forwarded from `c` to `d`. -/
lemma Trail.forward (h : Trail w) (hc : w c = some wc) (hcd : c ≠ d) (hj : Joins w d wc) :
    Trail (Function.update (Function.update w c (some { wc with left := wc.left + 1 })) d
      (some (grown (w d) wc.pkt (wc.hop + 1)))) := by
  have h' : Trail (Function.update w c (some { wc with left := wc.left + 1 })) :=
    h.update hc rfl rfl (Nat.le_succ _)
  rcases hj with ⟨hd, h0⟩ | ⟨wd, hd, -⟩
  · rw [hd]
    refine h'.extend fun c' v hv hp => ?_
    by_cases hcc : c' = c
    · subst hcc
      rw [update_self] at hv
      cases hv
      exact ⟨Nat.lt_succ_self _, Nat.succ_pos _⟩
    · rw [update_of_ne hcc] at hv
      -- the worm on `c` has forwarded nothing, so none of its packet is further than `c`
      have hle : v.hop ≤ wc.hop := by
        by_contra hlt
        have := h.lead c c' wc v hc hv hp.symm (by omega)
        omega
      have hne : v.hop ≠ wc.hop := fun he => hcc (h.uniq c' c v wc hv hc hp he)
      have hlt : v.hop < wc.hop := by omega
      exact ⟨Nat.lt_succ_of_lt hlt, h.lead c' c v wc hv hc hp hlt⟩
  · have hd' : Function.update w c (some { wc with left := wc.left + 1 }) d = some wd := by
      rw [update_of_ne hcd.symm, hd]
    rw [hd]
    exact h'.update hd' rfl rfl le_rfl

end Gem5.Lib.Wormhole
