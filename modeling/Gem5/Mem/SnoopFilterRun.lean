import Gem5.Mem.SnoopFilter

/-!
# What the requested bits of a snoop filter say

In every run the requested bit of a line and a port is set exactly while the port has a request for the line that was
accepted and not answered (`Tracked`). What happens to the map is one change of one item for each call (`item`); an entry
that is erased has an empty item, which is what `item` says of a line without an entry.
-/

namespace Gem5.Mem

open Lib List Sat

/-! ### Ports and masks -/

namespace SnoopParams

variable {c : SnoopParams} {p q : ℕ} {m : SnoopMask}

def Has (c : SnoopParams) (m : SnoopMask) (port : ℕ) : Prop := m &&& c.portToMask port ≠ 0

lemma localId_succ (h : c.isSnooping p = true) : c.localId (p + 1) = c.localId p + 1 := by
  have hget : c.snooping[p]? = some true := by
    unfold isSnooping at h
    grind
  rw [localId, localId, take_add_one, hget, count_append]
  rfl

lemma localId_mono (h : p ≤ q) : c.localId p ≤ c.localId q :=
  (take_sublist_take_left h).count_le true

lemma localId_lt (h : c.isSnooping p = true) (hpq : p < q) : c.localId p < c.localId q := by
  have hmono := localId_mono (c := c) (show p + 1 ≤ q from hpq)
  rw [localId_succ h] at hmono
  exact hmono

lemma localId_lt_size (h : c.isSnooping p = true) : c.localId p < 256 := by
  have hsucc := localId_succ h
  have hle : c.localId (p + 1) ≤ c.snooping.count true := (take_sublist _ _).count_le true
  have hfits := c.fits
  omega

lemma localId_inj (hp : c.isSnooping p = true) (hq : c.isSnooping q = true) : c.localId p = c.localId q ↔ p = q := by
  constructor
  · intro h
    by_contra hne
    rcases Nat.lt_or_gt_of_ne hne with hlt | hlt
    · exact absurd h (Nat.ne_of_lt (localId_lt hp hlt))
    · exact absurd h.symm (Nat.ne_of_lt (localId_lt hq hlt))
  · rintro rfl
    rfl

lemma has_iff (hp : c.isSnooping p = true) : c.Has m p ↔ m.getLsbD (c.localId p) = true := by
  have hlt := localId_lt_size hp
  have hne : BitVec.twoPow 256 (c.localId p) ≠ 0 := by
    intro h
    have hbit := congrArg (fun m : SnoopMask => m.getLsbD (c.localId p)) h
    simp [hlt] at hbit
  grind [Has, portToMask]

lemma not_has_zero : ¬ c.Has 0 p := by
  simp [Has]

section

variable (hp : c.isSnooping p = true) (hq : c.isSnooping q = true)
include hp hq

lemma getLsbD_portToMask : (c.portToMask p).getLsbD (c.localId q) = decide (q = p) := by
  simp_all [portToMask, localId_lt_size, localId_inj]

lemma has_or : c.Has (m ||| c.portToMask p) q ↔ c.Has m q ∨ q = p := by simp_all [has_iff, getLsbD_portToMask]

lemma has_and_not : c.Has (m &&& ~~~ c.portToMask p) q ↔ c.Has m q ∧ q ≠ p := by
  grind [has_iff, getLsbD_portToMask, localId_lt_size]

end

lemma Has.ne_zero (h : c.Has m p) : m ≠ 0 := by
  rintro rfl
  exact not_has_zero h

lemma lineAddr_eq_iff {a b : Packet} : c.lineAddr a = c.lineAddr b ↔ SnoopRun.SameLine c a b := by
  -- the lowest bit of a block address is free
  have hfree : ∀ p : Packet, (p.getBlockAddr c.linesize).getLsbD 0 = false := by
    intro p
    have heven := c.even
    have hpos := c.pos
    have hodd : (c.linesize - 1).testBit 0 = true := by
      rw [Nat.testBit_zero]
      simp
      omega
    rw [Packet.getBlockAddr, BitVec.getLsbD_and, BitVec.getLsbD_not, BitVec.getLsbD_ofNat, hodd]
    simp
  constructor
  · intro h
    have hbit : ∀ i, (c.lineAddr a).getLsbD i = (c.lineAddr b).getLsbD i := fun i => by rw [h]
    have hline : ∀ (p : Packet) i, (c.lineAddr p).getLsbD i =
        ((p.getBlockAddr c.linesize).getLsbD i || (decide (i = 0) && p.isSecure)) := by grind [lineAddr]
    have hsec : a.isSecure = b.isSecure := by
      have h0 := hbit 0
      grind
    refine ⟨BitVec.eq_of_getLsbD_eq fun i hi => ?_, hsec⟩
    grind
  · rintro ⟨hblk, hsec⟩
    rw [lineAddr, lineAddr, hblk, hsec]

end SnoopParams

def SnoopItem.Null (i : SnoopItem) : Prop := i.requested ||| i.holder = 0

/-- The faults that are about other things than requests: who holds a line, how many there are, and what packets are
passed. -/
def SnoopFault.Other : SnoopFault → Prop
  | .needToHold | .notHolder | .capacity | .noLine | .packet => True
  | _ => False

namespace SnoopFilter

open SnoopParams

variable {c : SnoopParams} {f f' : SnoopFilter} {line l : Addr} {i : SnoopItem} {pkt : Packet} {port q : ℕ}

/-! ### Items -/

/-- The item of a line, which is empty if the line has no entry. -/
def item (f : SnoopFilter) (line : Addr) : SnoopItem := (f.cachedLocations.lookup line).getD {}

lemma item_of_lookup (h : f.cachedLocations.lookup line = some i) : f.item line = i := by
  rw [item, h]
  rfl

lemma item_of_none (h : f.cachedLocations.lookup line = none) : f.item line = {} := by
  rw [item, h]
  rfl

/-- The entry of a line, if there is one, has a bit. -/
def Live (f : SnoopFilter) (line : Addr) : Prop := ∀ i, f.cachedLocations.lookup line = some i → ¬ i.Null

/-- Nothing but the entry of a line changed. -/
structure Frame (f f' : SnoopFilter) (line : Addr) : Prop where
  other : ∀ l, l ≠ line → f'.cachedLocations.lookup l = f.cachedLocations.lookup l
  it : f'.it = f.it
  retryItem : f'.retryItem = f.retryItem

lemma Frame.refl (f : SnoopFilter) (line : Addr) : Frame f f line := ⟨fun _ _ => rfl, rfl, rfl⟩

lemma Frame.trans {f'' : SnoopFilter} (h : Frame f f' line) (h' : Frame f' f'' line) : Frame f f'' line :=
  ⟨fun l hl => (h'.other l hl).trans (h.other l hl), h'.it.trans h.it, h'.retryItem.trans h.retryItem⟩

lemma Frame.item_eq (h : Frame f f' line) (hl : l ≠ line) : f'.item l = f.item l := by
  rw [item, item, h.other l hl]

lemma Frame.live (h : Frame f f' line) (hl : l ≠ line) (hlive : f.Live l) : f'.Live l := by
  intro i hi
  rw [h.other l hl] at hi
  exact hlive i hi

lemma frame_setItem (f : SnoopFilter) (line : Addr) (i : SnoopItem) : Frame f (f.setItem line i) line :=
  ⟨fun _ hl => Finmap.lookup_insert_of_ne _ hl, rfl, rfl⟩

lemma lookup_setItem (f : SnoopFilter) (line : Addr) (i : SnoopItem) :
    (f.setItem line i).cachedLocations.lookup line = some i := Finmap.lookup_insert _

lemma item_setItem (f : SnoopFilter) (line : Addr) (i : SnoopItem) : (f.setItem line i).item line = i :=
  item_of_lookup (lookup_setItem f line i)

lemma eraseIfNullEntry_spec (f : SnoopFilter) (line : Addr) :
    Frame f (f.eraseIfNullEntry line) line ∧ (f.eraseIfNullEntry line).item line = f.item line ∧
      (f.eraseIfNullEntry line).Live line := by
  rw [eraseIfNullEntry]
  cases h : f.cachedLocations.lookup line with
  | none => exact ⟨.refl _ _, rfl, fun i hi => by rw [h] at hi; cases hi⟩
  | some i =>
    by_cases hnull : i.requested ||| i.holder = 0
    · have hzero : i = {} := by
        obtain ⟨hr, hh⟩ := BitVec.or_eq_zero_iff.mp hnull
        cases i
        cases hr
        cases hh
        rfl
      simp only [if_pos hnull]
      refine ⟨⟨fun l hl => Finmap.lookup_erase_ne hl, rfl, rfl⟩, ?_, fun i hi => ?_⟩
      · simp_all [item_of_lookup, item_of_none]
      · rw [Finmap.lookup_erase] at hi
        cases hi
    · simp only [if_neg hnull]
      refine ⟨.refl _ _, trivial, fun i' hi' => ?_⟩
      rw [h] at hi'
      cases hi'
      exact hnull

/-- The item of a line was changed, and no empty entry was left. -/
structure Changed (f f' : SnoopFilter) (line : Addr) (i : SnoopItem) : Prop extends Frame f f' line where
  item : f'.item line = i
  live : f'.Live line

lemma changed_refl (h : f.Live line) : Changed f f line (f.item line) := ⟨.refl _ _, rfl, h⟩

lemma changed_erase (f : SnoopFilter) (line : Addr) (i : SnoopItem) :
    Changed f ((f.setItem line i).eraseIfNullEntry line) line i := by
  obtain ⟨hframe, hitem, hlive⟩ := (f.setItem line i).eraseIfNullEntry_spec line
  exact ⟨(frame_setItem f line i).trans hframe, hitem.trans (item_setItem f line i), hlive⟩

lemma changed_set (f : SnoopFilter) (line : Addr) (h : ¬ i.Null) : Changed f (f.setItem line i) line i := by
  refine ⟨frame_setItem f line i, item_setItem f line i, fun i' hi' => ?_⟩
  rw [lookup_setItem] at hi'
  cases hi'
  exact h

/-! ### The calls -/

lemma sat_packet (b : Bool) : Sat SnoopFault.Other (fun _ => b = true) (ensure b .packet) := ensure fun _ => trivial

lemma lookupSnoop_sat (hlive : f.Live (c.lineAddr pkt)) :
    Sat SnoopFault.Other (fun r => ∃ i, Changed f r.2 (c.lineAddr pkt) i ∧ i.requested = (f.item (c.lineAddr pkt)).requested)
      (f.lookupSnoop c pkt) := by
  rw [lookupSnoop]
  refine (sat_packet _).bind fun _ _ => ?_
  dsimp only
  cases h : f.cachedLocations.lookup (c.lineAddr pkt) with
  | none =>
    refine bind (Q := fun _ => True) ?_ fun _ _ => ⟨_, changed_refl hlive, rfl⟩
    exact (ensure fun _ => trivial).mono fun _ _ => trivial
  | some i =>
    refine (sat_packet _).bind fun _ _ => ?_
    change ∃ _, _
    grind [changed_erase, item_of_lookup, changed_refl]

lemma updateSnoopForward_sat (hlive : f.Live (c.lineAddr pkt)) :
    Sat SnoopFault.Other (fun f' => ∃ i, Changed f f' (c.lineAddr pkt) i ∧ i.requested = (f.item (c.lineAddr pkt)).requested)
      (f.updateSnoopForward c pkt) := by
  rw [updateSnoopForward]
  refine (sat_packet _).bind fun _ _ => (sat_packet _).bind fun _ _ => ?_
  dsimp only
  cases h : f.cachedLocations.lookup (c.lineAddr pkt) with
  | none => exact ⟨_, changed_refl hlive, rfl⟩
  | some i =>
    refine ite (fun _ => ?_) fun _ => ?_
    · exact ⟨_, changed_refl hlive, rfl⟩
    · refine ⟨_, changed_erase f _ _, ?_⟩
      rw [item_of_lookup h]

lemma not_null_of_holder {r h : SnoopMask} (hport : c.isSnooping port = true) :
    ¬ SnoopItem.Null { requested := r, holder := h ||| c.portToMask port } := by
  intro hnull
  obtain ⟨-, hh⟩ := BitVec.or_eq_zero_iff.mp hnull
  exact Has.ne_zero ((has_or hport hport).mpr (.inr rfl)) hh

section

variable {rspPort : ℕ} (hunc : pkt.req.uncacheable = false) (hport : c.isSnooping port = true)
  (hbit : c.Has (f.item (c.lineAddr pkt)).requested port)
include hunc hport hbit

lemma updateResponse_sat : Sat SnoopFault.Other (fun f' => ∃ i, Changed f f' (c.lineAddr pkt) i ∧
      i.requested = (f.item (c.lineAddr pkt)).requested &&& ~~~ c.portToMask port) (f.updateResponse c pkt port) := by
  rw [updateResponse]
  refine (sat_packet _).bind fun _ _ => ?_
  rw [if_neg (by simp [hunc, hport])]
  dsimp only
  cases h : f.cachedLocations.lookup (c.lineAddr pkt) with
  | none =>
    rw [item_of_none h] at hbit
    exact absurd hbit not_has_zero
  | some i =>
    rw [item_of_lookup h] at hbit ⊢
    refine of_ensure (bne_iff_ne.mpr hbit) (ite (fun _ => ?_) fun _ => ?_)
    · refine ⟨_, changed_erase f _ _, ?_⟩
      split <;> rfl
    · have hnull := not_null_of_holder (r := i.requested &&& ~~~ c.portToMask port) (h := i.holder) hport
      refine of_ensure (bne_iff_ne.mpr ?_) ⟨_, changed_set f _ hnull, rfl⟩
      rw [BitVec.or_comm]
      exact hnull

lemma updateSnoopResponse_sat : Sat SnoopFault.Other (fun f' => ∃ i, Changed f f' (c.lineAddr pkt) i ∧
      i.requested = (f.item (c.lineAddr pkt)).requested &&& ~~~ c.portToMask port)
      (f.updateSnoopResponse c pkt rspPort port) := by
  rw [updateSnoopResponse]
  refine (sat_packet _).bind fun _ _ => (sat_packet _).bind fun _ _ => ?_
  rw [if_neg (by simp [hunc, hport])]
  have hnull := fun h => not_null_of_holder (r := (f.item (c.lineAddr pkt)).requested &&& ~~~ c.portToMask port) (h := h) hport
  refine bind (Q := fun _ => True) ?_ fun _ _ => ?_
  · exact (ensure fun _ => trivial).mono fun _ _ => trivial
  · refine of_ensure (bne_iff_ne.mpr hbit) ((sat_packet _).bind fun _ _ => ?_)
    dsimp only
    cases pkt.hasSharers with
    | true => exact of_ensure (bne_iff_ne.mpr (hnull _)) ⟨_, changed_set f _ (hnull _), rfl⟩
    | false => exact of_ensure (bne_iff_ne.mpr (hnull _)) ⟨_, changed_set f _ (hnull _), rfl⟩

end

/-- What `lookupRequest` leaves for `finishRequest`: there is no entry, or the iterator points to the one that was looked
up, and what it was is kept. -/
structure Opened (c : SnoopParams) (f f' : SnoopFilter) (pkt : Packet) : Prop where
  other : ∀ l, l ≠ c.lineAddr pkt → f'.cachedLocations.lookup l = f.cachedLocations.lookup l
  entry : (f'.it = none ∧ f'.cachedLocations = f.cachedLocations ∧ f.cachedLocations.lookup (c.lineAddr pkt) = none) ∨
    (f'.it = some (c.lineAddr pkt) ∧ (f'.cachedLocations.lookup (c.lineAddr pkt)).isSome ∧
      f'.retryItem = f.item (c.lineAddr pkt))

lemma requestItem_sat (hport : c.isSnooping port = true)
    (hnew : pkt.cmd.needsResponse = true → pkt.cacheResponding = false → ¬ c.Has i.requested port) :
    Sat SnoopFault.Other (fun i' => ∀ q, c.isSnooping q = true → (c.Has i'.requested q ↔ c.Has i.requested q ∨
      (pkt.cmd.needsResponse = true ∧ pkt.cacheResponding = false) ∧ q = port)) (requestItem pkt (c.portToMask port) i) := by
  unfold requestItem
  refine ite (fun hneeds => ite (fun hresp => ?_) fun hresp => ?_) fun hneeds => ?_
  · have hmarked : pkt.cacheResponding = false := by simpa using hresp
    refine of_ensure (by simpa [Has] using hnew hneeds hmarked) fun q hq => ?_
    rw [has_or hport hq]
    simp [hneeds, hmarked]
  · refine bind (Q := fun _ => True) ((ensure fun _ => trivial).mono fun _ _ => trivial) fun _ _ q _ => ?_
    simp_all
  · refine (sat_packet _).bind fun _ _ => ?_
    refine bind (Q := fun _ => True) ((ensure fun _ => trivial).mono fun _ _ => trivial) fun _ _ q _ => ?_
    grind

lemma lookupRequest_sat (halloc : pkt.req.uncacheable = false → c.isSnooping port = true → pkt.cmd.fromCache = true)
    (hnew : SnoopRun.Tracked c (port, pkt) → ¬ c.Has (f.item (c.lineAddr pkt)).requested port) :
    Sat SnoopFault.Other (fun r => Opened c f r.2 pkt ∧
      ∀ q, c.isSnooping q = true → (c.Has (r.2.item (c.lineAddr pkt)).requested q ↔
        c.Has (f.item (c.lineAddr pkt)).requested q ∨ SnoopRun.Tracked c (port, pkt) ∧ q = port)) (f.lookupRequest c pkt port) := by
  rw [lookupRequest]
  dsimp only
  -- only requests that allocate are tracked
  have hskip : (!pkt.req.uncacheable && c.isSnooping port && pkt.cmd.fromCache) = false → ¬ SnoopRun.Tracked c (port, pkt) := by
    rintro hno ⟨-, -, hunc, hport⟩
    simp_all
  refine ite (fun hmiss => ?_) fun _ => ite (fun hno => ?_) fun hyes => ?_
  · rw [Bool.and_eq_true, Option.isNone_iff_eq_none, Bool.not_eq_true'] at hmiss
    refine ⟨⟨fun _ _ => rfl, .inl ⟨rfl, rfl, hmiss.1⟩⟩, fun q _ => ?_⟩
    simp only [hskip hmiss.2, false_and, or_false]
    rfl
  · refine ⟨⟨fun l hl => (frame_setItem f _ _).other l hl, .inr ⟨rfl, ?_, rfl⟩⟩, fun q _ => ?_⟩
    · exact Option.isSome_of_eq_some (lookup_setItem f _ _)
    · simp only [hskip (Bool.not_eq_true' _ ▸ hno), false_and, or_false]
      change c.Has ((f.setItem (c.lineAddr pkt) (f.item (c.lineAddr pkt))).item _).requested q ↔ _
      rw [item_setItem]
  · have hyes' : pkt.req.uncacheable = false ∧ c.isSnooping port = true ∧ pkt.cmd.fromCache = true := by
      simpa [and_assoc] using hyes
    obtain ⟨hunc, hport, -⟩ := hyes'
    refine (requestItem_sat hport fun hneeds hmarked => hnew ⟨hneeds, hmarked, hunc, hport⟩).bind fun i hi => ?_
    refine ⟨⟨fun l hl => ?_, .inr ⟨rfl, ?_, rfl⟩⟩, fun q hq => ?_⟩
    · exact (Finmap.lookup_insert_of_ne _ hl).trans (Finmap.lookup_insert_of_ne _ hl)
    · exact Option.isSome_of_eq_some (lookup_setItem _ _ i)
    · dsimp only
      rw [item_setItem, hi q hq]
      simp only [SnoopRun.Tracked, hunc, hport, and_true]

lemma finishRequest_sat {willRetry : Bool} (hit : f.it = some (c.lineAddr pkt))
    (hsome : (f.cachedLocations.lookup (c.lineAddr pkt)).isSome) :
    Sat SnoopFault.Other (fun f' => (∀ l, l ≠ c.lineAddr pkt → f'.cachedLocations.lookup l = f.cachedLocations.lookup l) ∧
      f'.item (c.lineAddr pkt) = (if willRetry then f.retryItem else f.item (c.lineAddr pkt)) ∧ f'.Live (c.lineAddr pkt))
      (f.finishRequest c willRetry pkt) := by
  rw [finishRequest, hit]
  refine of_ensure hsome (of_ensure (beq_self_eq_true _) ?_)
  cases willRetry with
  | true =>
    have h := changed_erase f (c.lineAddr pkt) f.retryItem
    exact ⟨h.other, h.item, h.live⟩
  | false =>
    obtain ⟨hframe, hitem, hlive⟩ := f.eraseIfNullEntry_spec (c.lineAddr pkt)
    exact ⟨hframe.other, hitem, hlive⟩

end SnoopFilter

/-! ### The invariant -/

namespace SnoopRun

open SnoopParams SnoopFilter

variable {c : SnoopParams} {s s' : SnoopRun} {x : ℕ × Packet} {xs ys : List (ℕ × Packet)} {port : ℕ} {line : Addr}

/-- One of the requests sets the bit of the line and the port. -/
def Bit (c : SnoopParams) (xs : List (ℕ × Packet)) (port : ℕ) (line : Addr) : Prop :=
  ∃ x ∈ xs, Tracked c x ∧ x.1 = port ∧ c.lineAddr x.2 = line

def Unique (c : SnoopParams) (xs : List (ℕ × Packet)) : Prop :=
  xs.Pairwise fun x y => Tracked c x → Tracked c y → ¬ (x.1 = y.1 ∧ c.lineAddr x.2 = c.lineAddr y.2)

lemma bit_cons : Bit c (x :: xs) port line ↔ (Tracked c x ∧ x.1 = port ∧ c.lineAddr x.2 = line) ∨ Bit c xs port line := by
  simp [Bit]

lemma bit_cons_of_not (h : ¬ Tracked c x) : Bit c (x :: xs) port line ↔ Bit c xs port line := by
  simp [bit_cons, h]

lemma bit_cons_of_ne (h : c.lineAddr x.2 ≠ line) : Bit c (x :: xs) port line ↔ Bit c xs port line := by
  simp [bit_cons, h]

lemma bit_perm (h : xs.Perm ys) : Bit c xs port line ↔ Bit c ys port line := by
  simp only [Bit, h.mem_iff]

lemma Unique.perm (hu : Unique c xs) (h : xs.Perm ys) : Unique c ys :=
  (h.pairwise_iff fun {_ _} hxy hy hx hsame => hxy hx hy ⟨hsame.1.symm, hsame.2.symm⟩).mp hu

lemma Unique.bit_tail (hu : Unique c (x :: xs)) (hx : Tracked c x) :
    Bit c xs port line ↔ Bit c (x :: xs) port line ∧ ¬ (x.1 = port ∧ c.lineAddr x.2 = line) := by
  have hno := (pairwise_cons.mp hu).1
  rw [bit_cons]
  constructor
  · rintro ⟨y, hy, hty, rfl, rfl⟩
    exact ⟨.inr ⟨y, hy, hty, rfl, rfl⟩, hno y hy hx hty⟩
  grind

/-- The requests that may have set a bit. -/
def requests (s : SnoopRun) : List (ℕ × Packet) := s.pending.toList ++ s.outstanding

structure Inv (c : SnoopParams) (s : SnoopRun) : Prop where
  bits : ∀ port, c.isSnooping port = true → ∀ line, c.Has (s.filter.item line).requested port ↔ Bit c s.requests port line
  unique : Unique c s.requests
  live : ∀ line, (∀ x, s.pending = some x → c.lineAddr x.2 ≠ line) → s.filter.Live line
  accepted : ∀ x ∈ s.outstanding, x.2.cmd.needsResponse = true ∧ x.2.cacheResponding = false
  /-- Between `lookupRequest` and `finishRequest`. -/
  opened : ∀ x, s.pending = some x → (s.filter.it = none ∧ s.filter.cachedLocations.lookup (c.lineAddr x.2) = none) ∨
    (s.filter.it = some (c.lineAddr x.2) ∧ (s.filter.cachedLocations.lookup (c.lineAddr x.2)).isSome ∧
      ∀ port, c.isSnooping port = true →
        (c.Has s.filter.retryItem.requested port ↔ Bit c s.outstanding port (c.lineAddr x.2)))

lemma inv_init : Inv c init where
  bits port _ line := by
    rw [show init.filter.item line = {} from item_of_none (Finmap.lookup_empty line)]
    refine iff_of_false not_has_zero ?_
    rintro ⟨x, hx, -⟩
    cases hx
  unique := List.Pairwise.nil
  live line _ i hi := by
    rw [show init.filter.cachedLocations.lookup line = none from Finmap.lookup_empty line] at hi
    cases hi
  accepted x hx := by cases hx
  opened x hx := by cases hx

variable {pkt request : Packet} {f' : SnoopFilter} {willRetry : Bool}

lemma Inv.of_changed (h : Inv c s) {i : SnoopItem} {out : List (ℕ × Packet)}
    (helse : s.Elsewhere c pkt) (hch : Changed s.filter f' (c.lineAddr pkt) i)
    (hbits : ∀ port, c.isSnooping port = true → ∀ line, c.Has (f'.item line).requested port ↔
      Bit c (s.pending.toList ++ out) port line)
    (hunique : Unique c (s.pending.toList ++ out)) (hsub : ∀ x ∈ out, x ∈ s.outstanding)
    (hout : ∀ port line, line ≠ c.lineAddr pkt → (Bit c out port line ↔ Bit c s.outstanding port line)) :
    Inv c { s with filter := f', outstanding := out } := by
  have hne : ∀ x, s.pending = some x → c.lineAddr x.2 ≠ c.lineAddr pkt := by
    intro x hx heq
    exact helse x hx (lineAddr_eq_iff.mp heq.symm)
  refine ⟨hbits, hunique, fun line hline => ?_, fun x hx => h.accepted x (hsub x hx), fun x hx => ?_⟩
  · by_cases heq : line = c.lineAddr pkt
    · subst heq
      exact hch.live
    · exact hch.toFrame.live heq (h.live line hline)
  · rcases h.opened x hx with ⟨hit, hnone⟩ | ⟨hit, hsome, hretry⟩
    · exact .inl ⟨hch.it.trans hit, (hch.other _ (hne x hx)).trans hnone⟩
    · refine .inr ⟨hch.it.trans hit, ?_, fun port hport => ?_⟩
      · rw [hch.other _ (hne x hx)]
        exact hsome
      · rw [hch.retryItem, hretry port hport, hout port _ (hne x hx)]

lemma Inv.of_same (h : Inv c s) {i : SnoopItem} (helse : s.Elsewhere c pkt)
    (hch : Changed s.filter f' (c.lineAddr pkt) i) (hreq : i.requested = (s.filter.item (c.lineAddr pkt)).requested) :
    Inv c { s with filter := f' } := by
  refine h.of_changed helse hch (fun port hport line => ?_) h.unique (fun _ hx => hx) fun _ _ _ => Iff.rfl
  by_cases heq : line = c.lineAddr pkt
  · subst heq
    rw [hch.item, hreq]
    exact h.bits port hport _
  · rw [hch.toFrame.item_eq heq]
    exact h.bits port hport line

lemma requests_perm (hx : x ∈ s.outstanding) : s.requests.Perm (x :: (s.pending.toList ++ s.outstanding.erase x)) :=
  ((perm_cons_erase hx).append_left _).trans perm_middle

lemma Inv.of_response (h : Inv c s) (hans : s.Answers c pkt port request)
    (hunc : pkt.req.uncacheable = false) (hport : c.isSnooping port = true) :
    c.Has (s.filter.item (c.lineAddr pkt)).requested port ∧
    ∀ f' i, s.Elsewhere c pkt → Changed s.filter f' (c.lineAddr pkt) i →
      i.requested = (s.filter.item (c.lineAddr pkt)).requested &&& ~~~ c.portToMask port →
      Inv c { s with filter := f', outstanding := s.outstanding.erase (port, request) } := by
  obtain ⟨hmem, hline, hreq⟩ := hans
  have hline := lineAddr_eq_iff.mpr hline
  obtain ⟨hneeds, hmarked⟩ := h.accepted _ hmem
  have htracked : Tracked c (port, request) := ⟨hneeds, hmarked, hreq ▸ hunc, hport⟩
  have hperm := requests_perm hmem
  have hunique := h.unique.perm hperm
  refine ⟨?_, fun f' i helse hch hi => ?_⟩
  · refine (h.bits port hport _).mpr ((bit_perm hperm).mpr ?_)
    exact ⟨_, mem_cons_self .., htracked, rfl, hline.symm⟩
  · refine h.of_changed helse hch (fun q hq line => ?_) (pairwise_cons.mp hunique).2
      (fun _ hx => mem_of_mem_erase hx) fun q line hne => ?_
    · rw [hunique.bit_tail htracked, ← bit_perm hperm, ← h.bits q hq line]
      by_cases heq : line = c.lineAddr pkt
      · grind [Changed.item, has_and_not]
      · rw [hch.toFrame.item_eq heq]
        grind
    · rw [bit_perm (perm_cons_erase hmem), bit_cons_of_ne]
      exact fun heq => hne (heq.symm.trans hline.symm)

lemma Inv.of_untracked (h : Inv c s) (hans : s.Answers c pkt port request)
    (hno : (pkt.req.uncacheable || !c.isSnooping port) = true) :
    Inv c { s with outstanding := s.outstanding.erase (port, request) } := by
  obtain ⟨hmem, -, hreq⟩ := hans
  have huntracked : ¬ Tracked c (port, request) := by
    rintro ⟨-, -, hunc, hport⟩
    simp_all
  have hperm := requests_perm hmem
  refine ⟨fun q hq line => ?_, (pairwise_cons.mp (h.unique.perm hperm)).2, h.live,
    fun x hx => h.accepted x (mem_of_mem_erase hx), fun x hx => ?_⟩
  · rw [h.bits q hq line, bit_perm hperm, bit_cons_of_not huntracked]
    rfl
  · refine (h.opened x hx).imp id fun ⟨hit, hsome, hretry⟩ => ⟨hit, hsome, fun q hq => ?_⟩
    rw [hretry q hq, bit_perm (perm_cons_erase hmem), bit_cons_of_not huntracked]

lemma Inv.bits_outstanding (h : Inv c s) (hpending : s.pending = none) (hport : c.isSnooping port = true) (line : Addr) :
    c.Has (s.filter.item line).requested port ↔ Bit c s.outstanding port line := by
  simp_all [Inv.bits, requests]

lemma Inv.lookupRequest_opened (h : Inv c s) (hk : s.Allowed c (.lookupRequest port pkt)) :
    Sat SnoopFault.Other (fun r => Opened c s.filter r.2 pkt ∧
      ∀ q, c.isSnooping q = true → (c.Has (r.2.item (c.lineAddr pkt)).requested q ↔
        c.Has (s.filter.item (c.lineAddr pkt)).requested q ∨ Tracked c (port, pkt) ∧ q = port))
      (s.filter.lookupRequest c pkt port) := by
  obtain ⟨hpending, halloc, hone⟩ := hk
  refine lookupRequest_sat halloc fun ht hhas => ?_
  obtain ⟨x, hx, htx, hxp, hxl⟩ := (h.bits_outstanding hpending ht.2.2.2 _).mp hhas
  exact hone ht x hx htx ⟨hxp, lineAddr_eq_iff.mp hxl.symm⟩

lemma Inv.lookupRequest (h : Inv c s) (hk : s.Allowed c (.lookupRequest port pkt)) :
    Sat SnoopFault.Other (Inv c) (s.call c (.lookupRequest port pkt)) := by
  refine (h.lookupRequest_opened hk).bind fun r hr => ?_
  obtain ⟨hpending, -, hone⟩ := hk
  obtain ⟨hopened, hreq⟩ := hr
  have hbits : ∀ q, c.isSnooping q = true → ∀ line, _ := fun q hq => h.bits_outstanding hpending hq
  have hunique := h.unique
  rw [requests, hpending] at hunique
  refine ⟨fun q hq line => ?_, ?_, fun line hline i hi => ?_, h.accepted, fun x hx => ?_⟩
  · change _ ↔ Bit c ((port, pkt) :: s.outstanding) q line
    by_cases heq : c.lineAddr pkt = line
    · grind [bit_cons]
    · rw [bit_cons_of_ne heq, ← hbits q hq line, item, item, hopened.other line (Ne.symm heq)]
  · change Unique c ((port, pkt) :: s.outstanding)
    refine pairwise_cons.mpr ⟨fun y hy ht hty hsame => ?_, hunique⟩
    exact hone ht y hy hty ⟨hsame.1.symm, lineAddr_eq_iff.mp hsame.2⟩
  · have hne : line ≠ c.lineAddr pkt := fun heq => hline _ rfl heq.symm
    rw [hopened.other line hne] at hi
    exact h.live line (fun x hx => by rw [hpending] at hx; cases hx) i hi
  · cases hx
    rcases hopened.entry with ⟨hit, hsame, hnone⟩ | ⟨hit, hsome, hretry⟩
    · exact .inl ⟨hit, by rw [hsame]; exact hnone⟩
    · exact .inr ⟨hit, hsome, fun q hq => by rw [hretry]; exact hbits q hq _⟩

lemma bit_accepted :
    Bit c (if !willRetry && x.2.cmd.needsResponse && !x.2.cacheResponding then x :: xs else xs) port line ↔
      (willRetry = false ∧ Tracked c x ∧ x.1 = port ∧ c.lineAddr x.2 = line) ∨ Bit c xs port line := by
  split
  · simp_all [bit_cons]
  · rename_i hacc
    have hno : ¬ (willRetry = false ∧ Tracked c x) := by
      rintro ⟨rfl, hneeds, hmarked, -⟩
      exact hacc (by simp [hneeds, hmarked])
    simp_all

lemma Inv.of_finished (h : Inv c s) (hpending : s.pending = some x)
    (hother : ∀ l, l ≠ c.lineAddr x.2 → f'.cachedLocations.lookup l = s.filter.cachedLocations.lookup l)
    (hlive : f'.Live (c.lineAddr x.2))
    (hbits : ∀ q, c.isSnooping q = true → (c.Has (f'.item (c.lineAddr x.2)).requested q ↔
      (willRetry = false ∧ Tracked c x ∧ x.1 = q) ∨ Bit c s.outstanding q (c.lineAddr x.2))) :
    Inv c { s with
        filter := f'
        outstanding :=
          if !willRetry && x.2.cmd.needsResponse && !x.2.cacheResponding then x :: s.outstanding else s.outstanding
        pending := none } := by
  have hrequests : s.requests = x :: s.outstanding := by
    rw [requests, hpending]
    rfl
  refine ⟨fun q hq line => ?_, ?_, fun line _ => ?_, fun y hy => ?_, fun y hy => by cases hy⟩
  · change _ ↔ Bit c (if _ then _ else _) q line
    rw [bit_accepted]
    by_cases heq : c.lineAddr x.2 = line
    · subst heq
      rw [hbits q hq]
      simp
    · have hsame : f'.item line = s.filter.item line := by
        rw [item, item, hother line (Ne.symm heq)]
      simp_all [Inv.bits, bit_cons_of_ne]
  · change Unique c (if _ then _ else _)
    have hunique := h.unique
    rw [hrequests] at hunique
    split
    · exact hunique
    · exact (pairwise_cons.mp hunique).2
  · by_cases heq : line = c.lineAddr x.2
    · subst heq
      exact hlive
    · intro i hi
      rw [hother line heq] at hi
      refine h.live line (fun y hy hline => heq ?_) i hi
      simp_all
  grind [Inv.accepted]

lemma Inv.finishRequest (h : Inv c s) : Sat SnoopFault.Other (Inv c) (s.call c (.finishRequest willRetry)) := by
  cases hpending : s.pending with
  | none =>
    rw [call, hpending]
    exact h
  | some x =>
    rw [call, hpending]
    have hbits := h.bits
    rw [show s.requests = x :: s.outstanding by rw [requests, hpending]; rfl] at hbits
    rcases h.opened x hpending with ⟨hit, hnone⟩ | ⟨hit, hsome, hretry⟩
    · -- nothing was allocated, so the request is not one with a bit
      have huntracked : ¬ Tracked c x := by
        intro ht
        have hhas := (hbits x.1 ht.2.2.2 (c.lineAddr x.2)).mpr (bit_cons.mpr (.inl ⟨ht, rfl, rfl⟩))
        rw [item_of_none hnone] at hhas
        exact not_has_zero hhas
      have hrun : s.filter.finishRequest c willRetry x.2 = .ok s.filter := by
        rw [SnoopFilter.finishRequest, hit]
      change Sat _ _ (s.filter.finishRequest c willRetry x.2 >>= _)
      rw [hrun]
      refine h.of_finished hpending (fun _ _ => rfl) (fun i hi => by rw [hnone] at hi; cases hi) fun q hq => ?_
      simp_all [bit_cons_of_not]
    · refine (finishRequest_sat hit hsome).bind fun f' hf' => ?_
      obtain ⟨hother, hitem, hlive⟩ := hf'
      refine h.of_finished hpending hother hlive fun q hq => ?_
      grind [bit_cons]

/-- A call between `lookupRequest` and `finishRequest` keeps what the latter needs. -/
def Kept (s s' : SnoopRun) : Prop :=
  s'.pending = s.pending ∧ s'.filter.it = s.filter.it ∧ s'.filter.retryItem = s.filter.retryItem

lemma Inv.response (h : Inv c s) (helse : s.Elsewhere c pkt) (hans : s.Answers c pkt port request)
    {update : Except SnoopFault SnoopFilter}
    (huntracked : (pkt.req.uncacheable || !c.isSnooping port) = true → Sat SnoopFault.Other (fun f' => f' = s.filter) update)
    (htracked : pkt.req.uncacheable = false → c.isSnooping port = true →
      c.Has (s.filter.item (c.lineAddr pkt)).requested port →
      Sat SnoopFault.Other (fun f' => ∃ i, Changed s.filter f' (c.lineAddr pkt) i ∧
        i.requested = (s.filter.item (c.lineAddr pkt)).requested &&& ~~~ c.portToMask port) update) :
    Sat SnoopFault.Other (fun f' => Inv c { s with filter := f', outstanding := s.outstanding.erase (port, request) } ∧
      f'.it = s.filter.it ∧ f'.retryItem = s.filter.retryItem) update := by
  by_cases hno : (pkt.req.uncacheable || !c.isSnooping port) = true
  · refine (huntracked hno).mono fun f' hf' => ?_
    grind [Inv.of_untracked]
  · obtain ⟨hunc, hport⟩ : pkt.req.uncacheable = false ∧ c.isSnooping port = true := by simpa using hno
    obtain ⟨hbit, hnext⟩ := h.of_response hans hunc hport
    refine (htracked hunc hport hbit).mono fun f' hf' => ?_
    obtain ⟨i, hch, hreq⟩ := hf'
    exact ⟨hnext f' i helse hch hreq, hch.it, hch.retryItem⟩

lemma Inv.call (h : Inv c s) {k : SnoopCall} (hk : s.Allowed c k) :
    Sat SnoopFault.Other (fun s' => Inv c s' ∧ (s.pending ≠ none → (∀ b, k ≠ .finishRequest b) → Kept s s')) (s.call c k) := by
  cases k with
  | lookupRequest port pkt => exact (h.lookupRequest hk).mono fun s' hs' => ⟨hs', fun hne => absurd hk.1 hne⟩
  | finishRequest willRetry => exact h.finishRequest.mono fun s' hs' => ⟨hs', fun _ hne => absurd rfl (hne willRetry)⟩
  | lookupSnoop pkt =>
    have hlive := h.live (c.lineAddr pkt) fun x hx heq => hk x hx (lineAddr_eq_iff.mp heq.symm)
    refine (lookupSnoop_sat hlive).bind fun r hr => ?_
    obtain ⟨i, hch, hreq⟩ := hr
    exact ⟨h.of_same hk hch hreq, fun _ _ => ⟨rfl, hch.it, hch.retryItem⟩⟩
  | updateResponse pkt port request =>
    obtain ⟨helse, hans⟩ := hk
    refine bind (h.response helse hans (fun hno => ?_) updateResponse_sat) fun f' hf' => ⟨hf'.1, fun _ _ => ⟨rfl, hf'.2⟩⟩
    rw [updateResponse]
    refine (sat_packet _).bind fun _ _ => ?_
    rw [if_pos hno]
    exact rfl
  | updateSnoopResponse pkt rspPort port request =>
    obtain ⟨helse, hans⟩ := hk
    refine bind (h.response helse hans (fun hno => ?_) updateSnoopResponse_sat)
      fun f' hf' => ⟨hf'.1, fun _ _ => ⟨rfl, hf'.2⟩⟩
    rw [updateSnoopResponse]
    refine (sat_packet _).bind fun _ _ => (sat_packet _).bind fun _ _ => ?_
    rw [if_pos hno]
    exact rfl
  | updateSnoopForward pkt =>
    have hlive := h.live (c.lineAddr pkt) fun x hx heq => hk x hx (lineAddr_eq_iff.mp heq.symm)
    refine (updateSnoopForward_sat hlive).bind fun f' hf' => ?_
    obtain ⟨i, hch, hreq⟩ := hf'
    exact ⟨h.of_same hk hch hreq, fun _ _ => ⟨rfl, hch.it, hch.retryItem⟩⟩

lemma Reachable.inv (h : Reachable c s) : Inv c s := by
  induction h with
  | init => exact inv_init
  | call _ hk hrun ih => exact ((ih.call hk).of_ok hrun).1

/-! ### Retries -/

/-- Calls that fall between `lookupRequest` and `finishRequest`. -/
inductive Between (c : SnoopParams) (s : SnoopRun) : SnoopRun → Prop where
  | refl : Between c s s
  | call {s₁ s₂ : SnoopRun} {k : SnoopCall} : Between c s s₁ → s₁.Allowed c k → (∀ b, k ≠ .finishRequest b) →
      s₁.call c k = .ok s₂ → Between c s s₂

lemma Between.kept (hb : Between c s s') (h : Inv c s) (hpending : s.pending ≠ none) : Inv c s' ∧ Kept s s' := by
  induction hb with
  | refl => exact ⟨h, rfl, rfl, rfl⟩
  | call _ hk hne hrun ih =>
    obtain ⟨hinv, hpend, hit, hretry⟩ := ih
    obtain ⟨hinv', hkept⟩ := (hinv.call hk).of_ok hrun
    obtain ⟨hpend', hit', hretry'⟩ := hkept (by rw [hpend]; exact hpending) hne
    exact ⟨hinv', hpend'.trans hpend, hit'.trans hit, hretry'.trans hretry⟩

lemma lookup_eq_of_item {f : SnoopFilter} (h : f.Live line) (h' : f'.Live line) (hitem : f'.item line = f.item line) :
    f'.cachedLocations.lookup line = f.cachedLocations.lookup line := by
  cases hf : f.cachedLocations.lookup line with
  | none =>
    cases hf' : f'.cachedLocations.lookup line with
    | none => rfl
    | some i' =>
      rw [item_of_none hf, item_of_lookup hf'] at hitem
      exact absurd (by rw [hitem]; exact BitVec.or_self) (h' i' hf')
  | some i =>
    cases hf' : f'.cachedLocations.lookup line with
    | none =>
      rw [item_of_lookup hf, item_of_none hf'] at hitem
      exact absurd (by rw [← hitem]; exact BitVec.or_self) (h i hf)
    | some i' => simp_all [item_of_lookup]

lemma Inv.retry (h : Inv c s) {s1 s2 s3 : SnoopRun} (hk : s.Allowed c (.lookupRequest port pkt))
    (h1 : s.call c (.lookupRequest port pkt) = .ok s1) (hb : Between c s1 s2) (h3 : s2.call c (.finishRequest true) = .ok s3) :
    s3.filter.cachedLocations.lookup (c.lineAddr pkt) = s.filter.cachedLocations.lookup (c.lineAddr pkt) ∧
    (∀ l, l ≠ c.lineAddr pkt → s1.filter.cachedLocations.lookup l = s.filter.cachedLocations.lookup l ∧
      s3.filter.cachedLocations.lookup l = s2.filter.cachedLocations.lookup l) := by
  have hlive : s.filter.Live (c.lineAddr pkt) := h.live _ fun x hx => by
    rw [hk.1] at hx
    cases hx
  have hinv1 := ((h.call hk).of_ok h1).1
  obtain ⟨r, hrun, h1⟩ := bind_eq_ok.mp h1
  cases h1
  obtain ⟨hopened, -⟩ := (h.lookupRequest_opened hk).of_ok hrun
  obtain ⟨hinv2, hpend, hit, hretry⟩ := hb.kept hinv1 nofun
  have hfinish : ∃ f', s2.filter.finishRequest c true pkt = .ok f' ∧ s3.filter = f' := by
    rw [SnoopRun.call, hpend] at h3
    grind [bind_eq_ok]
  obtain ⟨f', hf', rfl⟩ := hfinish
  rcases hinv2.opened _ hpend with ⟨hnone, hlookup⟩ | ⟨hsome, hentry, -⟩
  · -- there was no entry, and none was made
    rw [SnoopFilter.finishRequest, hnone] at hf'
    grind [Opened.other, Opened.entry]
  · obtain ⟨hother, hitem, hlive'⟩ := (finishRequest_sat hsome hentry).of_ok hf'
    grind [lookup_eq_of_item, Opened.other, Opened.entry]

/-- **A requested bit is an unanswered request.** In every run, the bit of a line and a snooping port is set exactly if the
port has a cacheable request for the line that was accepted and needs a response, was not marked when it was looked up, and
is not answered; for the line of a request that is not finished, this is so once it is. No call stops for want of a
request, and no entry is empty, but for that line. A request that has to be sent again leaves the filter as it was, and
calls for other lines that fall between do not see it. -/
theorem requested_iff_outstanding (h : Reachable c s) : (∀ port pkt, c.isSnooping port = true → s.Elsewhere c pkt →
      (c.Has (s.filter.item (c.lineAddr pkt)).requested port ↔
        ∃ x ∈ s.outstanding, x.1 = port ∧ SameLine c pkt x.2 ∧ Tracked c x)) ∧
    (∀ k e, s.Allowed c k → s.call c k = .error e → e.Other) ∧
    (∀ line i, s.filter.cachedLocations.lookup line = some i → (∀ x, s.pending = some x → c.lineAddr x.2 ≠ line) →
      i.requested ||| i.holder ≠ 0) ∧
    ∀ port pkt s₁ s₂ s₃, s.Allowed c (.lookupRequest port pkt) → s.call c (.lookupRequest port pkt) = .ok s₁ →
      Between c s₁ s₂ → s₂.call c (.finishRequest true) = .ok s₃ →
      (s₁ = s₂ → s₃.filter.cachedLocations = s.filter.cachedLocations) ∧
      s₃.filter.cachedLocations.lookup (c.lineAddr pkt) = s.filter.cachedLocations.lookup (c.lineAddr pkt) ∧
      ∀ l, l ≠ c.lineAddr pkt → s₁.filter.cachedLocations.lookup l = s.filter.cachedLocations.lookup l ∧
        s₃.filter.cachedLocations.lookup l = s₂.filter.cachedLocations.lookup l := by
  have hinv := h.inv
  refine ⟨fun port pkt hport helse => ?_, fun k e hk he => (hinv.call hk).of_error he,
    fun line i hi hline => hinv.live line hline i hi, fun port pkt s₁ s₂ s₃ hk h₁ hb h₃ => ?_⟩
  · have hpend : Bit c s.requests port (c.lineAddr pkt) ↔ Bit c s.outstanding port (c.lineAddr pkt) := by
      cases hp : s.pending with
      | none => rw [requests, hp]; rfl
      | some x =>
        rw [requests, hp]
        exact bit_cons_of_ne fun heq => helse x hp (lineAddr_eq_iff.mp heq.symm)
    rw [hinv.bits port hport, hpend]
    constructor
    · rintro ⟨x, hx, ht, hp, hl⟩
      exact ⟨x, hx, hp, lineAddr_eq_iff.mp hl.symm, ht⟩
    · rintro ⟨x, hx, hp, hl, ht⟩
      exact ⟨x, hx, ht, hp, (lineAddr_eq_iff.mpr hl).symm⟩
  · obtain ⟨hline, hother⟩ := hinv.retry hk h₁ hb h₃
    refine ⟨?_, hline, hother⟩
    rintro rfl
    refine Finmap.ext_lookup fun l => ?_
    by_cases hl : l = c.lineAddr pkt
    · rw [hl, hline]
    · rw [(hother l hl).2, (hother l hl).1]

def twoPorts : SnoopParams where
  linesize := 64
  maxEntryCount := 8
  snooping := [true, true]
  even := rfl
  pos := by decide
  fits := by decide

/-- A filter with one entry, for the line at 128. -/
def oneEntry (item : SnoopItem) : SnoopFilter :=
  { cachedLocations := .singleton 128 item, it := some 128, retryItem := {} }

/-- A read that was accepted, and its bit. -/
theorem requested_iff_outstanding_read : ∃ s pkt, Reachable twoPorts s ∧ s.outstanding = [(1, pkt)] ∧
    twoPorts.Has (s.filter.item (twoPorts.lineAddr pkt)).requested 1 := by
  let pkt : Packet := { id := 0, cmd := .readSharedReq, addr := 130 }
  have h₁ : Reachable twoPorts { filter := oneEntry { requested := 2 }, outstanding := [], pending := some (1, pkt) } :=
    .call (k := .lookupRequest 1 pkt) .init ⟨rfl, fun _ _ => rfl, fun _ _ hx => by cases hx⟩ (by decide)
  have h₂ : Reachable twoPorts { filter := oneEntry { requested := 2 }, outstanding := [(1, pkt)], pending := none } :=
    .call (k := .finishRequest false) h₁ nofun (by decide)
  refine ⟨_, pkt, h₂, rfl, ((requested_iff_outstanding h₂).1 1 pkt rfl fun x hx => by cases hx).mpr ?_⟩
  exact ⟨(1, pkt), mem_cons_self .., rfl, ⟨rfl, rfl⟩, rfl, rfl, rfl, rfl⟩

/-- An uncacheable read of a snooping port is accepted and not answered, and has no bit. -/
theorem uncacheable_not_requested : ∃ s pkt, Reachable twoPorts s ∧ s.pending = none ∧ (1, pkt) ∈ s.outstanding ∧
    twoPorts.isSnooping 1 = true ∧ pkt.cmd.needsResponse = true ∧ pkt.cacheResponding = false ∧
    ¬ twoPorts.Has (s.filter.item (twoPorts.lineAddr pkt)).requested 1 := by
  let pkt : Packet := { id := 0, cmd := .readReq, addr := 130, req := { uncacheable := true } }
  have h₁ : Reachable twoPorts { filter := .init, outstanding := [], pending := some (1, pkt) } :=
    .call (k := .lookupRequest 1 pkt) .init ⟨rfl, nofun, fun _ _ hx => by cases hx⟩ (by decide)
  have h₂ : Reachable twoPorts { filter := .init, outstanding := [(1, pkt)], pending := none } :=
    .call (k := .finishRequest false) h₁ nofun (by decide)
  exact ⟨_, pkt, h₂, rfl, mem_cons_self .., rfl, rfl, rfl, not_has_zero⟩

end SnoopRun

end Gem5.Mem
