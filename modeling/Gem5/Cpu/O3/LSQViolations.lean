import Gem5.Cpu.O3.LSQForwarding

/-!
# Memory order violations

A store that is executed looks at the loads from its `lqIt` on. That position denotes the oldest load younger than the
store until a load behind the store is committed, and is not used any more then (`Ok.oldestYounger_iff`). If one of the
younger loads has gone ahead with a granule of the store, a load that is not younger is recorded in `memDepViolator`, as
long as no access wraps around; and until the record is taken or squashed, only an older load replaces it
(**`violations_caught`**).
-/

namespace Gem5.O3

open Lib

namespace LSQUnit

variable {p : LSQParams} {u u' : LSQUnit p} {i j n : ℕ} {a : LoadEntry} {b : StoreEntry} {E : LSQFault → Prop}

/-! ### The position of a store -/

/-- `lqIt` denotes the oldest load younger than the store, or the end if there is none. -/
def OldestYounger (u : LSQUnit p) (b : StoreEntry) : Prop :=
  (b.lqIt = u.loadQueue.last ∧ ∀ i a, u.loadQueue.Has i a → a.seqNum < b.seqNum) ∨
    ∃ a, u.loadQueue.Has b.lqIt a ∧ b.seqNum < a.seqNum ∧
      ∀ i a', u.loadQueue.Has i a' → b.seqNum < a'.seqNum → a.seqNum ≤ a'.seqNum

/-- The loads from `lqIt` on are the younger ones. -/
lemma Ok.lqIt_le_iff (h : Ok u) (ha : u.loadQueue.Has i a) (hb : u.storeQueue.Has j b) :
    b.lqIt ≤ i ↔ b.seqNum < a.seqNum := by
  refine ⟨h.younger_load i a j b ha hb, fun hlt => ?_⟩
  by_contra hle
  have := h.older_load i a j b ha hb (Nat.not_le.mp hle)
  omega

lemma Ok.seqNum_le (h : Ok u) {i' : ℕ} {a' : LoadEntry} (ha : u.loadQueue.Has i a) (ha' : u.loadQueue.Has i' a')
    (hle : i ≤ i') : a.seqNum ≤ a'.seqNum := by
  rcases Nat.lt_or_eq_of_le hle with hlt | rfl
  · exact Nat.le_of_lt (h.loads_sorted i a i' a' ha ha' hlt)
  · exact Nat.le_of_eq (by rw [ha.eq ha'])

/-- The position denotes what it should unless a load younger than the store has been committed. -/
lemma Ok.oldestYounger_iff (h : Ok u) (hb : u.storeQueue.Has j b) : u.OldestYounger b ↔ u.loadQueue.head ≤ b.lqIt := by
  constructor
  · rintro (⟨heq, -⟩ | ⟨a, ha, -⟩)
    · rw [heq]
      exact Nat.le_add_right ..
    · exact ha.1
  · intro hhead
    rcases Nat.lt_or_eq_of_le (h.lqIt_le j b hb) with hlt | heq
    · obtain ⟨a, ha⟩ := CircularQueue.exists_has hhead hlt
      refine .inr ⟨a, ha, h.younger_load _ a j b ha hb (Nat.le_refl _), fun i a' ha' hlt' => ?_⟩
      exact h.seqNum_le ha ha' ((h.lqIt_le_iff ha' hb).mpr hlt')
    · exact .inl ⟨heq, fun i a ha => h.older_load i a j b ha hb (heq ▸ ha.lt_last)⟩

/-! ### Granules -/

/-- The granule of one of the bytes of an access. -/
def Granule (p : LSQParams) (effAddr effSize g : ℕ) : Prop :=
  ∃ k < effSize, g = ((effAddr + k) % 2 ^ 64) >>> p.depCheckShift

/-- The load has gone ahead with a granule of the store. -/
structure Conflict (p : LSQParams) (a : LoadEntry) (b : StoreEntry) : Prop where
  effAddrValid : a.effAddrValid = true
  strictlyOrdered : a.strictlyOrdered = false
  granule : ∃ g, Granule p a.effAddr a.effSize g ∧ Granule p b.effAddr b.effSize g

/-- The granules of an access that does not wrap around lie between those of its first and of its last byte. -/
lemma Granule.between {effAddr effSize g : ℕ} (h : Granule p effAddr effSize g) (hwrap : effAddr + effSize ≤ 2 ^ 64) :
    (granules p effAddr effSize).1 ≤ g ∧ g ≤ (granules p effAddr effSize).2 := by
  obtain ⟨k, hk, rfl⟩ := h
  simp only [granules, Nat.shiftRight_eq_div_pow]
  rw [Nat.mod_eq_of_lt (by omega : effAddr + k < 2 ^ 64), Nat.mod_eq_of_lt (by omega : effAddr + effSize - 1 < 2 ^ 64)]
  exact ⟨Nat.div_le_div_right (by omega), Nat.div_le_div_right (by omega)⟩

lemma Conflict.meets (h : Conflict p a b) (ha : a.effAddr + a.effSize ≤ 2 ^ 64) (hb : b.effAddr + b.effSize ≤ 2 ^ 64) :
    LSQUnit.meets (granules p b.effAddr b.effSize) (granules p a.effAddr a.effSize) = true := by
  obtain ⟨g, hga, hgb⟩ := h.granule
  obtain ⟨hlow, hhigh⟩ := hga.between ha
  obtain ⟨hlow', hhigh'⟩ := hgb.between hb
  simp only [LSQUnit.meets, Bool.and_eq_true, decide_eq_true_eq]
  omega

/-! ### The search of a store -/

/-- A load that is not younger than `a` is recorded. -/
def Caught (u : LSQUnit p) (a : LoadEntry) : Prop := ∃ v, u.memDepViolator = some v ∧ v.seqNum ≤ a.seqNum

/-- Every load from `i` on that meets the granules is caught. -/
def CaughtFrom (u u' : LSQUnit p) (i : ℕ) (g : ℕ × ℕ) : Prop :=
  ∀ k a, i ≤ k → u.loadQueue.Has k a → a.effAddrValid = true → a.strictlyOrdered = false →
    meets g (granules p a.effAddr a.effSize) = true → Caught u' a

/-- The search stops at the first load that meets the store, with this load or an older one recorded. -/
lemma checkViolationsLoop_caught {g : ℕ × ℕ}
    (hsorted : ∀ i a i' a', u.loadQueue.Has i a → u.loadQueue.Has i' a' → i ≤ i' → a.seqNum ≤ a'.seqNum)
    (hhead : u.loadQueue.head ≤ i) (hn : i + n = u.loadQueue.last) :
    Sat E (CaughtFrom u · i g) (checkViolationsLoop false g n i u) := by
  induction n generalizing i with
  | zero => exact fun k a hle ha => absurd ha.lt_last (by omega)
  | succ n ih =>
    obtain ⟨ld, hld⟩ := CircularQueue.exists_has hhead (by omega)
    rw [checkViolationsLoop, load_eq hld]
    -- The loads behind one that does not meet the store.
    have hrest (hnot : ld.effAddrValid = true → ld.strictlyOrdered = false →
        meets g (granules p ld.effAddr ld.effSize) = true → False) :
        Sat E (CaughtFrom u · i g) (checkViolationsLoop false g n (i + 1) u) := by
      refine (ih (by omega) (by omega)).mono fun u' hu' k a hle ha hvalid hstrict hmeets => ?_
      rcases Nat.lt_or_eq_of_le hle with hlt | rfl
      · exact hu' k a hlt ha hvalid hstrict hmeets
      · obtain rfl := hld.eq ha
        exact (hnot hvalid hstrict hmeets).elim
    refine .ite (fun hskip => hrest fun hvalid hstrict _ => ?_) fun _ => .ite (fun _ => ?_) fun hnot =>
      hrest fun _ _ hmeets => hnot hmeets
    · simp [hvalid, hstrict] at hskip
    · refine .ite (fun h => by cases h) fun _ => .ite (fun hany k a hle ha _ _ _ => ?_) fun _ k a hle ha _ _ _ => ?_
      · obtain ⟨v, hv, hlt⟩ := (Option.any_eq_true _ _).mp hany
        have hlt := of_decide_eq_true hlt
        have := hsorted i ld k a hld ha hle
        exact ⟨v, hv, by omega⟩
      · exact ⟨ld, rfl, hsorted i ld k a hld ha hle⟩

/-- The store keeps its address, and every load from its `lqIt` on that meets it is caught. -/
structure Searched (u : LSQUnit p) (j : ℕ) (b : StoreEntry) (u' : LSQUnit p) : Prop where
  entry : ∃ b', u'.storeQueue.Has j b' ∧ b'.effAddr = b.effAddr ∧ b'.effSize = b.effSize
  caught : ∀ i a, u.loadQueue.Has i a → b.lqIt ≤ i → a.effAddrValid = true → a.strictlyOrdered = false →
    meets (granules p b.effAddr b.effSize) (granules p a.effAddr a.effSize) = true → Caught u' a

lemma finishStore_searched
    (hsorted : ∀ i a i' a', u.loadQueue.Has i a → u.loadQueue.Has i' a' → i ≤ i' → a.seqNum ≤ a'.seqNum)
    (hb : u.storeQueue.Has j b) (hhead : u.loadQueue.head ≤ b.lqIt) (hlast : b.lqIt ≤ u.loadQueue.last) :
    Sat E (Searched u j b) (u.finishStore j) := by
  rw [finishStore, store_eq hb]
  -- The store may get its mark; the loads are the same.
  have hsearch {w : LSQUnit p} (hloads : w.loadQueue = u.loadQueue)
      (hentry : ∃ b', w.storeQueue.Has j b' ∧ b'.effAddr = b.effAddr ∧ b'.effSize = b.effSize) :
      Sat E (Searched u j b) (w.checkViolations false (granules p b.effAddr b.effSize) b.lqIt) := by
    rw [← hloads] at hsorted hhead hlast
    have hchecked : Sat E (Checked w) (w.checkViolations false (granules p b.effAddr b.effSize) b.lqIt) :=
      checkViolations_sat hhead hlast
    have hcaught := checkViolationsLoop_caught (E := E) (g := granules p b.effAddr b.effSize) hsorted hhead
      (Nat.add_sub_cancel' hlast)
    refine (hchecked.and (.of_ensure (decide_eq_true hlast) hcaught)).mono fun u' hu' => ⟨?_, ?_⟩
    · rw [hu'.1.rest]
      exact hentry
    · exact fun i a ha hle => hu'.2 i a hle (hloads ▸ ha)
  apply hsearch
  · split_ifs <;> rfl
  · split_ifs
    · exact ⟨_, hb.modify_self _, rfl, rfl⟩
    · exact ⟨b, hb, rfl, rfl⟩

/-- The access of the store goes on to the search: it is written, or has been written before. -/
def Executes (b : StoreEntry) : StoreAccess → Prop
  | .access _ => True
  | .notWritten fault => fault = false ∧ b.size ≠ 0
  | _ => False

/-- Every younger load that meets the store, with the address it has after the access, is caught. -/
def YoungerCaught (u : LSQUnit p) (j : ℕ) (b : StoreEntry) (acc : StoreAccess) : Prop :=
  ∃ u' b', u.executeStore j acc = .ok u' ∧ u'.storeQueue.Has j b' ∧
    ∀ i a, u.loadQueue.Has i a → b.seqNum < a.seqNum → a.effAddrValid = true → a.strictlyOrdered = false →
      meets (granules p b'.effAddr b'.effSize) (granules p a.effAddr a.effSize) = true → Caught u' a

lemma executeStore_searched (h : Ok u) {acc : StoreAccess} (hlegal : u.Legal (.executeStore j acc))
    (hb : u.storeQueue.Has j b) (hexec : Executes b acc) : YoungerCaught u j b acc := by
  obtain ⟨⟨c, -, hc, hcan, -⟩, hsize⟩ := hlegal
  obtain rfl := hb.eq hc
  have hhead := h.head_le_lqIt j b hb hcan
  have hlast := h.lqIt_le j b hb
  -- The store as it is searched for, which is `b` with another address perhaps.
  have hfinish {w : LSQUnit p} {c : StoreEntry} (hw : u.executeStore j acc = w.finishStore j)
      (hloads : w.loadQueue = u.loadQueue) (hc : w.storeQueue.Has j c) (hlq : c.lqIt = b.lqIt) :
      YoungerCaught u j b acc := by
    have hsat : Sat (fun _ => False) (Searched w j c) (w.finishStore j) := by
      grind [finishStore_searched, Ok.seqNum_le]
    obtain ⟨u', hu', hsearched⟩ := hsat.exists_ok
    obtain ⟨b', hb', haddr, hsize⟩ := hsearched.entry
    refine ⟨u', b', hw.trans hu', hb', fun i a ha hlt hvalid hstrict hmeets => ?_⟩
    rw [haddr, hsize] at hmeets
    exact hsearched.caught i a (hloads ▸ ha) (hlq ▸ (h.lqIt_le_iff ha hb).mpr hlt) hvalid hstrict hmeets
  cases acc with
  | delayed => exact hexec.elim
  | predicatedOff => exact hexec.elim
  | access storeReq => exact hfinish (executeStore_access hb hsize) rfl (hb.modify_self _) rfl
  | notWritten fault =>
    obtain ⟨rfl, hne⟩ := hexec
    refine hfinish ?_ rfl hb rfl
    have hpos := List.length_pos_of_mem hb.mem
    unfold executeStore
    rw [ensure_bind, if_pos (bne_iff_ne.mpr (by omega)), store_eq hb]
    exact if_neg hne

/-! ### Runs -/

/-- A call other than `getMemDepViolator` and `squash`. -/
def Call.Between : Call → Prop
  | .getMemDepViolator => False
  | .squash _ => False
  | _ => True

/-- Only an older load replaces the one that is recorded. -/
def NotYounger (u u' : LSQUnit p) : Prop :=
  ∀ v, u.memDepViolator = some v → ∃ v', u'.memDepViolator = some v' ∧ v'.seqNum ≤ v.seqNum

lemma NotYounger.of_eq (h : u'.memDepViolator = u.memDepViolator) : NotYounger u u' :=
  fun v hv => ⟨v, h.trans hv, Nat.le_refl _⟩

lemma NotYounger.trans {u'' : LSQUnit p} (h : NotYounger u u') (h' : NotYounger u' u'') : NotYounger u u'' := by
  intro v hv
  obtain ⟨v', hv', hle⟩ := h v hv
  obtain ⟨v'', hv'', hle'⟩ := h' v' hv'
  exact ⟨v'', hv'', Nat.le_trans hle' hle⟩

lemma Ok.notYounger {c : Call} (h : Ok u) (hlegal : u.Legal c) (hc : c.Between) (hu' : u.perform c = .ok u') :
    NotYounger u u' := by
  cases c with
  | insertLoad inst =>
    change u.insertLoad inst = .ok u' at hu'
    unfold LSQUnit.insertLoad at hu'
    grind [NotYounger.of_eq]
  | insertStore inst =>
    change u.insertStore inst = .ok u' at hu'
    unfold LSQUnit.insertStore at hu'
    grind [NotYounger.of_eq]
  | executeLoad i acc =>
    obtain ⟨a, -, ha, -⟩ := hlegal
    exact ((executeLoad_sat (E := fun _ => True) h ha acc fun _ => trivial).of_ok hu').violator
  | executeStore j acc =>
    obtain ⟨⟨b, -, hb, hcan, -⟩, hsize⟩ := hlegal
    have hsat : Sat (fun _ => True) (StoreStep u j b) (u.executeStore j acc) :=
      executeStore_sat h hb hcan acc (fun storeReq hacc => by rw [hacc] at hsize; exact hsize) trivial
    exact (hsat.of_ok hu').violator
  | writeback i =>
    cases hu'
    exact .of_eq rfl
  | setAtCommit i =>
    cases hu'
    exact .of_eq rfl
  | checkSnoop hit =>
    cases hu'
    exact .of_eq rfl
  | commit youngest =>
    cases hu'
    exact .of_eq rfl
  | writebackStore success sent =>
    have hsat := writebackStore_sat (E := fun _ => True) h success sent (fun _ => trivial) trivial trivial
    exact .of_eq (hsat.of_ok hu').violator
  | writebackBlockedStore sent =>
    exact .of_eq ((writebackBlockedStore_sat (E := fun _ => True) h hlegal sent fun _ => trivial).of_ok hu').violator
  | completeStore i =>
    obtain ⟨hlt, b, -, hb, -⟩ := hlegal
    exact .of_eq ((completeStore_writeBack (E := fun _ => True) h hb hlt fun _ => trivial).of_ok hu').violator
  | squash squashedNum => exact hc.elim
  | getMemDepViolator => exact hc.elim

lemma Ok.run_notYounger {calls : List Call} (h : Ok u) (hcalls : ∀ c ∈ calls, c.Between) (hrun : u.run calls = some u') :
    NotYounger u u' := by
  induction calls generalizing u with
  | nil => exact .of_eq (congrArg (·.memDepViolator) (Option.some.inj hrun).symm)
  | cons c calls ih =>
    rw [LSQUnit.run] at hrun
    split_ifs at hrun with hlegal
    split at hrun
    · rename_i w hw
      have hc := hcalls c (List.mem_cons_self ..)
      exact (h.notYounger hlegal hc hw).trans
        (ih (h.perform hlegal hw) (fun c' hc' => hcalls c' (List.mem_cons_of_mem _ hc')) hrun)
    · cases hrun

/-- **Memory order violations are caught.** In every state of a run: the position `lqIt` of a store denotes the oldest load
younger than it, or the end, just as long as it is not before the head of the load queue, and so for every store that
cannot be written back yet. If a store is executed, and neither it nor the load wraps around, every younger load that
has gone ahead with one of its granules is caught, so that the recorded load is not younger than the oldest of them. And
the record gets no younger until it is taken or squashed. -/
theorem violations_caught {Q : LSQUnit p → Call → Prop} (h : Reachable p Q u) : (∀ j b, u.storeQueue.Has j b →
      (u.OldestYounger b ↔ u.loadQueue.head ≤ b.lqIt) ∧ (b.canWB = false → u.OldestYounger b)) ∧
    (∀ j b acc, u.storeQueue.Has j b → u.Legal (.executeStore j acc) → Executes b acc →
      ∃ u' b', u.executeStore j acc = .ok u' ∧ u'.storeQueue.Has j b' ∧
        (b'.effAddr + b'.effSize ≤ 2 ^ 64 → ∀ i a, u.loadQueue.Has i a → b.seqNum < a.seqNum →
          a.effAddr + a.effSize ≤ 2 ^ 64 → Conflict p a b' → Caught u' a)) ∧
    ∀ calls u', (∀ c ∈ calls, c.Between) → u.run calls = some u' → NotYounger u u' := by
  have hok := h.ok
  refine ⟨fun j b hb => ⟨hok.oldestYounger_iff hb, fun hcan => ?_⟩, fun j b acc hb hlegal hexec => ?_,
    fun calls u' => hok.run_notYounger⟩
  · exact (hok.oldestYounger_iff hb).mpr (hok.head_le_lqIt j b hb hcan)
  · obtain ⟨u', b', hu', hb', hcaught⟩ := executeStore_searched hok hlegal hb hexec
    refine ⟨u', b', hu', hb', fun hwrap i a ha hlt hwrap' hconf => ?_⟩
    exact hcaught i a ha hlt hconf.effAddrValid hconf.strictlyOrdered (hconf.meets hwrap' hwrap)

/-- A load that has gone ahead of a store with a byte of it. -/
def aheadLoad (vaddr : ℕ) : LoadEntry :=
  { seqNum := 2, sqIt := 2, effAddrValid := true, effAddr := vaddr, effSize := 8, hasRequest := true, response := .inFlight }

/-- The store, and the load that has been executed before it. -/
def ahead (vaddr : ℕ) : LSQUnit smallQueues where
  loadQueue := { entries := [aheadLoad vaddr], length_le := Nat.le_of_ble_eq_true rfl }
  storeQueue := { entries := [{ seqNum := 1, lqIt := 1 }], length_le := by decide }

lemma eight_pos : 0 < 8 := by decide

def goAhead (vaddr : ℕ) : List Call :=
  [.insertStore { seqNum := 1 }, .insertLoad { seqNum := 2 }, .executeLoad 1 (.access (loadOf vaddr 8 eight_pos) false)]

/-- The store is executed after the load, with bytes of it. -/
theorem violations_caught_ahead :
    ∃ u' b', (ahead 4).executeStore 1 (.access (storeOf 0 8 (by decide))) = .ok u' ∧ u'.storeQueue.Has 1 b' ∧
      (b'.effAddr + b'.effSize ≤ 2 ^ 64 → ∀ i a, (ahead 4).loadQueue.Has i a → 1 < a.seqNum →
        a.effAddr + a.effSize ≤ 2 ^ 64 → Conflict smallQueues a b' → Caught u' a) := by
  have hreach : Reachable smallQueues (fun _ _ => True) (ahead 4) := Reachable.start.run (goAhead 4) rfl
  exact (violations_caught hreach).2.1 1 { seqNum := 1, lqIt := 1 } _ ⟨Nat.le_refl _, rfl⟩ (by decide) trivial

/-- The position of a store is left behind when a younger load is committed; and a load that wraps around is missed. -/
theorem violations_missed :
    (∃ (u : LSQUnit smallQueues) (j : ℕ) (b : StoreEntry), Reachable smallQueues (fun _ _ => True) u ∧
      u.storeQueue.Has j b ∧ ¬ u.OldestYounger b) ∧
    ∃ (u u' : LSQUnit smallQueues) (i j : ℕ) (a : LoadEntry) (b b' : StoreEntry) (request : StoreRequest),
      Reachable smallQueues (fun _ _ => True) u ∧ u.Legal (.executeStore j (.access request)) ∧
        u.loadQueue.Has i a ∧ u.storeQueue.Has j b ∧ b.seqNum < a.seqNum ∧
        u.executeStore j (.access request) = .ok u' ∧ u'.storeQueue.Has j b' ∧ Conflict smallQueues a b' ∧ ¬ Caught u' a := by
  constructor
  · have hreach := Reachable.start.run (p := smallQueues) [.insertStore { seqNum := 1 }, .insertLoad { seqNum := 2 },
      .executeStore 1 (.access (storeOf 0 8 (by decide))), .executeLoad 1 (.access (loadOf 16 8 (by decide)) false),
      .writeback 1, .commit 2] rfl
    refine ⟨_, 1, committedStore 1 (storeOf 0 8 (by decide)), hreach, ⟨Nat.le_refl _, rfl⟩, fun hold => ?_⟩
    have hhead := (hreach.ok.oldestYounger_iff ⟨Nat.le_refl _, rfl⟩).mp hold
    exact absurd hhead (by decide)
  · have hreach : Reachable smallQueues (fun _ _ => True) (ahead (2 ^ 64 - 4)) :=
      Reachable.start.run (goAhead (2 ^ 64 - 4)) rfl
    have hconf : Conflict smallQueues (aheadLoad (2 ^ 64 - 4)) (writtenBy (storeOf 0 8 (by decide)) { seqNum := 1, lqIt := 1 }) :=
      ⟨rfl, rfl, 0, ⟨4, by decide, by decide⟩, ⟨0, by decide, by decide⟩⟩
    refine ⟨_, (ahead (2 ^ 64 - 4)).setStore 1 (writtenBy (storeOf 0 8 (by decide))), 1, 1, _, _, _, storeOf 0 8 (by decide),
      hreach, by decide, ⟨Nat.le_refl _, rfl⟩, ⟨Nat.le_refl _, rfl⟩, by decide, rfl, ⟨Nat.le_refl _, rfl⟩, hconf, ?_⟩
    rintro ⟨v, hv, -⟩
    cases hv

end LSQUnit

end Gem5.O3
