import Gem5.Cpu.O3.MemDepUnitRun

/-!
# The release of memory instructions

The invariant of `MemDepUnitRun` is kept by every call (`Ok.step`), so it holds in every run. From it:

* `released_once`: an instruction is moved to the ready list exactly once, when its registers are ready
  and its producers have completed; no assertion fails;
* `barriers_before_atomics`: an atomic waits for the barriers before it, if the store barriers are among
  the load barriers when it is inserted while there are load barriers. `insert` takes one of the two sets
  only, so that without this an atomic can overtake a write barrier (`atomic_overtakes`).
-/

namespace Gem5.O3

open Lib StoreSet.Run List Finset

namespace MemDepUnit

namespace Run

variable {p : StoreSetParams} {r : Run} {inst : DynInst} {sn num : ℕ}

/-! ### The registers become ready -/

variable {u unit : MemDepUnit} {c : Call}

lemma regsReady_eq (hsn : sn ∈ u.memDepHash) (hlive : (u.entries sn).squashed = false) :
    u.regsReady sn = .ok { u.setEntry sn fun e => { e with regsReady := true } with
      readyInsts := if (u.entries sn).memDeps = 0 then sn :: u.readyInsts else u.readyInsts } := by
  rw [MemDepUnit.regsReady, findInHash, ensure_bind, if_pos (decide_eq_true hsn)]
  by_cases hdeps : (u.entries sn).memDeps = 0
  · rw [if_pos hdeps]
    refine (if_pos hdeps).trans (moveToReady_eq ?_)
    simpa [setEntry] using hlive
  · rw [if_neg hdeps]
    exact if_neg hdeps

lemma Ok.regsReady (h : Ok p r) (hsn : sn ∈ r.unit.memDepHash) (hregs : sn ∉ r.regs) :
    Sat (fun _ => False) (fun v => Ok p (r.next p v (.regsReady sn))) (r.unit.regsReady sn) := by
  obtain ⟨hlive, hsquashed, hcompleted⟩ := h.held.live sn hsn
  rw [regsReady_eq hsn hlive]
  have hentries (k : ℕ) : (r.unit.setEntry sn fun e => { e with regsReady := true }).entries k =
      { r.unit.entries k with regsReady := (r.unit.entries k).regsReady || decide (k = sn) } := by
    by_cases hk : k = sn
    · subst hk
      simp [setEntry]
    · simp [setEntry, hk]
  have hnot : sn ∉ r.unit.readyInsts := fun hmem => hregs ((h.released.ready sn hsquashed).mp hmem).1
  obtain ⟨hheld, hcounted, hreleased, hpredicts⟩ := h
  refine ⟨?_, ?_, ?_, ?_⟩
  · constructor <;> simp only [next, hentries]
    exacts [hheld.sorted, hheld.mem_list, hheld.known, hheld.hash, hheld.loads, hheld.stores, hheld.live, hheld.flagged,
      hheld.past, hheld.left]
  · constructor <;> simp only [next, hentries]
    exacts [hcounted.older, hcounted.wakes, hcounted.barrier, hcounted.depend, hcounted.nodup, hcounted.deps_le,
      hcounted.deps_eq, hcounted.waiting, hcounted.produced]
  · have hready (d : ℕ) : d ∈ (if (r.unit.entries sn).memDeps = 0 then sn :: r.unit.readyInsts else r.unit.readyInsts) ↔
        d ∈ r.unit.readyInsts ∨ d = sn ∧ (r.unit.entries sn).memDeps = 0 := by
      split_ifs with hdeps <;> simp [hdeps, or_comm]
    constructor <;> simp only [next, hentries, hready]
    case regs => simp [hreleased.regs, or_comm]
    case regs_le => simp_all [Held.le_last, Released.regs_le]
    case ready_le =>
      rintro d (hd | ⟨rfl, -⟩)
      · exact hreleased.ready_le d hd
      · exact hheld.le_last hsn
    case ready => grind [Released.ready]
    case nodup => grind [Released.nodup]
    case moved =>
      rintro d (hd | ⟨rfl, hdeps⟩) e he
      · exact hreleased.moved d hd e he
      · rw [hcounted.deps_eq d hsquashed, card_eq_zero] at hdeps
        exact fun hmem => notMem_empty e (hdeps ▸ mem_inter.mpr ⟨he, hmem⟩)
    case dropped =>
      intro d hd
      obtain ⟨hle, hhash, hmem⟩ := hreleased.dropped d hd
      exact ⟨hle, hhash, fun hor => hor.elim hmem fun heq => hhash (heq.1 ▸ hsn)⟩
  · constructor <;> simp only [next, hentries]
    exacts [hpredicts.ok, hpredicts.lfst]

/-! ### Completion -/

/-- The unit after an instruction has completed. -/
def finished (sn : ℕ) (u : MemDepUnit) : MemDepUnit where
  entries k := { u.entries k with
    memDeps := if k ∈ (u.entries sn).dependInsts then (u.entries k).memDeps - 1 else (u.entries k).memDeps
    dependInsts := if k = sn then [] else (u.entries k).dependInsts }
  memDepHash := u.memDepHash.erase sn
  instList := u.instList.erase sn
  loadBarrierSNs := u.loadBarrierSNs.erase sn
  storeBarrierSNs := u.storeBarrierSNs.erase sn
  depPred := u.depPred
  readyInsts := (u.woken (u.entries sn).dependInsts).readyInsts

lemma Counted.pos (h : Counted r) (hsn : sn ∈ r.unit.memDepHash) {d : ℕ} (hd : d ∈ (r.unit.entries sn).dependInsts) :
    0 < (r.unit.entries d).memDeps := by
  refine Nat.lt_of_lt_of_le (card_pos.mpr ⟨sn, ?_⟩) (h.deps_le d)
  exact mem_inter.mpr ⟨(h.depend sn hsn d).mp hd, hsn⟩

lemma Ok.wakeDependents_eq (h : Ok p r) (hinst : inst ∈ r.insts) (hsn : inst.seqNum ∈ r.unit.memDepHash) :
    r.unit.wakeDependents inst = .ok ((r.unit.woken (r.unit.entries inst.seqNum).dependInsts).setEntry inst.seqNum
      fun e => { e with dependInsts := [] }) := by
  have hentry : (r.unit.entries inst.seqNum).inst = inst := (h.held.known inst hinst).2
  have hloop := wakeDependents_loop (h.counted.nodup _ hsn) fun d hd => h.counted.pos hsn hd
  rw [MemDepUnit.wakeDependents]
  split_ifs with hdep
  · simp_all [findInHash, ensure_bind]
  · -- an instruction of another kind is no one's producer
    have hnil : (r.unit.entries inst.seqNum).dependInsts = [] := by
      refine eq_nil_iff_forall_not_mem.mpr fun d hd => hdep ?_
      grind [Counted.wakes, Ok.counted, Counted.depend]
    rw [hnil]
    refine congrArg Except.ok (MemDepUnit.ext ?_ rfl rfl rfl rfl rfl rfl)
    funext k
    by_cases hk : k = inst.seqNum
    · subst hk
      have hsame : r.unit.entries inst.seqNum = { r.unit.entries inst.seqNum with dependInsts := [] } := by rw [← hnil]
      simpa [setEntry, woken] using hsame
    · simp [setEntry, woken, hk]

lemma eraseStoreBarrier_eq (h : inst.seqNum ∈ u.storeBarrierSNs ↔ inst.blocksStores = true) :
    u.eraseStoreBarrier inst = .ok { u with storeBarrierSNs := u.storeBarrierSNs.erase inst.seqNum } := by
  rw [eraseStoreBarrier]
  split_ifs with hb
  · rw [ensure_bind, if_pos (decide_eq_true (ne_empty_of_mem (h.mpr hb)))]
    rfl
  · rw [erase_eq_of_notMem fun hmem => hb (h.mp hmem)]

lemma eraseLoadBarrier_eq (h : inst.seqNum ∈ u.loadBarrierSNs ↔ inst.blocksLoads = true) :
    u.eraseLoadBarrier inst = .ok { u with loadBarrierSNs := u.loadBarrierSNs.erase inst.seqNum } := by
  rw [eraseLoadBarrier]
  split_ifs with hb
  · rw [ensure_bind, if_pos (decide_eq_true (ne_empty_of_mem (h.mpr hb)))]
    rfl
  · rw [erase_eq_of_notMem fun hmem => hb (h.mp hmem)]

lemma Ok.completeInst_eq (h : Ok p r) (hinst : inst ∈ r.insts) (hsn : inst.seqNum ∈ r.unit.memDepHash) :
    r.unit.completeInst inst = .ok (finished inst.seqNum r.unit) := by
  have hentry : (r.unit.entries inst.seqNum).inst = inst := (h.held.known inst hinst).2
  have hload : inst.seqNum ∈ r.unit.loadBarrierSNs ↔ inst.blocksLoads = true := by
    rw [h.held.loads, hentry, and_iff_right hsn]
  have hstore : inst.seqNum ∈ r.unit.storeBarrierSNs ↔ inst.blocksStores = true := by
    rw [h.held.stores, hentry, and_iff_right hsn]
  refine bind_eq_ok.mpr ⟨_, h.wakeDependents_eq hinst hsn, ?_⟩
  refine bind_eq_ok.mpr ⟨_, bind_eq_ok.mpr ⟨⟨⟩, ensure_eq_ok.mpr (decide_eq_true hsn), rfl⟩, ?_⟩
  refine bind_eq_ok.mpr ⟨_, eraseStoreBarrier_eq hstore, ?_⟩
  refine Eq.trans (eraseLoadBarrier_eq ?_) (congrArg Except.ok (MemDepUnit.ext ?_ rfl rfl rfl rfl rfl rfl))
  · exact hload
  funext k
  by_cases hk : k = inst.seqNum
  · subst hk
    by_cases hmem : inst.seqNum ∈ (r.unit.entries inst.seqNum).dependInsts <;> simp [setEntry, woken, finished, hmem]
  · by_cases hmem : k ∈ (r.unit.entries inst.seqNum).dependInsts <;> simp [setEntry, woken, finished, hk, hmem]

lemma Held.complete (h : Held r) (hinst : inst ∈ r.insts) :
    Held (r.next p (finished inst.seqNum r.unit) (.completeInst inst)) := by
  have hnodup : r.unit.instList.Nodup := h.sorted.imp Nat.ne_of_lt
  constructor <;> simp only [next, finished]
  case sorted => exact h.sorted.sublist erase_sublist
  case mem_list => grind [Held.mem_list]
  case known => exact h.known
  case hash => exact fun k hk => h.hash k (mem_of_mem_erase hk)
  case loads => grind [Held.loads]
  case stores => grind [Held.stores]
  case live => simp_all [Held.live]
  case flagged => exact h.flagged
  case past =>
    rintro k ((hk | rfl) | hk)
    · exact h.past k (.inl hk)
    · exact (h.known inst hinst).1
    · exact h.past k (.inr hk)
  grind [Held.left]

lemma Counted.complete (h : Counted r) (hreleased : Released r) (hinst : inst ∈ r.insts)
    (hsn : inst.seqNum ∈ r.unit.memDepHash) (hready : inst ∈ r.inserted → inst.seqNum ∈ r.unit.readyInsts) :
    Counted (r.next p (finished inst.seqNum r.unit) (.completeInst inst)) := by
  have hcard (d : ℕ) : (r.producers d ∩ r.unit.memDepHash.erase inst.seqNum).card =
      if d ∈ (r.unit.entries inst.seqNum).dependInsts then (r.producers d ∩ r.unit.memDepHash).card - 1
      else (r.producers d ∩ r.unit.memDepHash).card := by
    rw [inter_erase]
    grind [card_erase_of_mem, Counted.depend, erase_eq_of_notMem]
  constructor <;> simp only [next, finished]
  case older => exact h.older
  case wakes => exact h.wakes
  case barrier => exact h.barrier
  case depend => simp_all [Counted.depend]
  case nodup => simp_all [Counted.nodup]
  case deps_le => grind [Counted.deps_le]
  case deps_eq =>
    intro d hd
    rw [hcard, h.deps_eq d hd]
  case waiting =>
    intro d e he hmem
    have hmem := mem_of_mem_erase hmem
    refine (h.waiting d e he hmem).imp_left fun hd => mem_erase.mpr ⟨?_, hd⟩
    -- the instruction that completes waits for none
    grind [Released.moved, Counted.barrier]
  grind [Counted.produced]

lemma mem_finished_ready {d : ℕ} : d ∈ (finished sn u).readyInsts ↔
    (d ∈ (u.entries sn).dependInsts ∧ (u.entries d).memDeps = 1 ∧ (u.entries d).regsReady = true ∧
      (u.entries d).squashed = false) ∨ d ∈ u.readyInsts := by
  simp [finished, woken, and_assoc]

lemma Released.complete (h : Released r) (hheld : Held r) (hcounted : Counted r)
    (hcounted' : Counted (r.next p (finished inst.seqNum r.unit) (.completeInst inst)))
    (hsn : inst.seqNum ∈ r.unit.memDepHash) : Released (r.next p (finished inst.seqNum r.unit) (.completeInst inst)) := by
  have hnot {d : ℕ} (hd : d ∈ (r.unit.entries inst.seqNum).dependInsts) : d ∉ r.unit.readyInsts := fun hmem =>
    h.moved d hmem _ ((hcounted.depend _ hsn d).mp hd) hsn
  have hhash {d : ℕ} (hd : d ∈ (r.unit.entries inst.seqNum).dependInsts) (hflag : (r.unit.entries d).squashed = false) :
      d ∈ r.unit.memDepHash := by grind [Counted.waiting, Counted.depend]
  constructor
  case regs => exact h.regs
  case regs_le => exact h.regs_le
  case ready_le =>
    intro d hd
    rcases mem_finished_ready.mp hd with ⟨hd, -⟩ | hd
    · exact (hcounted.older d _ ((hcounted.depend _ hsn d).mp hd)).2
    · exact h.ready_le d hd
  case ready =>
    intro d hsquashed
    change d ∈ (finished inst.seqNum r.unit).readyInsts ↔ d ∈ r.regs ∧ (if d ∈ (r.unit.entries inst.seqNum).dependInsts
      then (r.unit.entries d).memDeps - 1 else (r.unit.entries d).memDeps) = 0
    rw [mem_finished_ready, ← h.regs]
    by_cases hd : d ∈ (r.unit.entries inst.seqNum).dependInsts
    · have hpos := hcounted.pos hsn hd
      have hflag : (r.unit.entries d).squashed = false := by
        rw [Bool.eq_false_iff]
        exact fun hs => hsquashed (hheld.flagged d hs)
      grind
    · simp only [hd, false_and, false_or, if_false, h.regs]
      exact h.ready d hsquashed
  case nodup =>
    refine nodup_append.mpr ⟨?_, h.nodup, fun a ha b hb heq => ?_⟩
    · exact nodup_reverse.mpr ((hcounted.nodup _ hsn).filter _)
    simp_all
  case moved =>
    intro d hd e he
    rcases mem_finished_ready.mp hd with ⟨hd, hone, -, hflag⟩ | hd
    · have hzero : (r.producers d ∩ r.unit.memDepHash.erase inst.seqNum).card = 0 := by
        have hdeps := hcounted'.deps_eq d (hheld.live d (hhash hd hflag)).2.1
        simpa [next, finished, hd, hone] using hdeps.symm
      rw [card_eq_zero] at hzero
      exact fun hmem => notMem_empty e (hzero ▸ mem_inter.mpr ⟨he, hmem⟩)
    · exact fun hmem => h.moved d hd e he (mem_of_mem_erase hmem)
  case dropped =>
    intro d hdrop
    obtain ⟨hle, hgone, hmem⟩ := h.dropped d hdrop
    refine ⟨hle, fun hmem => hgone (mem_of_mem_erase hmem), fun hready => ?_⟩
    rcases mem_finished_ready.mp hready with ⟨hd, -, -, hflag⟩ | hd
    · exact hgone (hhash hd hflag)
    · exact hmem hd

lemma Ok.completeInst (h : Ok p r) (hinst : inst ∈ r.insts) (hsn : inst.seqNum ∈ r.unit.memDepHash)
    (hready : inst ∈ r.inserted → inst.seqNum ∈ r.unit.readyInsts) :
    Sat (fun _ => False) (fun v => Ok p (r.next p v (.completeInst inst))) (r.unit.completeInst inst) := by
  rw [h.completeInst_eq hinst hsn]
  have hcounted := h.counted.complete (p := p) h.released hinst hsn hready
  exact ⟨h.held.complete hinst, hcounted, h.released.complete h.held h.counted hcounted hsn,
    ⟨h.predicts.ok, fun k hk => h.predicts.lfst k (mem_of_mem_erase hk)⟩⟩

/-! ### Squashes -/

/-- The unit after the squash of all instructions younger than `num`. -/
def squashedTo (num : ℕ) (depPred : StoreSet) (u : MemDepUnit) : MemDepUnit where
  entries k := { u.entries k with squashed := (u.entries k).squashed || decide (k ∈ u.memDepHash ∧ num < k) }
  memDepHash := u.memDepHash.filter (· ≤ num)
  instList := u.instList.filter (· ≤ num)
  loadBarrierSNs := u.loadBarrierSNs.filter (· ≤ num)
  storeBarrierSNs := u.storeBarrierSNs.filter (· ≤ num)
  depPred := depPred
  readyInsts := u.readyInsts

lemma Held.squashList_eq (h : Held r) (num : ℕ) :
    squashList num r.unit.instList.reverse r.unit = .ok (squashedTo num r.unit.depPred r.unit) := by
  have hkeep {s : Finset ℕ} (hs : s ⊆ r.unit.memDepHash) :
      s.filter (fun k => ¬ (k ∈ r.unit.instList.reverse ∧ num < k)) = s.filter (· ≤ num) := by
    grind [Held.mem_list]
  rw [MemDepUnit.squashList_eq (pairwise_reverse.mpr h.sorted)
    fun k hk => (h.mem_list k).mp (mem_reverse.mp hk)]
  refine congrArg Except.ok (MemDepUnit.ext ?_ (hkeep (Finset.Subset.refl _)) ?_
    (hkeep fun k hk => ((h.loads k).mp hk).1) (hkeep fun k hk => ((h.stores k).mp hk).1) rfl rfl)
  · funext k
    simp only [mem_reverse, h.mem_list]
    split_ifs with hk
    · simp [squashedTo, hk]
    · simp only [squashedTo, decide_eq_false hk, Bool.or_false]
  · simp [squashedTo, filter_reverse]

lemma Held.squash (h : Held r) (depPred : StoreSet) : Held (r.next p (squashedTo num depPred r.unit) (.squash num)) := by
  constructor <;> simp only [next, squashedTo]
  case sorted => exact h.sorted.filter _
  case mem_list => simp_all [Held.mem_list]
  case known => exact h.known
  case hash => exact fun k hk => h.hash k (mem_of_mem_filter k hk)
  case loads => grind [Held.loads]
  case stores => grind [Held.stores]
  case live => simp_all [Held.live]
  case flagged =>
    intro k hk
    rcases (Bool.or_eq_true ..).mp hk with hk | hk
    · exact .inl (h.flagged k hk)
    simp_all [Held.le_last]
  case past => grind [Held.past]
  case left =>
    intro x hx hnot
    by_cases hmem : x.seqNum ∈ r.unit.memDepHash
    · simp_all [Held.known]
    · exact (h.left x hx hmem).imp_right .inl

lemma Counted.squash (h : Counted r) (depPred : StoreSet) :
    Counted (r.next p (squashedTo num depPred r.unit) (.squash num)) := by
  -- the producers of an instruction that is not squashed are not squashed
  have holder {d e : ℕ} (hd : ¬ (r.squashed d ∨ num < d ∧ d ≤ r.last)) (he : e ∈ r.producers d) : e ≤ num := by
    obtain ⟨hlt, hle⟩ := h.older d e he
    grind
  constructor <;> simp only [next, squashedTo]
  case older => exact h.older
  case wakes => exact h.wakes
  case barrier => exact h.barrier
  case depend => exact fun e he => h.depend e (mem_of_mem_filter e he)
  case nodup => exact fun e he => h.nodup e (mem_of_mem_filter e he)
  case deps_le =>
    intro d
    refine (card_le_card ?_).trans (h.deps_le d)
    exact inter_subset_inter_left (filter_subset ..)
  case deps_eq =>
    intro d hd
    rw [h.deps_eq d fun hs => hd (.inl hs)]
    refine congrArg card (ext fun e => ?_)
    grind
  case waiting => grind [Counted.waiting]
  grind [Counted.produced]

lemma Released.squash (h : Released r) (depPred : StoreSet) :
    Released (r.next p (squashedTo num depPred r.unit) (.squash num)) := by
  constructor <;> simp only [next, squashedTo]
  case regs => exact h.regs
  case regs_le => exact h.regs_le
  case ready_le => exact h.ready_le
  case ready => exact fun d hd => h.ready d fun hs => hd (.inl hs)
  case nodup => exact h.nodup
  case moved => exact fun d hd e he hmem => h.moved d hd e he (mem_of_mem_filter e hmem)
  grind [Released.dropped]

lemma Ok.squash (h : Ok p r) (num : ℕ) :
    Sat (fun _ => False) (fun v => Ok p (r.next p v (.squash num))) (r.unit.squash num) := by
  refine Sat.bind (Q := (· = squashedTo num r.unit.depPred r.unit)) (by rw [h.held.squashList_eq num]; exact rfl) ?_
  rintro _ rfl
  refine Sat.bind (Sat.mapError (h.predicts.ok.squash num)) fun pred hpred => ?_
  obtain ⟨hok, hlfst, -⟩ := hpred
  refine ⟨h.held.squash pred, h.counted.squash pred, h.released.squash pred, ⟨hok, fun k hk => ?_⟩⟩
  change pred.lfst k ∈ _ at hk
  change ((r.unit.entries (pred.lfst k)).inst).hasDependents = true
  rw [hlfst] at hk ⊢
  exact h.predicts.lfst k (mem_of_mem_filter _ hk)

/-! ### The store sets alone -/

lemma Ok.of_depPred (h : Ok p r) {depPred : StoreSet} (hok : depPred.Ok p r.last) (hlfst : depPred.lfst = r.unit.depPred.lfst) :
    Ok p { r with unit := { r.unit with depPred } } := by
  obtain ⟨hheld, hcounted, hreleased, hpredicts⟩ := h
  refine ⟨?_, ?_, ?_, ⟨hok, ?_⟩⟩
  · exact ⟨hheld.sorted, hheld.mem_list, hheld.known, hheld.hash, hheld.loads, hheld.stores, hheld.live, hheld.flagged,
      hheld.past, hheld.left⟩
  · exact ⟨hcounted.older, hcounted.wakes, hcounted.barrier, hcounted.depend, hcounted.nodup, hcounted.deps_le,
      hcounted.deps_eq, hcounted.waiting, hcounted.produced⟩
  · exact ⟨hreleased.regs, hreleased.regs_le, hreleased.ready_le, hreleased.ready, hreleased.nodup, hreleased.moved,
      hreleased.dropped⟩
  · simpa only [hlfst] using hpredicts.lfst

lemma Ok.issue (h : Ok p r) (inst : DynInst) :
    Sat (fun _ => False) (fun v => Ok p (r.next p v (.issue inst))) (r.unit.issue p inst) := by
  refine Sat.bind (Q := fun pred => pred.Ok p r.last ∧ pred.lfst = r.unit.depPred.lfst) (Sat.mapError ?_)
    fun pred hpred => h.of_depPred hpred.1 hpred.2
  cases inst.isStore with
  | false => exact ⟨h.predicts.ok, rfl⟩
  | true => exact (h.predicts.ok.issued _ _).mono fun pred hpred => ⟨hpred.1, hpred.2.1⟩

lemma Ok.violation (h : Ok p r) {storePC loadPC ldVictim stVictim : ℕ} (hld : ldVictim ∈ p.possibleEntries loadPC)
    (hst : stVictim ∈ p.possibleEntries storePC) :
    Sat (fun _ => False) (fun v => Ok p (r.next p v (.violation storePC loadPC ldVictim stVictim)))
      (r.unit.violation p storePC loadPC ldVictim stVictim) := by
  refine Sat.bind (Sat.mapError (h.predicts.ok.violation hld hst)) fun pred hpred => ?_
  exact h.of_depPred hpred.1 hpred.2.lfst

/-! ### Every run -/

lemma Ok.step (h : Ok p r) (hlegal : r.Legal p c) :
    Sat (fun _ => False) (fun v => Ok p (r.next p v c)) (r.unit.perform p c) := by
  cases c with
  | insert inst => exact h.insert hlegal.1 hlegal.2
  | insertBarrier inst => exact h.insertBarrier hlegal
  | regsReady sn => exact h.regsReady hlegal.1 hlegal.2
  | completeInst inst => exact h.completeInst hlegal.1 hlegal.2.1 hlegal.2.2
  | squash num => exact h.squash num
  | violation storePC loadPC ldVictim stVictim => exact h.violation hlegal.1 hlegal.2
  | issue inst => exact h.issue inst

lemma ok_init : Ok p {} := by
  refine ⟨?_, ?_, ?_, ⟨⟨nofun, fun _ => Nat.le_refl _, .nil, nofun⟩, nofun⟩⟩
  · constructor <;> simp
  · constructor <;> simp
  · constructor <;> simp

lemma Reachable.ok {Q : Run → Call → Prop} (h : Reachable p Q r) : Ok p r := by
  induction h with
  | init => exact ok_init
  | step _ hlegal _ hunit ih => exact (ih.step hlegal).of_ok hunit

/-- The producers of an instruction that was not squashed have completed if none is counted any more. -/
lemma Ok.memDeps_eq_zero_iff (h : Ok p r) (hsquashed : ¬ r.squashed sn) :
    (r.unit.entries sn).memDeps = 0 ↔ ∀ e ∈ r.producers sn, r.completed e := by
  rw [h.counted.deps_eq sn hsquashed, card_eq_zero]
  constructor
  · intro hempty e he
    refine (h.counted.produced sn hsquashed e he).resolve_left fun hmem => ?_
    exact notMem_empty e (hempty ▸ mem_inter.mpr ⟨he, hmem⟩)
  · intro hall
    refine eq_empty_of_forall_notMem fun e he => ?_
    obtain ⟨he, hmem⟩ := mem_inter.mp he
    exact (h.held.live e hmem).2.2 (hall e he)

/-- A write barrier, a read barrier and an atomic. -/
def writeBarrier : DynInst := { seqNum := 1, isWriteBarrier := true }

@[inherit_doc writeBarrier]
def readBarrier : DynInst := { seqNum := 2, isReadBarrier := true }

@[inherit_doc writeBarrier]
def atomic : DynInst := { seqNum := 3, isLoad := true, isStore := true, isAtomic := true, readyToIssue := true }

/-- **Memory dependences are released exactly once.** In every run, an instruction that was inserted and
not squashed is on the ready list once if its registers are ready and all the producers recorded for it
have completed, and not at all before; its counter is the number of its producers in the hash. An
instruction that was squashed first is never moved, and no call stops. -/
theorem released_once (h : Reachable p (fun _ _ => True) r) : (∀ inst ∈ r.inserted, ¬ r.squashed inst.seqNum →
      (r.unit.readyInsts.count inst.seqNum = 1 ↔ inst.seqNum ∈ r.regs ∧ ∀ e ∈ r.producers inst.seqNum, r.completed e) ∧
      r.unit.readyInsts.count inst.seqNum ≤ 1 ∧
      (r.unit.entries inst.seqNum).memDeps = (r.producers inst.seqNum ∩ r.unit.memDepHash).card) ∧
    (∀ inst ∈ r.inserted, r.dropped inst.seqNum → inst.seqNum ∉ r.unit.readyInsts) ∧
    ∀ c, r.Legal p c → ∃ unit, r.unit.perform p c = .ok unit := by
  have hok := h.ok
  refine ⟨fun inst hinst hsquashed => ⟨?_, ?_, ?_⟩, fun inst _ hdrop => ?_, fun c hc => ?_⟩
  · rw [← hok.memDeps_eq_zero_iff hsquashed, ← hok.released.ready _ hsquashed]
    exact ⟨fun hone => count_pos_iff.mp (hone ▸ Nat.one_pos), count_eq_one_of_mem hok.released.nodup⟩
  · exact nodup_iff_count_le_one.mp hok.released.nodup _
  · exact hok.counted.deps_eq _ hsquashed
  · exact (hok.released.dropped _ hdrop).2.2
  · obtain ⟨unit, hunit, -⟩ := Sat.exists_ok (hok.step hc)
    exact ⟨unit, hunit⟩

theorem released_once_atomic : ∃ r, Reachable fourEntries (fun _ _ => True) r ∧ r.producers atomic.seqNum = {readBarrier.seqNum} ∧
    (r.unit.readyInsts.count atomic.seqNum = 1 ↔
      atomic.seqNum ∈ r.regs ∧ ∀ e ∈ r.producers atomic.seqNum, r.completed e) := by
  have h₁ := Reachable.step (p := fourEntries) (Q := fun _ _ => True) .init (c := .insertBarrier readBarrier) (by decide)
    trivial rfl
  have h₂ := Reachable.step h₁ (c := .insert atomic) (by decide) trivial rfl
  have h₃ := Reachable.step h₂ (c := .completeInst readBarrier) (by decide) trivial rfl
  exact ⟨_, h₃, by decide, ((released_once h₃).1 atomic (by decide) (by rintro ⟨⟩)).1⟩

/-- **Memory dependences cannot deadlock.** In every run, the unit holds the instructions that have neither completed nor
been squashed, and the oldest of them waits for none: it is on the ready list as soon as its registers are ready. -/
theorem oldest_not_blocked {Q : Run → Call → Prop} (h : Reachable p Q r) :
    (∀ inst ∈ r.insts, inst.seqNum ∈ r.unit.memDepHash ↔ ¬ (r.completed inst.seqNum ∨ r.squashed inst.seqNum)) ∧
    ∀ sn ∈ r.unit.memDepHash, (∀ e ∈ r.unit.memDepHash, sn ≤ e) →
      (r.unit.entries sn).memDeps = 0 ∧ (sn ∈ r.regs → sn ∈ r.unit.readyInsts) := by
  have hok := h.ok
  refine ⟨fun inst hinst => ⟨fun hmem => ?_, fun hgone => ?_⟩, fun sn hsn holdest => ?_⟩
  · exact not_or.mpr (hok.held.live _ hmem).2.symm
  · by_contra hmem
    exact hgone (hok.held.left inst hinst hmem)
  · have hlive := (hok.held.live sn hsn).2.1
    -- a producer is older, so it has completed
    have hdeps : (r.unit.entries sn).memDeps = 0 := by
      rw [hok.counted.deps_eq sn hlive, card_eq_zero]
      refine eq_empty_of_forall_notMem fun e he => ?_
      obtain ⟨he, hmem⟩ := mem_inter.mp he
      exact absurd (holdest e hmem) (hok.counted.older sn e he).1.not_ge
    exact ⟨hdeps, fun hregs => (hok.released.ready sn hlive).mpr ⟨hregs, hdeps⟩⟩

/-- A barrier is older than an atomic. -/
theorem oldest_not_blocked_barrier : ∃ r, Reachable fourEntries (fun _ _ => True) r ∧ atomic.seqNum ∈ r.unit.memDepHash ∧
    (r.unit.entries readBarrier.seqNum).memDeps = 0 := by
  have h₁ := Reachable.step (p := fourEntries) (Q := fun _ _ => True) .init (c := .insertBarrier readBarrier) (by decide)
    trivial rfl
  have h₂ := Reachable.step h₁ (c := .insert atomic) (by decide) trivial rfl
  exact ⟨_, h₂, by decide, ((oldest_not_blocked h₂).2 2 (by decide) (by decide)).1⟩

/-! ### Barriers and atomics -/

/-- If there are load barriers when an atomic is inserted, the store barriers are among them. -/
def Covered (r : Run) (c : Call) : Prop :=
  ∀ inst, c = .insert inst → inst.isAtomic = true → r.unit.loadBarrierSNs ≠ ∅ →
    r.unit.storeBarrierSNs ⊆ r.unit.loadBarrierSNs

/-- The barriers that are held are producers of the atomics that came after them. -/
def BarriersProduce (r : Run) : Prop :=
  ∀ inst ∈ r.inserted, inst.isAtomic = true → ∀ b ∈ r.insts, (b.blocksLoads || b.blocksStores) = true →
    b.seqNum < inst.seqNum → b.seqNum ∈ r.unit.memDepHash → b.seqNum ∈ r.producers inst.seqNum

lemma Reachable.inserted_subset {Q : Run → Call → Prop} (h : Reachable p Q r) : r.inserted ⊆ r.insts := by
  induction h with
  | init => exact List.Subset.refl _
  | @step r c unit _ _ _ _ ih =>
    cases c with
    | insert inst => exact cons_subset_cons inst ih
    | insertBarrier inst => exact subset_cons_of_subset inst ih
    | _ => exact ih

lemma gone_next (h : r.completed sn ∨ r.squashed sn) :
    (r.next p unit c).completed sn ∨ (r.next p unit c).squashed sn := by
  cases c with
  | completeInst inst => exact h.imp_left .inl
  | squash num => exact h.imp_right .inl
  | _ => exact h

lemma Ok.held_of_next (h : Ok p r) (h' : Ok p (r.next p unit c)) {b : DynInst} (hb : b ∈ r.insts)
    (hmem : b.seqNum ∈ (r.next p unit c).unit.memDepHash) : b.seqNum ∈ r.unit.memDepHash := by
  by_contra hnot
  obtain ⟨-, hsquashed, hcompleted⟩ := h'.held.live _ hmem
  exact (gone_next (h.held.left b hb hnot)).elim hcompleted hsquashed

lemma Ok.barriers_recorded (h : Ok p r) (hlast : r.last < inst.seqNum) (hatomic : inst.isAtomic = true)
    (hcovered : r.unit.loadBarrierSNs ≠ ∅ → r.unit.storeBarrierSNs ⊆ r.unit.loadBarrierSNs) {b : DynInst} (hb : b ∈ r.insts)
    (hblocks : (b.blocksLoads || b.blocksStores) = true) (hmem : b.seqNum ∈ r.unit.memDepHash) :
    b.seqNum ∈ recorded p inst r.unit := by
  obtain ⟨stores, hstores, -, -, hbarriers⟩ := Sat.exists_ok (h.storeEntries inst hlast)
  obtain ⟨hloads, hrest⟩ := hbarriers hatomic
  have hentry : (r.unit.entries b.seqNum).inst = b := (h.held.known b hb).2
  rw [recorded, hstores]
  grind [Held.loads, Ok.held, Held.stores]

lemma Ok.barriersProduce_next (h : Ok p r) (hsub : r.inserted ⊆ r.insts) (hbarriers : BarriersProduce r)
    (hlegal : r.Legal p c) (hcovered : Covered r c) (h' : Ok p (r.next p unit c)) :
    BarriersProduce (r.next p unit c) := by
  intro x hx hatomic b hb hblocks hlt hmem
  -- a new instruction is younger than the atomics that are there
  have hold {y : DynInst} (hy : y ∈ r.inserted) : y.seqNum ≤ r.last := (h.held.known y (hsub hy)).1
  cases c with
  | insert inst =>
    rcases mem_cons.mp hx with rfl | hx
    · have hb := (mem_cons.mp hb).resolve_left fun heq => Nat.lt_irrefl _ (heq ▸ hlt)
      have hproducers : (r.next p unit (.insert x)).producers x.seqNum = recorded p x r.unit := Function.update_self ..
      rw [hproducers]
      exact h.barriers_recorded hlegal.1 hatomic (hcovered x rfl hatomic) hb hblocks (h.held_of_next h' hb hmem)
    · have hlast : r.last < inst.seqNum := hlegal.1
      have hb := (mem_cons.mp hb).resolve_left fun heq => by grind
      have hproducers : (r.next p unit (.insert inst)).producers x.seqNum = r.producers x.seqNum :=
        Function.update_of_ne ((hold hx).trans_lt hlast).ne ..
      rw [hproducers]
      exact hbarriers x hx hatomic b hb hblocks hlt (h.held_of_next h' hb hmem)
  | insertBarrier inst =>
    have hlast : r.last < inst.seqNum := hlegal
    have hb := (mem_cons.mp hb).resolve_left fun heq => by
      have := hold hx
      rw [heq] at hlt
      omega
    exact hbarriers x hx hatomic b hb hblocks hlt (h.held_of_next h' hb hmem)
  | _ => exact hbarriers x hx hatomic b hb hblocks hlt (h.held_of_next h' hb hmem)

lemma Reachable.barriersProduce (h : Reachable p Covered r) : BarriersProduce r := by
  induction h with
  | init => exact nofun
  | step hr hlegal hQ hunit ih =>
    exact hr.ok.barriersProduce_next hr.inserted_subset ih hlegal hQ (Reachable.step hr hlegal hQ hunit).ok

/-- **Barriers order atomics**, in a run where the store barriers are among the load barriers whenever an
atomic is inserted while there is a load barrier: an atomic is not on the ready list before the barriers
that came before it and were not squashed have completed. -/
theorem barriers_before_atomics (h : Reachable p Covered r) :
    ∀ inst ∈ r.inserted, inst.isAtomic = true → inst.seqNum ∈ r.unit.readyInsts →
      ∀ b ∈ r.insts, (b.blocksLoads || b.blocksStores) = true → b.seqNum < inst.seqNum → ¬ r.squashed b.seqNum →
        r.completed b.seqNum := by
  intro inst hinst hatomic hready b hb hblocks hlt hsquashed
  refine (h.ok.held.left b hb fun hmem => ?_).resolve_right hsquashed
  exact h.ok.released.moved _ hready _ (h.barriersProduce inst hinst hatomic b hb hblocks hlt hmem) hmem

theorem barriers_before_atomics_one : ∃ r, Reachable fourEntries Covered r ∧ atomic.seqNum ∈ r.unit.readyInsts ∧
    r.completed readBarrier.seqNum := by
  have h₁ := Reachable.step (p := fourEntries) (Q := Covered) .init (c := .insertBarrier readBarrier) (by decide) nofun rfl
  have h₂ := Reachable.step h₁ (c := .insert atomic) (by decide) (by rintro _ - - -; decide) rfl
  have h₃ := Reachable.step h₂ (c := .completeInst readBarrier) (by decide) nofun rfl
  exact ⟨_, h₃, by decide, barriers_before_atomics h₃ atomic (by decide) rfl (by decide) readBarrier (by decide) rfl (by decide)
    (by rintro ⟨⟩)⟩

/-- **An atomic overtakes a write barrier**: with a read barrier in flight, it waits for the read barrier only. -/
theorem atomic_overtakes : ∃ r, Reachable fourEntries (fun _ _ => True) r ∧
    atomic ∈ r.inserted ∧ atomic.seqNum ∈ r.unit.readyInsts ∧ writeBarrier ∈ r.insts ∧
    ¬ r.squashed writeBarrier.seqNum ∧ ¬ r.completed writeBarrier.seqNum := by
  have h₁ := Reachable.step (p := fourEntries) (Q := fun _ _ => True) .init (c := .insertBarrier writeBarrier) (by decide)
    trivial rfl
  have h₂ := Reachable.step h₁ (c := .insertBarrier readBarrier) (by decide) trivial rfl
  have h₃ := Reachable.step h₂ (c := .insert atomic) (by decide) trivial rfl
  have h₄ := Reachable.step h₃ (c := .completeInst readBarrier) (by decide) trivial rfl
  refine ⟨_, h₄, by decide, by decide, by decide, ?_, ?_⟩
  · exact id
  · have hne : writeBarrier.seqNum ≠ readBarrier.seqNum := by decide
    exact fun h => h.elim id hne

end Run

end MemDepUnit

end Gem5.O3
