import Gem5.Cpu.O3.MemDepUnit
import Gem5.Cpu.O3.StoreSetRun

/-!
# Runs of the memory dependence unit

A run is a sequence of calls on a unit, with a record of what has become of each instruction: the producers
it got, whether its registers are ready, whether it has completed or was squashed. The invariant says what
the unit holds (`Held`), that the counter of an instruction is the number of its producers that are held
(`Counted`), and that the ready list has the instructions whose counter is zero and whose registers are
ready (`Released`). This module has the calls that insert instructions; `MemDepUnitRelease` has the others.
-/

namespace Gem5.O3

open Lib Function List

namespace MemDepUnit

variable {p : StoreSetParams} {u : MemDepUnit} {inst : DynInst} {sn num : ℕ} {l : List ℕ} {stores : Finset ℕ}

/-! ### What the calls do -/

/-- A new instruction whose producers are `stores`, and whose registers may be ready. -/
def linked (inst : DynInst) (stores : Finset ℕ) (ready : Bool) (u : MemDepUnit) : MemDepUnit where
  entries k :=
    if k = inst.seqNum then { inst, regsReady := ready, memDeps := stores.card }
    else if k ∈ stores then { u.entries k with dependInsts := (u.entries k).dependInsts ++ [inst.seqNum] }
    else u.entries k
  memDepHash := Insert.insert inst.seqNum u.memDepHash
  instList := u.instList ++ [inst.seqNum]
  loadBarrierSNs := if inst.blocksLoads then Insert.insert inst.seqNum u.loadBarrierSNs else u.loadBarrierSNs
  storeBarrierSNs := if inst.blocksStores then Insert.insert inst.seqNum u.storeBarrierSNs else u.storeBarrierSNs
  depPred := u.depPred
  readyInsts := if stores = ∅ ∧ ready = true then inst.seqNum :: u.readyInsts else u.readyInsts

lemma insertBarrier_eq : u.insertBarrier inst = u.linked inst ∅ false := by
  refine MemDepUnit.ext ?_ rfl rfl rfl rfl rfl (by simp [linked, insertBarrier, insertBarrierSN, addEntry])
  funext k
  by_cases hk : k = inst.seqNum <;> simp [linked, insertBarrier, insertBarrierSN, addEntry, hk]

lemma moveToReady_eq (h : (u.entries sn).squashed = false) :
    u.moveToReady sn = .ok { u with readyInsts := sn :: u.readyInsts } := by
  rw [moveToReady, h]
  rfl

lemma addDependences_eq (h : inst.seqNum ∉ stores) :
    ∃ v, (u.addEntry inst).addDependences inst stores = .ok v ∧ v.depPred = u.depPred ∧
      v.insertBarrierSN inst = u.linked inst stores inst.readyToIssue := by
  unfold addDependences
  by_cases hempty : stores = ∅
  · subst hempty
    rw [if_pos rfl, ensure_bind, if_pos (by simp [addEntry])]
    cases hready : inst.readyToIssue with
    | false => exact ⟨u.addEntry inst, rfl, rfl, insertBarrier_eq⟩
    | true =>
      refine ⟨_, moveToReady_eq (by simp [addEntry, setEntry]), rfl, ?_⟩
      refine MemDepUnit.ext ?_ rfl rfl rfl rfl rfl (by simp [linked, insertBarrierSN, setEntry, addEntry])
      funext k
      by_cases hk : k = inst.seqNum <;> simp [linked, insertBarrierSN, addEntry, setEntry, hk]
  · rw [if_neg hempty]
    refine ⟨_, rfl, rfl, MemDepUnit.ext ?_ rfl rfl rfl rfl rfl ?_⟩
    · funext k
      by_cases hk : k = inst.seqNum
      · simp [linked, insertBarrierSN, addEntry, setEntry, hk, h]
      · simp [linked, insertBarrierSN, addEntry, setEntry, hk]
    · simp [linked, insertBarrierSN, addEntry, setEntry, hempty]

/-- The dependents `l` of a producer that completes. -/
def woken (l : List ℕ) (u : MemDepUnit) : MemDepUnit :=
  { u with
    entries := fun k => if k ∈ l then { u.entries k with memDeps := (u.entries k).memDeps - 1 } else u.entries k
    readyInsts := (l.filter fun k => (u.entries k).memDeps == 1 && (u.entries k).regsReady &&
      !(u.entries k).squashed).reverse ++ u.readyInsts }

lemma wakeDependent_eq (h : 0 < (u.entries sn).memDeps) : u.wakeDependent sn = .ok (u.woken [sn]) := by
  have hone : (u.entries sn).memDeps - 1 = 0 ↔ (u.entries sn).memDeps = 1 := by omega
  have hentries : (u.setEntry sn fun e => { e with memDeps := e.memDeps - 1 }).entries = (u.woken [sn]).entries := by
    funext k
    by_cases hk : k = sn
    · subst hk
      simp [setEntry, woken]
    · simp [setEntry, woken, hk]
  rw [wakeDependent, ensure_bind, if_pos (decide_eq_true h)]
  by_cases hc : (u.entries sn).memDeps = 1 ∧ (u.entries sn).regsReady = true ∧ (u.entries sn).squashed = false
  · rw [if_pos (by simp [setEntry, hc]), moveToReady_eq (by simp [setEntry, hc])]
    exact congrArg Except.ok (MemDepUnit.ext hentries rfl rfl rfl rfl rfl (by simp [woken, setEntry, hc]))
  · rw [if_neg (by simpa [setEntry, hone] using hc)]
    refine congrArg Except.ok (MemDepUnit.ext hentries rfl rfl rfl rfl rfl ?_)
    have hfilter : [sn].filter (fun k => (u.entries k).memDeps == 1 && (u.entries k).regsReady &&
        !(u.entries k).squashed) = [] := by
      simpa [filter_cons] using hc
    simp [woken, setEntry, hfilter]

lemma woken_cons (hsn : sn ∉ l) : (u.woken [sn]).woken l = u.woken (sn :: l) := by
  have hne {k : ℕ} (hk : k ∈ l) : k ≠ sn := fun h => hsn (h ▸ hk)
  refine MemDepUnit.ext ?_ rfl rfl rfl rfl rfl ?_
  · funext k
    by_cases hk : k = sn
    · subst hk
      simp [woken, hsn]
    · simp [woken, hk]
  · have hfilter : l.filter (fun k => ((u.woken [sn]).entries k).memDeps == 1 && ((u.woken [sn]).entries k).regsReady &&
        !((u.woken [sn]).entries k).squashed) =
        l.filter fun k => (u.entries k).memDeps == 1 && (u.entries k).regsReady && !(u.entries k).squashed :=
      filter_congr fun k hk => by simp [woken, hne hk]
    grind [woken]

lemma wakeDependents_loop (hl : l.Nodup) (h : ∀ k ∈ l, 0 < (u.entries k).memDeps) :
    l.foldlM wakeDependent u = .ok (u.woken l) := by
  induction l generalizing u with
  | nil => exact congrArg Except.ok (MemDepUnit.ext (by simp [woken]) rfl rfl rfl rfl rfl rfl)
  | cons sn l ih =>
    obtain ⟨hsn, hl⟩ := nodup_cons.mp hl
    rw [foldlM_cons, wakeDependent_eq (h sn (mem_cons_self ..)), ← woken_cons hsn]
    refine ih hl fun k hk => ?_
    have hne : k ≠ sn := fun heq => hsn (heq ▸ hk)
    simpa [woken, hne] using h k (mem_cons_of_mem _ hk)

lemma squashList_eq {l : List ℕ} (hsorted : l.Pairwise fun x y => y < x) (hl : ∀ k ∈ l, k ∈ u.memDepHash) (num : ℕ) :
    squashList num l u = .ok { u with
      entries := fun k => if k ∈ l ∧ num < k then { u.entries k with squashed := true } else u.entries k
      memDepHash := u.memDepHash.filter fun k => ¬ (k ∈ l ∧ num < k)
      instList := (l.filter (· ≤ num)).reverse
      loadBarrierSNs := u.loadBarrierSNs.filter fun k => ¬ (k ∈ l ∧ num < k)
      storeBarrierSNs := u.storeBarrierSNs.filter fun k => ¬ (k ∈ l ∧ num < k) } := by
  induction l generalizing u with
  | nil => simp [squashList]
  | cons sn l ih =>
    obtain ⟨hhead, htail⟩ := pairwise_cons.mp hsorted
    rw [squashList]
    split_ifs with hsn
    · have hdrop (s : Finset ℕ) : (s.erase sn).filter (fun k => ¬ (k ∈ l ∧ num < k)) =
          s.filter fun k => ¬ (k ∈ sn :: l ∧ num < k) := by grind
      have hmem : ∀ k ∈ l, k ∈ u.memDepHash.erase sn := fun k hk =>
        Finset.mem_erase.mpr ⟨(hhead k hk).ne, hl k (mem_cons_of_mem _ hk)⟩
      rw [ensure_bind, if_pos (decide_eq_true (hl sn (mem_cons_self ..))), ih htail hmem]
      refine congrArg Except.ok (MemDepUnit.ext ?_ (hdrop _) ?_ (hdrop _) (hdrop _) rfl rfl)
      · funext k
        by_cases hk : k = sn
        · subst hk
          have hnot : k ∉ l := fun h => Nat.lt_irrefl _ (hhead k h)
          simp [setEntry, hnot, hsn]
        · simp [setEntry, hk]
      · simp [Nat.not_le.mpr hsn]
    · -- the rest is older still
      have hold : ∀ k ∈ sn :: l, k ≤ num := by grind
      have hnone (k : ℕ) : ¬ (k ∈ sn :: l ∧ num < k) := fun h => Nat.not_lt.mpr (hold k h.1) h.2
      have hkeep (s : Finset ℕ) : s = s.filter fun k => ¬ (k ∈ sn :: l ∧ num < k) :=
        (Finset.filter_true_of_mem fun k _ => hnone k).symm
      refine congrArg Except.ok (MemDepUnit.ext ?_ (hkeep _) ?_ (hkeep _) (hkeep _) rfl rfl)
      · funext k
        exact (if_neg (hnone k)).symm
      · exact congrArg reverse (filter_eq_self.mpr fun k hk => decide_eq_true (hold k hk)).symm

/-! ### Runs -/

inductive Call where
  | insert (inst : DynInst)
  | insertBarrier (inst : DynInst)
  | regsReady (sn : ℕ)
  | completeInst (inst : DynInst)
  | squash (squashedNum : ℕ)
  | violation (storePC loadPC ldVictim stVictim : ℕ)
  | issue (inst : DynInst)
  deriving DecidableEq, Repr

def perform (p : StoreSetParams) (u : MemDepUnit) : Call → Except MemDepFault MemDepUnit
  | .insert inst => u.insert p inst
  | .insertBarrier inst => .ok (u.insertBarrier inst)
  | .regsReady sn => u.regsReady sn
  | .completeInst inst => u.completeInst inst
  | .squash squashedNum => u.squash squashedNum
  | .violation storePC loadPC ldVictim stVictim => u.violation p storePC loadPC ldVictim stVictim
  | .issue inst => u.issue p inst

/-- The unit together with what has happened to the instructions. -/
structure Run where
  unit : MemDepUnit := {}
  /-- The last instruction inserted. -/
  last : ℕ := 0
  /-- The instructions inserted with `insert` or `insertBarrier`. -/
  insts : List DynInst := []
  /-- The instructions inserted with `insert`. -/
  inserted : List DynInst := []
  /-- The producers recorded for an instruction at its insertion. -/
  producers : ℕ → Finset ℕ := fun _ => ∅
  /-- The instructions whose registers are ready. -/
  regs : Finset ℕ := ∅
  completed : ℕ → Prop := fun _ => False
  squashed : ℕ → Prop := fun _ => False
  /-- The instructions that were squashed before they were moved to the ready list. -/
  dropped : ℕ → Prop := fun _ => False

namespace Run

/-- The calls that may come next. Instructions are inserted in program order; the registers of an
instruction become ready once, and it completes after it was moved to the ready list. -/
def Legal (p : StoreSetParams) (r : Run) : Call → Prop
  | .insert inst => r.last < inst.seqNum ∧ (inst.isLoad || inst.isStore || inst.isAtomic) = true
  | .insertBarrier inst => r.last < inst.seqNum
  | .regsReady sn => sn ∈ r.unit.memDepHash ∧ sn ∉ r.regs
  | .completeInst inst =>
    inst ∈ r.insts ∧ inst.seqNum ∈ r.unit.memDepHash ∧ (inst ∈ r.inserted → inst.seqNum ∈ r.unit.readyInsts)
  | .squash _ => True
  | .violation storePC loadPC ldVictim stVictim =>
    ldVictim ∈ p.possibleEntries loadPC ∧ stVictim ∈ p.possibleEntries storePC
  | .issue _ => True

instance (p : StoreSetParams) (r : Run) (c : Call) : Decidable (r.Legal p c) :=
  match c with
  | .insert _ => inferInstanceAs (Decidable (_ ∧ _))
  | .insertBarrier _ => inferInstanceAs (Decidable (_ < _))
  | .regsReady _ => inferInstanceAs (Decidable (_ ∧ _))
  | .completeInst _ => inferInstanceAs (Decidable (_ ∧ _ ∧ (_ → _)))
  | .squash _ => inferInstanceAs (Decidable True)
  | .violation .. => inferInstanceAs (Decidable (_ ∧ _))
  | .issue _ => inferInstanceAs (Decidable True)

/-- The producers that `insert` records. -/
def recorded (p : StoreSetParams) (inst : DynInst) (u : MemDepUnit) : Finset ℕ :=
  match (u.addEntry inst).storeEntries p inst with
  | .ok stores => stores
  | .error _ => ∅

/-- The run after a call that has left the unit `unit`. -/
def next (p : StoreSetParams) (r : Run) (unit : MemDepUnit) : Call → Run
  | .insert inst =>
    { r with
      unit
      last := inst.seqNum
      insts := inst :: r.insts
      inserted := inst :: r.inserted
      producers := update r.producers inst.seqNum (recorded p inst r.unit)
      regs := if inst.readyToIssue then Insert.insert inst.seqNum r.regs else r.regs }
  | .insertBarrier inst => { r with unit, last := inst.seqNum, insts := inst :: r.insts }
  | .regsReady sn => { r with unit, regs := Insert.insert sn r.regs }
  | .completeInst inst => { r with unit, completed := fun sn => r.completed sn ∨ sn = inst.seqNum }
  | .squash num =>
    { r with
      unit
      squashed := fun sn => r.squashed sn ∨ num < sn ∧ sn ≤ r.last
      dropped := fun sn => r.dropped sn ∨ num < sn ∧ sn ≤ r.last ∧ sn ∉ r.unit.readyInsts }
  | .violation .. => { r with unit }
  | .issue _ => { r with unit }

/-- The runs all of whose calls meet `Q`. -/
inductive Reachable (p : StoreSetParams) (Q : Run → Call → Prop) : Run → Prop where
  | init : Reachable p Q {}
  | step {r : Run} {c : Call} {unit : MemDepUnit} (hr : Reachable p Q r) (hlegal : r.Legal p c) (hQ : Q r c)
      (hunit : r.unit.perform p c = .ok unit) : Reachable p Q (r.next p unit c)

/-! ### The invariant -/

/-- What the unit holds: the instructions that have neither completed nor been squashed, and the barriers among them. -/
structure Held (r : Run) : Prop where
  sorted : r.unit.instList.Pairwise (· < ·)
  mem_list : ∀ sn, sn ∈ r.unit.instList ↔ sn ∈ r.unit.memDepHash
  known : ∀ inst ∈ r.insts, inst.seqNum ≤ r.last ∧ (r.unit.entries inst.seqNum).inst = inst
  hash : ∀ sn ∈ r.unit.memDepHash, ∃ inst ∈ r.insts, inst.seqNum = sn
  loads : ∀ sn, sn ∈ r.unit.loadBarrierSNs ↔ sn ∈ r.unit.memDepHash ∧ (r.unit.entries sn).inst.blocksLoads = true
  stores : ∀ sn, sn ∈ r.unit.storeBarrierSNs ↔ sn ∈ r.unit.memDepHash ∧ (r.unit.entries sn).inst.blocksStores = true
  live : ∀ sn ∈ r.unit.memDepHash, (r.unit.entries sn).squashed = false ∧ ¬ r.squashed sn ∧ ¬ r.completed sn
  flagged : ∀ sn, (r.unit.entries sn).squashed = true → r.squashed sn
  past : ∀ sn, r.completed sn ∨ r.squashed sn → sn ≤ r.last
  left : ∀ inst ∈ r.insts, inst.seqNum ∉ r.unit.memDepHash → r.completed inst.seqNum ∨ r.squashed inst.seqNum

/-- The producers and their dependents. -/
structure Counted (r : Run) : Prop where
  older : ∀ d, ∀ e ∈ r.producers d, e < d ∧ d ≤ r.last
  wakes : ∀ d, ∀ e ∈ r.producers d, (r.unit.entries e).inst.hasDependents = true
  barrier : ∀ inst ∈ r.insts, inst ∉ r.inserted → r.producers inst.seqNum = ∅
  depend : ∀ e ∈ r.unit.memDepHash, ∀ d, d ∈ (r.unit.entries e).dependInsts ↔ e ∈ r.producers d
  nodup : ∀ e ∈ r.unit.memDepHash, (r.unit.entries e).dependInsts.Nodup
  deps_le : ∀ d, (r.producers d ∩ r.unit.memDepHash).card ≤ (r.unit.entries d).memDeps
  deps_eq : ∀ d, ¬ r.squashed d → (r.unit.entries d).memDeps = (r.producers d ∩ r.unit.memDepHash).card
  /-- An instruction with a producer is held as well, or was squashed. -/
  waiting : ∀ d, ∀ e ∈ r.producers d, e ∈ r.unit.memDepHash → d ∈ r.unit.memDepHash ∨ (r.unit.entries d).squashed = true
  produced : ∀ d, ¬ r.squashed d → ∀ e ∈ r.producers d, e ∈ r.unit.memDepHash ∨ r.completed e

structure Released (r : Run) : Prop where
  regs : ∀ d, (r.unit.entries d).regsReady = true ↔ d ∈ r.regs
  regs_le : ∀ d ∈ r.regs, d ≤ r.last
  ready_le : ∀ d ∈ r.unit.readyInsts, d ≤ r.last
  ready : ∀ d, ¬ r.squashed d → (d ∈ r.unit.readyInsts ↔ d ∈ r.regs ∧ (r.unit.entries d).memDeps = 0)
  nodup : r.unit.readyInsts.Nodup
  moved : ∀ d ∈ r.unit.readyInsts, ∀ e ∈ r.producers d, e ∉ r.unit.memDepHash
  dropped : ∀ d, r.dropped d → d ≤ r.last ∧ d ∉ r.unit.memDepHash ∧ d ∉ r.unit.readyInsts

/-- The store sets: what they predict is a store that was inserted. -/
structure Predicts (p : StoreSetParams) (r : Run) : Prop where
  ok : r.unit.depPred.Ok p r.last
  lfst : ∀ k, r.unit.depPred.lfst k ∈ r.unit.memDepHash →
    (r.unit.entries (r.unit.depPred.lfst k)).inst.hasDependents = true

structure Ok (p : StoreSetParams) (r : Run) : Prop where
  held : Held r
  counted : Counted r
  released : Released r
  predicts : Predicts p r

variable {r : Run}

lemma Held.le_last (h : Held r) (hsn : sn ∈ r.unit.memDepHash) : sn ≤ r.last := by
  obtain ⟨inst, hinst, rfl⟩ := h.hash sn hsn
  exact (h.known inst hinst).1

/-! ### Insertion -/

def link (r : Run) (inst : DynInst) (stores : Finset ℕ) (ready : Bool) (depPred : StoreSet) (inserted : List DynInst) : Run :=
  { r with
    unit := { r.unit.linked inst stores ready with depPred }
    last := inst.seqNum
    insts := inst :: r.insts
    inserted
    producers := update r.producers inst.seqNum stores
    regs := if ready then Insert.insert inst.seqNum r.regs else r.regs }

section Link

variable {ready : Bool} {depPred : StoreSet} {inserted : List DynInst}

lemma linked_entries_self : (u.linked inst stores ready).entries inst.seqNum =
    { inst, regsReady := ready, memDeps := stores.card } := by
  simp [linked]

lemma linked_entries_of_ne (h : sn ≠ inst.seqNum) : (u.linked inst stores ready).entries sn = { u.entries sn with
      dependInsts := if sn ∈ stores then (u.entries sn).dependInsts ++ [inst.seqNum] else (u.entries sn).dependInsts } := by
  by_cases hsn : sn ∈ stores <;> simp [linked, h, hsn]

lemma linked_inst_of_ne (h : sn ≠ inst.seqNum) :
    ((u.linked inst stores ready).entries sn).inst = (u.entries sn).inst := by
  rw [linked_entries_of_ne h]

@[simp] lemma link_entries :
    (r.link inst stores ready depPred inserted).unit.entries = (r.unit.linked inst stores ready).entries := rfl

@[simp] lemma link_hash : (r.link inst stores ready depPred inserted).unit.memDepHash =
    Insert.insert inst.seqNum r.unit.memDepHash := rfl

lemma barriers_linked {blocks : DynInst → Bool} {barriers : Finset ℕ} (hnew : inst.seqNum ∉ u.memDepHash)
    (h : ∀ sn, sn ∈ barriers ↔ sn ∈ u.memDepHash ∧ blocks (u.entries sn).inst = true) (sn : ℕ) :
    sn ∈ (if blocks inst then Insert.insert inst.seqNum barriers else barriers) ↔
      sn ∈ Insert.insert inst.seqNum u.memDepHash ∧ blocks ((u.linked inst stores ready).entries sn).inst = true := by
  grind [linked_entries_self, linked_inst_of_ne]

lemma Held.link (h : Held r) (hlast : r.last < inst.seqNum) : Held (r.link inst stores ready depPred inserted) := by
  have hne {sn : ℕ} (hsn : sn ≤ r.last) : sn ≠ inst.seqNum := (hsn.trans_lt hlast).ne
  have hnew : inst.seqNum ∉ r.unit.memDepHash := fun hmem => Nat.not_le.mpr hlast (h.le_last hmem)
  constructor
  case sorted =>
    refine pairwise_append.mpr ⟨h.sorted, pairwise_singleton .., fun x hx y hy => ?_⟩
    rw [mem_singleton.mp hy]
    exact (h.le_last ((h.mem_list x).mp hx)).trans_lt hlast
  case mem_list =>
    intro sn
    simp [Run.link, linked, h.mem_list, or_comm]
  case known =>
    intro x hx
    rcases mem_cons.mp hx with rfl | hx
    · exact ⟨Nat.le_refl _, congrArg MemDepEntry.inst linked_entries_self⟩
    · obtain ⟨hle, hinst⟩ := h.known x hx
      refine ⟨hle.trans hlast.le, ?_⟩
      exact (linked_inst_of_ne (hne hle)).trans hinst
  case hash =>
    intro sn hsn
    rcases Finset.mem_insert.mp hsn with rfl | hsn
    · exact ⟨inst, mem_cons_self .., rfl⟩
    · obtain ⟨x, hx, hxsn⟩ := h.hash sn hsn
      exact ⟨x, mem_cons_of_mem _ hx, hxsn⟩
  case loads => exact barriers_linked hnew h.loads
  case stores => exact barriers_linked hnew h.stores
  case live =>
    intro sn hsn
    rcases Finset.mem_insert.mp hsn with rfl | hsn
    · refine ⟨congrArg MemDepEntry.squashed linked_entries_self, fun hs => ?_, fun hc => ?_⟩
      · exact Nat.not_le.mpr hlast (h.past _ (.inr hs))
      · exact Nat.not_le.mpr hlast (h.past _ (.inl hc))
    · obtain ⟨hflag, hrest⟩ := h.live sn hsn
      exact ⟨(congrArg MemDepEntry.squashed (linked_entries_of_ne (hne (h.le_last hsn)))).trans hflag, hrest⟩
  case flagged =>
    intro sn hsn
    by_cases heq : sn = inst.seqNum
    · simp_all [link_entries, linked_entries_self]
    · rw [link_entries, linked_entries_of_ne heq] at hsn
      exact h.flagged sn hsn
  case past => exact fun sn hsn => (h.past sn hsn).trans hlast.le
  case left =>
    intro x hx hnot
    rcases mem_cons.mp hx with rfl | hx
    · exact absurd (Finset.mem_insert_self ..) hnot
    · exact h.left x hx fun hmem => hnot (Finset.mem_insert_of_mem hmem)

lemma Counted.link (h : Counted r) (hheld : Held r) (hlast : r.last < inst.seqNum) (hstores : stores ⊆ r.unit.memDepHash)
    (hwakes : ∀ e ∈ stores, (r.unit.entries e).inst.hasDependents = true) (hsub : r.inserted ⊆ inserted)
    (hbarrier : inst ∉ inserted → stores = ∅) : Counted (r.link inst stores ready depPred inserted) := by
  have hle {e : ℕ} (he : e ∈ stores) : e ≤ r.last := hheld.le_last (hstores he)
  have hne {sn : ℕ} (hsn : sn ≤ r.last) : sn ≠ inst.seqNum := (hsn.trans_lt hlast).ne
  have hnew : inst.seqNum ∉ r.unit.memDepHash := fun hmem => Nat.not_le.mpr hlast (hheld.le_last hmem)
  -- the producers of the others are the same, and the new instruction is none of them
  have hproducers {d : ℕ} (hd : d ≠ inst.seqNum) : (r.link inst stores ready depPred inserted).producers d = r.producers d :=
    update_of_ne hd ..
  have hself : (r.link inst stores ready depPred inserted).producers inst.seqNum = stores := update_self ..
  have hle' {d e : ℕ} (he : e ∈ r.producers d) : e ≤ r.last := ((h.older d e he).1.le).trans (h.older d e he).2
  have hinter {d : ℕ} : r.producers d ∩ Insert.insert inst.seqNum r.unit.memDepHash = r.producers d ∩ r.unit.memDepHash :=
    Finset.inter_insert_of_notMem fun hmem => hne (hle' hmem) rfl
  have hinter' : stores ∩ Insert.insert inst.seqNum r.unit.memDepHash = stores := by grind
  constructor
  case older =>
    intro d e he
    by_cases hd : d = inst.seqNum
    · subst hd
      rw [hself] at he
      exact ⟨(hle he).trans_lt hlast, Nat.le_refl _⟩
    · rw [hproducers hd] at he
      exact ⟨(h.older d e he).1, (h.older d e he).2.trans hlast.le⟩
  case wakes =>
    intro d e he
    by_cases hd : d = inst.seqNum
    · subst hd
      rw [hself] at he
      exact (congrArg _ (linked_inst_of_ne (hne (hle he)))).trans (hwakes e he)
    · rw [hproducers hd] at he
      exact (congrArg _ (linked_inst_of_ne (hne (hle' he)))).trans (h.wakes d e he)
  case barrier =>
    intro x hx hnot
    rcases mem_cons.mp hx with rfl | hx
    · exact hself.trans (hbarrier hnot)
    · rw [hproducers (hne (hheld.known x hx).1)]
      exact h.barrier x hx fun hmem => hnot (hsub hmem)
  case depend =>
    intro e he d
    rw [link_entries]
    rw [link_hash, Finset.mem_insert] at he
    rcases he with rfl | he
    · grind [linked_entries_self]
    · rw [linked_entries_of_ne (hne (hheld.le_last he))]
      by_cases hd : d = inst.seqNum
      · subst hd
        have hold : inst.seqNum ∉ (r.unit.entries e).dependInsts := fun hmem =>
          Nat.not_le.mpr hlast (h.older _ e ((h.depend e he _).mp hmem)).2
        grind
      grind [Counted.depend]
  case nodup =>
    intro e he
    rw [link_entries]
    rw [link_hash, Finset.mem_insert] at he
    rcases he with rfl | he
    · rw [linked_entries_self]
      exact .nil
    · rw [linked_entries_of_ne (hne (hheld.le_last he))]
      have hold : inst.seqNum ∉ (r.unit.entries e).dependInsts := fun hmem =>
        Nat.not_le.mpr hlast (h.older _ e ((h.depend e he _).mp hmem)).2
      by_cases hmem : e ∈ stores
      · simpa [hmem, nodup_append, h.nodup e he] using fun a ha (heq : a = inst.seqNum) => hold (heq ▸ ha)
      · simpa [hmem] using h.nodup e he
  case deps_le =>
    intro d
    rw [link_entries, link_hash]
    grind [linked_entries_self, linked_entries_of_ne, Counted.deps_le]
  case deps_eq =>
    intro d hsquashed
    rw [link_entries, link_hash]
    by_cases hd : d = inst.seqNum
    · subst hd
      rw [hself, hinter', linked_entries_self]
    · rw [hproducers hd, hinter, linked_entries_of_ne hd]
      exact h.deps_eq d hsquashed
  case waiting =>
    intro d e he hmem
    rw [link_entries, link_hash]
    grind [linked_entries_of_ne, link_hash, Counted.waiting]
  case produced =>
    intro d hsquashed e he
    rw [link_hash]
    by_cases hd : d = inst.seqNum
    · grind
    · rw [hproducers hd] at he
      exact (h.produced d hsquashed e he).imp_left Finset.mem_insert_of_mem

lemma Released.link (h : Released r) (hcounted : Counted r) (hlast : r.last < inst.seqNum) :
    Released (r.link inst stores ready depPred inserted) := by
  have hne {sn : ℕ} (hsn : sn ≤ r.last) : sn ≠ inst.seqNum := (hsn.trans_lt hlast).ne
  have hnew : inst.seqNum ∉ r.unit.readyInsts := fun hmem => hne (h.ready_le _ hmem) rfl
  have hnew' : inst.seqNum ∉ r.regs := fun hmem => hne (h.regs_le _ hmem) rfl
  have hregs {d : ℕ} (hd : d ≠ inst.seqNum) : d ∈ (r.link inst stores ready depPred inserted).regs ↔ d ∈ r.regs := by
    cases ready <;> simp [Run.link, hd]
  have hregs' : inst.seqNum ∈ (r.link inst stores ready depPred inserted).regs ↔ ready = true := by
    cases ready <;> simp [Run.link, hnew']
  have hready {d : ℕ} (hd : d ≠ inst.seqNum) :
      d ∈ (r.link inst stores ready depPred inserted).unit.readyInsts ↔ d ∈ r.unit.readyInsts := by
    by_cases hc : stores = ∅ ∧ ready = true <;> simp [Run.link, linked, hc, hd]
  have hready' : inst.seqNum ∈ (r.link inst stores ready depPred inserted).unit.readyInsts ↔ stores = ∅ ∧ ready = true := by
    by_cases hc : stores = ∅ ∧ ready = true <;> simp [Run.link, linked, hc, hnew]
  constructor
  case regs =>
    intro d
    rw [link_entries]
    grind [linked_entries_self, linked_entries_of_ne, Released.regs]
  case regs_le =>
    intro d hmem
    by_cases hd : d = inst.seqNum
    · exact hd.le
    · exact (h.regs_le d ((hregs hd).mp hmem)).trans hlast.le
  case ready_le =>
    intro d hmem
    by_cases hd : d = inst.seqNum
    · exact hd.le
    · exact (h.ready_le d ((hready hd).mp hmem)).trans hlast.le
  case ready =>
    intro d hsquashed
    rw [link_entries]
    by_cases hd : d = inst.seqNum
    · grind [linked_entries_self]
    · rw [hready hd, hregs hd, linked_entries_of_ne hd]
      exact h.ready d hsquashed
  case nodup =>
    by_cases hc : stores = ∅ ∧ ready = true
    · simpa [Run.link, linked, hc, hnew] using h.nodup
    · simpa [Run.link, linked, hc] using h.nodup
  case moved =>
    intro d hmem e he
    by_cases hd : d = inst.seqNum
    · subst hd
      rw [show (r.link inst stores ready depPred inserted).producers inst.seqNum = stores from update_self ..,
        (hready'.mp hmem).1] at he
      cases he
    · rw [show (r.link inst stores ready depPred inserted).producers d = r.producers d from update_of_ne hd ..] at he
      obtain ⟨hed, hdl⟩ := hcounted.older d e he
      grind [link_hash, Released.moved]
  case dropped =>
    intro d hdrop
    obtain ⟨hle, hhash, hmem⟩ := h.dropped d hdrop
    refine ⟨hle.trans hlast.le, ?_, fun h' => hmem ((hready (hne hle)).mp h')⟩
    simp_all

lemma Predicts.link (h : Predicts p r) (hlast : r.last < inst.seqNum) (hok : depPred.Ok p inst.seqNum)
    (hlfst : ∀ k, depPred.lfst k = r.unit.depPred.lfst k ∨ depPred.lfst k = inst.seqNum ∧ inst.hasDependents = true) :
    Predicts p (r.link inst stores ready depPred inserted) := by
  refine ⟨hok, fun k hk => ?_⟩
  change depPred.lfst k ∈ _ at hk
  change (DynInst.hasDependents ((r.unit.linked inst stores ready).entries (depPred.lfst k)).inst) = true
  rcases hlfst k with hold | ⟨hnew, hdep⟩
  · have hne : r.unit.depPred.lfst k ≠ inst.seqNum := ((h.ok.lfst k).trans_lt hlast).ne
    grind [linked_inst_of_ne, link_hash, Predicts.lfst]
  · rw [hnew, linked_entries_self]
    exact hdep

end Link

/-- The producers of a new instruction: the barriers, if it is an atomic, and none that is not held. -/
lemma Ok.storeEntries (h : Ok p r) (inst : DynInst) (hlast : r.last < inst.seqNum) :
    Sat (fun _ => False) (fun stores => stores ⊆ r.unit.memDepHash ∧
      (∀ e ∈ stores, (r.unit.entries e).inst.hasDependents = true) ∧
      (inst.isAtomic = true → r.unit.loadBarrierSNs ⊆ stores ∧
        (r.unit.loadBarrierSNs = ∅ → r.unit.storeBarrierSNs ⊆ stores)))
      ((r.unit.addEntry inst).storeEntries p inst) := by
  have hloads : r.unit.loadBarrierSNs ⊆ r.unit.memDepHash := fun sn hsn => ((h.held.loads sn).mp hsn).1
  have hstores : r.unit.storeBarrierSNs ⊆ r.unit.memDepHash := fun sn hsn => ((h.held.stores sn).mp hsn).1
  have hinter {s : Finset ℕ} (hs : s ⊆ r.unit.memDepHash) : s ∩ (r.unit.addEntry inst).memDepHash = s :=
    Finset.inter_eq_left.mpr fun sn hsn => Finset.mem_insert_of_mem (hs hsn)
  have hnone {s : Finset ℕ} {b : Bool} (hatomic : inst.isAtomic = true) (hs : ¬ ((b || inst.isAtomic) && decide (s ≠ ∅)) = true) :
      s = ∅ := by simp_all
  unfold MemDepUnit.storeEntries MemDepUnit.producingStores
  split_ifs with hl hs
  · show _ ∧ _
    rw [show (r.unit.addEntry inst).loadBarrierSNs = r.unit.loadBarrierSNs from rfl, hinter hloads]
    refine ⟨hloads, fun e he => ?_, fun _ => ⟨fun _ => id, fun hempty => ?_⟩⟩
    · have hb := ((h.held.loads e).mp he).2
      simp only [DynInst.blocksLoads, Bool.or_eq_true] at hb
      rcases hb with hb | hb <;> simp [DynInst.hasDependents, hb]
    · simp only [Bool.and_eq_true, decide_eq_true_eq] at hl
      exact absurd hempty hl.2
  · show _ ∧ _
    rw [show (r.unit.addEntry inst).storeBarrierSNs = r.unit.storeBarrierSNs from rfl, hinter hstores]
    refine ⟨hstores, fun e he => ?_, fun hatomic => ⟨?_, fun _ _ => id⟩⟩
    · have hb := ((h.held.stores e).mp he).2
      simp only [DynInst.blocksStores, Bool.or_eq_true] at hb
      rcases hb with hb | hb <;> simp [DynInst.hasDependents, hb]
    · have hl : r.unit.loadBarrierSNs = ∅ := hnone hatomic hl
      rw [hl]
      exact Finset.empty_subset _
  · -- the store sets point at stores
    have hpred := Sat.mapError (g := MemDepFault.depPred) (StoreSet.Run.checkInst_spec h.predicts.ok inst.instAddr)
    have hproducing : Sat (fun _ => False) (fun stores : Finset ℕ => ∀ e ∈ stores, ∃ k, e = r.unit.depPred.lfst k) (do
        let dep ← ((r.unit.addEntry inst).depPred.checkInst p inst.instAddr).mapError MemDepFault.depPred
        pure (if dep = 0 then ∅ else {dep})) := by
      refine Sat.bind hpred fun dep hdep => ?_
      by_cases hzero : dep = 0
      · simp [hzero]
      · obtain ⟨k, -, rfl⟩ := hdep.resolve_left hzero
        simp [hzero]
    refine Sat.bind hproducing fun stores hfrom => ?_
    have hmem {e : ℕ} (he : e ∈ stores ∩ (r.unit.addEntry inst).memDepHash) :
        e ∈ r.unit.memDepHash ∧ (r.unit.entries e).inst.hasDependents = true := by
      obtain ⟨k, rfl⟩ := hfrom e (Finset.mem_inter.mp he).1
      have hne : r.unit.depPred.lfst k ≠ inst.seqNum := ((h.predicts.ok.lfst k).trans_lt hlast).ne
      have hhash : r.unit.depPred.lfst k ∈ r.unit.memDepHash :=
        (Finset.mem_insert.mp (Finset.mem_inter.mp he).2).resolve_left hne
      exact ⟨hhash, h.predicts.lfst k hhash⟩
    refine ⟨fun e he => (hmem he).1, fun e he => (hmem he).2, fun hatomic => ?_⟩
    have hl : r.unit.loadBarrierSNs = ∅ := hnone hatomic hl
    have hs : r.unit.storeBarrierSNs = ∅ := hnone hatomic hs
    simp_all

section

variable (h : Ok p r) (hlast : r.last < inst.seqNum) (hkind : (inst.isLoad || inst.isStore || inst.isAtomic) = true)
include h hlast hkind

lemma Ok.insertPred {u : MemDepUnit} (hu : u.depPred = r.unit.depPred) :
    Sat (fun _ => False) (fun v => v = { u with depPred := v.depPred } ∧ v.depPred.Ok p inst.seqNum ∧
      ∀ k, v.depPred.lfst k = r.unit.depPred.lfst k ∨ v.depPred.lfst k = inst.seqNum ∧ inst.hasDependents = true)
      (u.insertPred p inst) := by
  unfold MemDepUnit.insertPred
  rw [hu]
  refine Sat.ite (fun hstore => ?_) fun hstore => Sat.ite (fun _ => ?_) fun hload => ?_
  · have hdep : inst.hasDependents = true := by
      rw [Bool.or_eq_true] at hstore
      rcases hstore with hb | hb <;> simp [DynInst.hasDependents, hb]
    refine Sat.bind (Sat.mapError (h.predicts.ok.insertStore hlast)) fun pred hpred => ⟨rfl, hpred.1, fun k => ?_⟩
    rcases hpred.2 with rfl | ⟨j, rfl⟩
    · exact .inl (congrFun StoreSet.checkClear_lfst k)
    grind [StoreSet.checkClear_lfst]
  · exact ⟨rfl, hu ▸ h.predicts.ok.mono hlast.le, fun k => .inl (congrFun (congrArg _ hu) k)⟩
  · simp_all

/-- **Insertion returns.** -/
lemma Ok.insert : Sat (fun _ => False) (fun v => Ok p (r.next p v (.insert inst))) (r.unit.insert p inst) := by
  obtain ⟨stores, hstores, hsub, hwakes, -⟩ := Sat.exists_ok (h.storeEntries inst hlast)
  have hnew : inst.seqNum ∉ stores := fun hmem => Nat.not_le.mpr hlast (h.held.le_last (hsub hmem))
  obtain ⟨v, hv, hpred, hlinked⟩ := addDependences_eq hnew
  have hrecorded : recorded p inst r.unit = stores := by rw [recorded, hstores]
  rw [MemDepUnit.insert, hstores]
  show Sat _ _ ((MemDepUnit.addDependences inst stores (r.unit.addEntry inst)) >>= _)
  rw [hv]
  have hpred' : (MemDepUnit.insertBarrierSN inst v).depPred = r.unit.depPred := hpred
  refine (h.insertPred hlast hkind hpred').mono ?_
  rintro w ⟨hw, hok, hlfst⟩
  have hnext : r.next p w (.insert inst) =
      r.link inst stores inst.readyToIssue w.depPred (inst :: r.inserted) := by
    rw [hw, hlinked]
    simp only [next, hrecorded, Run.link]
  rw [hnext]
  exact ⟨h.held.link hlast, h.counted.link h.held hlast hsub hwakes (subset_cons_self ..) fun hnot =>
    absurd (mem_cons_self ..) hnot, h.released.link h.counted hlast, h.predicts.link hlast hok hlfst⟩

end

lemma Ok.insertBarrier (h : Ok p r) (hlast : r.last < inst.seqNum) :
    Ok p (r.next p (r.unit.insertBarrier inst) (.insertBarrier inst)) := by
  have hproducers : r.producers = update r.producers inst.seqNum ∅ := by
    refine (update_eq_self_iff.mpr ?_).symm
    refine (Finset.eq_empty_of_forall_notMem fun e he => ?_).symm
    exact Nat.not_le.mpr hlast (h.counted.older _ e he).2
  have hnext : r.next p (r.unit.insertBarrier inst) (.insertBarrier inst) =
      r.link inst ∅ false r.unit.depPred r.inserted := by
    rw [insertBarrier_eq]
    simp only [next, Run.link]
    rw [← hproducers]
    rfl
  rw [hnext]
  exact ⟨h.held.link hlast, h.counted.link h.held hlast (Finset.empty_subset _) nofun (List.Subset.refl _) fun _ => rfl,
    h.released.link h.counted hlast, h.predicts.link hlast (h.predicts.ok.mono hlast.le) fun _ => .inl rfl⟩

end Run

end MemDepUnit

end Gem5.O3
