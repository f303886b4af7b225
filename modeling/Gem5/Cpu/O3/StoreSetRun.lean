import Gem5.Cpu.O3.StoreSet

/-!
# Runs of the store sets

Every call returns, whatever the predictor has seen (`Ok.perform`): the sets of the SSIT are sets the
LFST has, and no store in `storeList` is younger than the last store of its set, so that the loop of
`squash` always moves on, and drops exactly the stores that are younger (**`squash_exact`**).

A store that issues is looked up by its address again. If the address has been moved to another set by
then, or has lost its entry, the LFST goes on pointing at the store (`finished_predicted`). As long as
that does not happen, the predictor never points at a store that has issued or was squashed
(**`finished_never_predicted`**).
-/

namespace Gem5.O3

open Lib Function List Sat

namespace StoreSet

/-- A call on the predictor. The entries that are given up are those the replacement policy chooses. -/
inductive Call where
  | violation (storePC loadPC ldVictim stVictim : ℕ)
  | insertLoad (loadPC sn : ℕ)
  | insertStore (storePC sn : ℕ)
  | issued (pc sn : ℕ) (isStore : Bool)
  | squash (squashedNum : ℕ)
  | clear
  deriving DecidableEq, Repr

def perform (p : StoreSetParams) (s : StoreSet) : Call → Except StoreSetFault StoreSet
  | .violation storePC loadPC ldVictim stVictim => s.violation p storePC loadPC ldVictim stVictim
  | .insertLoad _ _ => .ok (s.insertLoad p)
  | .insertStore storePC sn => s.insertStore p storePC sn
  | .issued pc sn isStore => s.issued p pc sn isStore
  | .squash squashedNum => s.squash squashedNum
  | .clear => .ok s.clear

/-- The replacement policy chooses among its candidates, and stores come in the order of their sequence numbers. -/
def Call.Legal (p : StoreSetParams) (last : ℕ) : Call → Prop
  | .violation storePC loadPC ldVictim stVictim =>
    ldVictim ∈ p.possibleEntries loadPC ∧ stVictim ∈ p.possibleEntries storePC
  | .insertStore _ sn => last < sn
  | _ => True

/-- The last store inserted, after a call. -/
def Call.last (last : ℕ) : Call → ℕ
  | .insertStore _ sn => sn
  | _ => last

variable {p : StoreSetParams} {s s' : StoreSet} {last : ℕ}

/-! ### Every call returns -/

/-- The predictor, where `last` is the last store inserted. -/
structure Ok (p : StoreSetParams) (s : StoreSet) (last : ℕ) : Prop where
  ssid : ∀ i, (s.ssit i).valid = true → (s.ssit i).ssid < p.lfstSize
  lfst : ∀ k, s.lfst k ≤ last
  sorted : s.storeList.Pairwise fun x y => y.1 < x.1
  younger : ∀ x ∈ s.storeList, x.1 ≤ s.lfst x.2

lemma valid_of_findEntry {pc i : ℕ} (h : s.findEntry p pc = some i) : (s.ssit i).valid = true := by
  have hfound := find?_some h
  rw [Bool.and_eq_true] at hfound
  exact hfound.1

lemma Ok.ssid_lt (h : s.Ok p last) {pc i : ℕ} (hi : s.findEntry p pc = some i) : (s.ssit i).ssid < p.lfstSize :=
  h.ssid i (valid_of_findEntry hi)

structure SameTables (s s' : StoreSet) : Prop where
  lfst : s'.lfst = s.lfst
  validLfst : s'.validLfst = s.validLfst
  storeList : s'.storeList = s.storeList

lemma SameTables.trans {s'' : StoreSet} (h : SameTables s s') (h' : SameTables s' s'') : SameTables s s'' :=
  ⟨h'.lfst.trans h.lfst, h'.validLfst.trans h.validLfst, h'.storeList.trans h.storeList⟩

lemma Ok.of_ssit (h : s.Ok p last) (hsame : SameTables s s')
    (hssid : ∀ i, (s'.ssit i).valid = true → (s'.ssit i).ssid < p.lfstSize) : s'.Ok p last where
  ssid := hssid
  lfst := hsame.lfst ▸ h.lfst
  sorted := hsame.storeList ▸ h.sorted
  younger := by
    rw [hsame.lfst, hsame.storeList]
    exact h.younger

lemma Ok.setSSID (h : s.Ok p last) {ssid : ℕ} (hssid : ssid < p.lfstSize) (i : ℕ) : (s.setSSID i ssid).Ok p last := by
  refine h.of_ssit ⟨rfl, rfl, rfl⟩ fun j hj => ?_
  by_cases hij : j = i
  · subst hij
    simpa [StoreSet.setSSID] using hssid
  · simp only [StoreSet.setSSID, update_of_ne hij] at hj ⊢
    exact h.ssid j hj

lemma Ok.assign (h : s.Ok p last) {pc victim ssid : ℕ} (hvictim : victim ∈ p.possibleEntries pc)
    (hssid : ssid < p.lfstSize) :
    Sat (fun _ => False) (fun s' => s'.Ok p last ∧ SameTables s s') (s.assign p pc victim ssid) := by
  unfold StoreSet.assign StoreSet.findVictim StoreSet.insertEntry
  refine bind (Q := fun s' => s' = s.invalidate victim) (of_ensure (decide_eq_true hvictim) rfl) ?_
  rintro _ rfl
  refine of_ensure (by simp [StoreSet.setSSID, StoreSet.invalidate]) ?_
  refine ⟨h.of_ssit ⟨rfl, rfl, rfl⟩ fun j hj => ?_, ⟨rfl, rfl, rfl⟩⟩
  by_cases hij : j = victim
  · subst hij
    simpa [StoreSet.setSSID] using hssid
  · simp only [StoreSet.setSSID, StoreSet.invalidate, update_of_ne hij] at hj ⊢
    exact h.ssid j hj

lemma calcSSID_lt (pc : ℕ) : calcSSID p pc < p.lfstSize := Nat.mod_lt _ p.lfstSize_pos

lemma Ok.violation (h : s.Ok p last) {storePC loadPC ldVictim stVictim : ℕ} (hld : ldVictim ∈ p.possibleEntries loadPC)
    (hst : stVictim ∈ p.possibleEntries storePC) :
    Sat (fun _ => False) (fun s' => s'.Ok p last ∧ SameTables s s') (s.violation p storePC loadPC ldVictim stVictim) := by
  unfold StoreSet.violation
  cases hload : s.findEntry p loadPC with
  | none =>
    cases hstore : s.findEntry p storePC with
    | none =>
      refine of_ensure (decide_eq_true (calcSSID_lt loadPC)) ?_
      refine bind (h.assign hld (calcSSID_lt loadPC)) fun s1 h1 => ?_
      exact (h1.1.assign hst (calcSSID_lt loadPC)).mono fun s2 h2 => ⟨h2.1, h1.2.trans h2.2⟩
    | some st => exact h.assign hld (h.ssid_lt hstore)
  | some ld =>
    cases hstore : s.findEntry p storePC with
    | none =>
      refine bind (h.assign hst (h.ssid_lt hload)) fun s1 h1 => ?_
      exact of_ensure (decide_eq_true (h.ssid_lt hload)) h1
    | some st =>
      refine of_ensure (by simp [h.ssid_lt hload, h.ssid_lt hstore]) ?_
      refine ite (fun _ => ?_) fun _ => ?_
      · exact ⟨h.setSSID (h.ssid_lt hload) st, ⟨rfl, rfl, rfl⟩⟩
      · exact ⟨h.setSSID (h.ssid_lt hstore) ld, ⟨rfl, rfl, rfl⟩⟩

lemma Ok.clear (h : s.Ok p last) : s.clear.Ok p last where
  ssid i hi := by cases hi
  lfst := h.lfst
  sorted := .nil
  younger x hx := by cases hx

lemma Ok.checkClear (h : s.Ok p last) : (s.checkClear p).Ok p last := by
  unfold StoreSet.checkClear
  split_ifs
  · exact Ok.clear ⟨h.ssid, h.lfst, h.sorted, h.younger⟩
  · exact ⟨h.ssid, h.lfst, h.sorted, h.younger⟩

lemma Ok.mono {last' : ℕ} (h : s.Ok p last) (hle : last ≤ last') : s.Ok p last' :=
  ⟨h.ssid, fun k => (h.lfst k).trans hle, h.sorted, h.younger⟩

lemma checkClear_lfst : (s.checkClear p).lfst = s.lfst := by
  unfold StoreSet.checkClear
  split_ifs <;> rfl

lemma ssid_checkClear (i : ℕ) : ((s.checkClear p).ssit i).ssid = (s.ssit i).ssid := by
  unfold StoreSet.checkClear
  split_ifs <;> rfl

lemma setStore_eq {sn : ℕ} {l : List (ℕ × ℕ)} (h : ∀ x ∈ l, x.1 < sn) (ssid : ℕ) :
    setStore sn ssid l = (sn, ssid) :: l := by
  cases l with
  | nil => rfl
  | cons x l => rw [setStore, if_pos (h x (mem_cons_self ..))]

lemma Ok.store_le (h : s.Ok p last) {x : ℕ × ℕ} (hx : x ∈ s.storeList) : x.1 ≤ last :=
  (h.younger x hx).trans (h.lfst x.2)

lemma Ok.insertStore (h : s.Ok p last) {pc sn : ℕ} (hsn : last < sn) :
    Sat (fun _ => False) (fun s' => s'.Ok p sn ∧ (s' = s.checkClear p ∨ ∃ k, s' = { s.checkClear p with
        lfst := update (s.checkClear p).lfst k sn
        validLfst := update (s.checkClear p).validLfst k true
        storeList := (sn, k) :: (s.checkClear p).storeList })) (s.insertStore p pc sn) := by
  have hclear := h.checkClear
  have hlater : ∀ x ∈ (s.checkClear p).storeList, x.1 < sn := fun x hx => (hclear.store_le hx).trans_lt hsn
  unfold StoreSet.insertStore
  cases hfind : s.findEntry p pc with
  | none => exact ⟨hclear.mono hsn.le, .inl rfl⟩
  | some st =>
    refine of_ensure (by simpa [ssid_checkClear] using h.ssid_lt hfind) ?_
    rw [setStore_eq hlater]
    refine ⟨⟨hclear.ssid, fun k => ?_, pairwise_cons.mpr ⟨hlater, hclear.sorted⟩, fun x hx => ?_⟩, .inr ⟨_, rfl⟩⟩
    · by_cases hk : k = ((s.checkClear p).ssit st).ssid
      · simp [hk]
      · simpa [update_of_ne hk] using (hclear.lfst k).trans hsn.le
    grind [Ok.younger]

def Maps (p : StoreSetParams) (s : StoreSet) (pc k : ℕ) : Prop :=
  ∃ i, s.findEntry p pc = some i ∧ (s.ssit i).ssid = k

/-- A store that issues leaves `storeList`; it leaves the LFST where its address maps to the set. -/
lemma Ok.issued (h : s.Ok p last) (pc sn : ℕ) : Sat (fun _ => False) (fun s' => s'.Ok p last ∧ s'.lfst = s.lfst ∧
      s'.storeList = s.storeList.filter (fun x => x.1 != sn) ∧
      ∀ k, s'.validLfst k = true ↔ s.validLfst k = true ∧ ¬ (s.lfst k = sn ∧ s.Maps p pc k))
      (s.issued p pc sn true) := by
  have hok (valid : ℕ → Bool) : Ok p { s with validLfst := valid, storeList := s.storeList.filter fun x => x.1 != sn } last :=
    ⟨h.ssid, h.lfst, h.sorted.filter _, fun x hx => h.younger x (mem_filter.mp hx).1⟩
  unfold StoreSet.issued
  rw [if_pos rfl]
  cases hfind : s.findEntry p pc with
  | none => exact ⟨hok _, rfl, rfl, by simp [Maps, hfind]⟩
  | some i =>
    have hmaps (k : ℕ) : s.Maps p pc k ↔ k = (s.ssit i).ssid := by simp [Maps, hfind, eq_comm]
    refine of_ensure (decide_eq_true (h.ssid_lt hfind)) ?_
    refine ite (fun hlast => ?_) fun hlast => ?_
    · refine ⟨hok _, rfl, rfl, fun k => ?_⟩
      grind
    · refine ⟨hok _, rfl, rfl, fun k => ?_⟩
      grind

/-- The loop of `squash` drops the stores that are younger, and the sets they are in. -/
lemma squashLoop_spec {num : ℕ} {lfst : ℕ → ℕ} {l : List (ℕ × ℕ)} (hsorted : l.Pairwise fun x y => y.1 < x.1)
    (hyounger : ∀ x ∈ l, x.1 ≤ lfst x.2) (valid : ℕ → Bool) :
    Sat (fun _ => False) (fun r => r.2 = l.filter (fun x => x.1 ≤ num) ∧
      ∀ k, r.1 k = true ↔ valid k = true ∧ ∀ x ∈ l, x.2 = k → x.1 ≤ num) (squashLoop num lfst valid l) := by
  induction l generalizing valid with
  | nil => simp [squashLoop]
  | cons x l ih =>
    obtain ⟨sn, idx⟩ := x
    obtain ⟨hhead, htail⟩ := pairwise_cons.mp hsorted
    rw [squashLoop]
    refine ite (fun hsn => ?_) fun hsn => ite (fun hidx => ?_) fun _ => ?_
    · -- the rest is older still
      have hold : ∀ x ∈ (sn, idx) :: l, x.1 ≤ num := by grind
      refine ⟨(filter_eq_self.mpr fun x hx => decide_eq_true (hold x hx)).symm, fun k => ?_⟩
      exact ⟨fun hk => ⟨hk, fun x hx _ => hold x hx⟩, And.left⟩
    · exact hsn ((hyounger _ (mem_cons_self ..)).trans hidx)
    · refine (ih htail (fun x hx => hyounger x (mem_cons_of_mem _ hx)) _).mono fun r hr => ⟨?_, fun k => ?_⟩
      · simpa [hsn] using hr.1
      · rw [hr.2 k]
        by_cases hk : k = idx
        · simp [hk, hsn]
        · simp [hk, Ne.symm hk]

lemma Ok.squash (h : s.Ok p last) (num : ℕ) : Sat (fun _ => False) (fun s' => s'.Ok p last ∧ s'.lfst = s.lfst ∧
      s'.storeList = s.storeList.filter (fun x => x.1 ≤ num) ∧
      ∀ k, s'.validLfst k = true ↔ s.validLfst k = true ∧ ∀ x ∈ s.storeList, x.2 = k → x.1 ≤ num) (s.squash num) := by
  refine bind (squashLoop_spec h.sorted h.younger s.validLfst) fun r hr => ?_
  refine ⟨⟨h.ssid, h.lfst, ?_, fun x hx => ?_⟩, rfl, hr.1, hr.2⟩
  · grind [Ok.sorted]
  grind [Ok.younger]

/-- **Every call returns**. -/
lemma Ok.perform (h : s.Ok p last) {c : Call} (hc : c.Legal p last) :
    ∃ s', s.perform p c = .ok s' ∧ s'.Ok p (c.last last) := by
  cases c with
  | violation storePC loadPC ldVictim stVictim =>
    obtain ⟨s', hs', hok, -⟩ := (h.violation hc.1 hc.2).exists_ok
    exact ⟨s', hs', hok⟩
  | insertLoad loadPC sn => exact ⟨_, rfl, h.checkClear⟩
  | insertStore storePC sn =>
    obtain ⟨s', hs', hok, -⟩ := (h.insertStore hc).exists_ok
    exact ⟨s', hs', hok⟩
  | issued pc sn isStore =>
    cases isStore with
    | false => exact ⟨s, rfl, h⟩
    | true =>
      obtain ⟨s', hs', hok, -⟩ := (h.issued pc sn).exists_ok
      exact ⟨s', hs', hok⟩
  | squash num =>
    obtain ⟨s', hs', hok, -⟩ := (h.squash num).exists_ok
    exact ⟨s', hs', hok⟩
  | clear => exact ⟨_, rfl, h.clear⟩

/-! ### Runs -/

/-- The predictor together with the stores it has seen. -/
structure Run where
  pred : StoreSet := {}
  /-- The last store inserted. -/
  last : ℕ := 0
  /-- The stores inserted, with their addresses. -/
  stores : List (ℕ × ℕ) := []
  /-- The stores that have issued or were squashed. -/
  finished : List ℕ := []

namespace Run

/-- The calls that may come next: a store issues once. -/
def Legal (p : StoreSetParams) (r : Run) (c : Call) : Prop :=
  c.Legal p r.last ∧ ∀ pc sn, c = .issued pc sn true → (sn, pc) ∈ r.stores ∧ sn ∉ r.finished

/-- The run after a call that has left the predictor `pred`. -/
def next (r : Run) (c : Call) (pred : StoreSet) : Run where
  pred := pred
  last := c.last r.last
  stores := match c with
    | .insertStore storePC sn => (sn, storePC) :: r.stores
    | _ => r.stores
  finished := match c with
    | .issued _ sn true => sn :: r.finished
    | .squash num => (r.stores.map Prod.fst).filter (fun sn => num < sn) ++ r.finished
    | _ => r.finished

/-- The runs all of whose calls meet `Q`. -/
inductive Reachable (p : StoreSetParams) (Q : Run → Call → Prop) : Run → Prop where
  | init : Reachable p Q {}
  | step {r : Run} {c : Call} {pred : StoreSet} (hr : Reachable p Q r) (hlegal : r.Legal p c) (hQ : Q r c)
      (hpred : r.pred.perform p c = .ok pred) : Reachable p Q (r.next c pred)

/-- When a store issues, its address still maps to the set that has it as its last store. -/
def StillMapped (p : StoreSetParams) (r : Run) (c : Call) : Prop :=
  ∀ pc sn, c = .issued pc sn true → ∀ k, r.pred.validLfst k = true → r.pred.lfst k = sn → r.pred.Maps p pc k

structure Ok (p : StoreSetParams) (r : Run) : Prop where
  pred : r.pred.Ok p r.last
  seen : ∀ x ∈ r.stores, 0 < x.1 ∧ x.1 ≤ r.last
  finished : ∀ sn ∈ r.finished, 0 < sn ∧ sn ≤ r.last
  /-- The stores of `storeList` have not finished. -/
  list : ∀ x ∈ r.pred.storeList, x.1 ∉ r.finished

/-- The last stores of the sets are in `storeList`. -/
def Listed (s : StoreSet) : Prop := ∀ k, s.validLfst k = true → (s.lfst k, k) ∈ s.storeList

lemma listed_clear : Listed s.clear := fun _ hk => nomatch hk

lemma listed_checkClear (h : Listed s) : Listed (s.checkClear p) := by
  unfold StoreSet.checkClear
  split_ifs
  · exact listed_clear
  · exact h

lemma checkClear_storeList {x : ℕ × ℕ} (hx : x ∈ (s.checkClear p).storeList) : x ∈ s.storeList := by
  unfold StoreSet.checkClear at hx
  split_ifs at hx
  · cases hx
  · exact hx

lemma SameTables.listed (h : SameTables s s') (hs : Listed s) : Listed s' := by
  unfold Listed
  rw [h.lfst, h.validLfst, h.storeList]
  exact hs

variable {r : Run} {c : Call} {pred : StoreSet} {sn pc num : ℕ}

/-- A call that only drops stores from `storeList`, and finishes none. -/
lemma Ok.of_sublist (h : r.Ok p) (hpred : pred.Ok p r.last) (hlist : ∀ x ∈ pred.storeList, x ∈ r.pred.storeList) :
    Ok p { r with pred := pred } :=
  ⟨hpred, h.seen, h.finished, fun x hx => h.list x (hlist x hx)⟩

lemma Ok.insertStore (h : r.Ok p) (hsn : r.last < sn) (hpred : r.pred.insertStore p pc sn = .ok pred) :
    (r.next (.insertStore pc sn) pred).Ok p ∧ (Listed r.pred → Listed pred) := by
  obtain ⟨hok, hcases⟩ := (h.pred.insertStore hsn).of_ok hpred
  have hseen : ∀ x ∈ (sn, pc) :: r.stores, 0 < x.1 ∧ x.1 ≤ sn := by
    intro x hx
    grind [Ok.seen]
  have hfinished : ∀ x ∈ r.finished, 0 < x ∧ x ≤ sn := fun x hx =>
    ⟨(h.finished x hx).1, (h.finished x hx).2.trans hsn.le⟩
  rcases hcases with rfl | ⟨k, rfl⟩
  · exact ⟨⟨hok, hseen, hfinished, fun x hx => h.list x (checkClear_storeList hx)⟩, listed_checkClear⟩
  · refine ⟨⟨hok, hseen, hfinished, fun x hx => ?_⟩, fun hlisted j hj => ?_⟩
    · rcases mem_cons.mp hx with rfl | hx
      · exact fun hmem => Nat.not_le.mpr hsn (h.finished _ hmem).2
      · exact h.list x (checkClear_storeList hx)
    · by_cases hjk : j = k
      · subst hjk
        simp
      · simp only [update_of_ne hjk] at hj ⊢
        exact mem_cons_of_mem _ (listed_checkClear hlisted j hj)

lemma Ok.issued (h : r.Ok p) (hmem : (sn, pc) ∈ r.stores) (hpred : r.pred.issued p pc sn true = .ok pred) :
    (r.next (.issued pc sn true) pred).Ok p ∧ (r.StillMapped p (.issued pc sn true) → Listed r.pred → Listed pred) := by
  obtain ⟨hok, hlfst, hlist, hvalid⟩ := (h.pred.issued pc sn).of_ok hpred
  refine ⟨⟨hok, h.seen, fun x hx => ?_, fun x hx => ?_⟩, fun hmapped hlisted k hk => ?_⟩
  · rcases mem_cons.mp hx with rfl | hx
    · exact h.seen _ hmem
    · exact h.finished x hx
  · change x ∈ pred.storeList at hx
    rw [hlist, mem_filter] at hx
    rw [bne_iff_ne] at hx
    exact fun hfin => (mem_cons.mp hfin).elim hx.2 (h.list x hx.1)
  · obtain ⟨hk, hne⟩ := (hvalid k).mp hk
    rw [hlfst, hlist, mem_filter]
    refine ⟨hlisted k hk, ?_⟩
    simp only [bne_iff_ne, ne_eq]
    exact fun hsn => hne ⟨hsn, hmapped pc sn rfl k hk hsn⟩

lemma Ok.squash (h : r.Ok p) (hpred : r.pred.squash num = .ok pred) :
    (r.next (.squash num) pred).Ok p ∧ (Listed r.pred → Listed pred) := by
  obtain ⟨hok, hlfst, hlist, hvalid⟩ := (h.pred.squash num).of_ok hpred
  refine ⟨⟨hok, h.seen, fun x hx => ?_, fun x hx => ?_⟩, fun hlisted k hk => ?_⟩
  · rcases mem_append.mp hx with hx | hx
    · obtain ⟨y, hy, rfl⟩ := mem_map.mp (mem_filter.mp hx).1
      exact h.seen y hy
    · exact h.finished x hx
  · change x ∈ pred.storeList at hx
    rw [hlist, mem_filter, decide_eq_true_iff] at hx
    intro hfin
    rcases mem_append.mp hfin with hfin | hfin
    · exact Nat.not_lt.mpr hx.2 (of_decide_eq_true (mem_filter.mp hfin).2)
    · exact h.list x hx.1 hfin
  · obtain ⟨hk, hold⟩ := (hvalid k).mp hk
    rw [hlfst, hlist, mem_filter]
    exact ⟨hlisted k hk, decide_eq_true (hold _ (hlisted k hk) rfl)⟩

lemma Ok.step (h : r.Ok p) (hlegal : r.Legal p c) (hpred : r.pred.perform p c = .ok pred) :
    (r.next c pred).Ok p ∧ (r.StillMapped p c → Listed r.pred → Listed pred) := by
  cases c with
  | violation storePC loadPC ldVictim stVictim =>
    obtain ⟨hok, hsame⟩ := (h.pred.violation hlegal.1.1 hlegal.1.2).of_ok hpred
    exact ⟨h.of_sublist hok fun x hx => hsame.storeList ▸ hx, fun _ => SameTables.listed hsame⟩
  | insertLoad loadPC sn =>
    cases hpred
    exact ⟨h.of_sublist h.pred.checkClear fun _ => checkClear_storeList, fun _ => listed_checkClear⟩
  | insertStore storePC sn =>
    obtain ⟨hok, hlisted⟩ := h.insertStore hlegal.1 hpred
    exact ⟨hok, fun _ => hlisted⟩
  | issued pc sn isStore =>
    cases isStore with
    | false =>
      cases hpred
      exact ⟨h.of_sublist h.pred fun _ => id, fun _ => id⟩
    | true => exact h.issued (hlegal.2 pc sn rfl).1 hpred
  | squash num =>
    obtain ⟨hok, hlisted⟩ := h.squash hpred
    exact ⟨hok, fun _ => hlisted⟩
  | clear =>
    cases hpred
    exact ⟨h.of_sublist h.pred.clear nofun, fun _ _ => listed_clear⟩

lemma Reachable.ok {Q : Run → Call → Prop} (h : Reachable p Q r) : r.Ok p := by
  induction h with
  | init => exact ⟨⟨nofun, fun _ => Nat.le_refl _, .nil, nofun⟩, nofun, nofun, nofun⟩
  | step _ hlegal _ hpred ih => exact (ih.step hlegal hpred).1

lemma Reachable.listed (h : Reachable p (StillMapped p) r) : Listed r.pred := by
  induction h with
  | init => exact fun _ hk => nomatch hk
  | step hr hlegal hQ hpred ih => exact (hr.ok.step hlegal hpred).2 hQ ih

lemma checkInst_spec (h : s.Ok p last) (pc : ℕ) :
    Sat (fun _ => False) (fun sn => sn = 0 ∨ ∃ k, s.validLfst k = true ∧ sn = s.lfst k) (s.checkInst p pc) := by
  unfold StoreSet.checkInst
  cases hfind : s.findEntry p pc with
  | none => exact .inl rfl
  | some i =>
    refine of_ensure (decide_eq_true (h.ssid_lt hfind)) ?_
    cases hvalid : s.validLfst (s.ssit i).ssid with
    | false => exact .inl rfl
    | true => exact .inr ⟨_, hvalid, rfl⟩

/-- **The predictor does not point at a store that has issued or was squashed**, in a run where each
store's address still maps to the set that has it as its last store when it issues. -/
theorem finished_never_predicted (h : Reachable p (StillMapped p) r) (pc : ℕ) :
    ∃ sn, r.pred.checkInst p pc = .ok sn ∧ sn ∉ r.finished := by
  obtain ⟨sn, hsn, hcases⟩ := exists_ok (checkInst_spec h.ok.pred pc)
  refine ⟨sn, hsn, ?_⟩
  rcases hcases with rfl | ⟨k, hk, rfl⟩
  · exact fun hmem => absurd (h.ok.finished 0 hmem).1 (Nat.lt_irrefl 0)
  · exact h.ok.list _ (h.listed k hk)

lemma four_entries_pos : 0 < 4 := by decide

/-- Four addresses, each with an entry of its own. -/
def fourEntries : StoreSetParams where
  possibleEntries pc := [pc]
  extractTag := id
  lfstSize := 4
  clearPeriod := 100
  lfstSize_pos := four_entries_pos

theorem finished_never_predicted_two : ∃ r, Reachable fourEntries (StillMapped fourEntries) r ∧ r.finished = [1] ∧
      ∃ sn, r.pred.checkInst fourEntries 2 = .ok sn ∧ sn ∉ r.finished := by
  have h₁ := Reachable.step (p := fourEntries) (Q := StillMapped fourEntries) .init (c := .violation 1 2 2 1)
    ⟨⟨by decide, by decide⟩, nofun⟩ nofun rfl
  have h₂ := Reachable.step h₁ (c := .insertStore 1 1) ⟨Nat.zero_lt_one, nofun⟩ nofun rfl
  have h₃ := Reachable.step h₂ (c := .issued 1 1 true) ⟨trivial, by rintro _ _ ⟨⟩; decide⟩ (by
    rintro _ _ ⟨⟩ k hk -
    by_cases hk2 : k = 2
    · exact ⟨1, rfl, hk2.symm⟩
    · change update (fun _ => false) 2 true k = true at hk
      simp [hk2] at hk) rfl
  exact ⟨_, h₃, rfl, finished_never_predicted h₃ 2⟩

/-- **The predictor points at a store that has issued**: between its insertion and its issue, a
violation has moved its address to a lower set. -/
theorem finished_predicted :
    ∃ r, Reachable fourEntries (fun _ _ => True) r ∧ r.finished = [1] ∧ r.pred.checkInst fourEntries 2 = .ok 1 := by
  have h₁ := Reachable.step (p := fourEntries) (Q := fun _ _ => True) .init (c := .violation 1 2 2 1)
    ⟨⟨by decide, by decide⟩, nofun⟩ trivial rfl
  have h₂ := Reachable.step h₁ (c := .insertStore 1 1) ⟨Nat.zero_lt_one, nofun⟩ trivial rfl
  have h₃ := Reachable.step h₂ (c := .violation 3 0 0 3) ⟨⟨by decide, by decide⟩, nofun⟩ trivial rfl
  have h₄ := Reachable.step h₃ (c := .violation 1 0 0 1) ⟨⟨by decide, by decide⟩, nofun⟩ trivial rfl
  have h₅ := Reachable.step h₄ (c := .issued 1 1 true) ⟨trivial, by rintro _ _ ⟨⟩; decide⟩ trivial rfl
  exact ⟨_, h₅, rfl, rfl⟩

end Run

/-! ### Squashing -/

/-- The predictors that sequences of calls lead to, with the last store inserted. Sequence numbers are positive. -/
inductive Reached (p : StoreSetParams) : StoreSet → ℕ → Prop where
  | init : Reached p {} 0
  | call {s s' : StoreSet} {last : ℕ} {c : Call} (h : Reached p s last) (hc : c.Legal p last)
      (hs : s.perform p c = .ok s') : Reached p s' (c.last last)

lemma Reached.ok (h : Reached p s last) : s.Ok p last := by
  induction h with
  | init => exact ⟨nofun, fun _ => Nat.le_refl _, .nil, nofun⟩
  | call _ hc hs ih =>
    obtain ⟨s', hs', hok⟩ := ih.perform hc
    rw [hs] at hs'
    cases hs'
    exact hok

/-- **`squash` returns and is exact** after any sequence of calls, all of which return: the stores that are left in
`storeList` are those up to the one squashed to. -/
theorem squash_exact (h : Reached p s last) : (∀ c : Call, c.Legal p last → ∃ s', s.perform p c = .ok s') ∧
      ∀ num, ∃ s', s.squash num = .ok s' ∧ s'.storeList = s.storeList.filter fun x => x.1 ≤ num := by
  refine ⟨fun c hc => ?_, fun num => ?_⟩
  · obtain ⟨s', hs', -⟩ := h.ok.perform hc
    exact ⟨s', hs'⟩
  · obtain ⟨s', hs', -, -, hlist, -⟩ := (h.ok.squash num).exists_ok
    exact ⟨s', hs', hlist⟩

/-- Of two stores of one set, the younger is squashed. -/
theorem squash_exact_two : ∃ s, Reached Run.fourEntries s 2 ∧ s.storeList = [(2, 2), (1, 2)] ∧
    ∃ s', s.squash 1 = .ok s' ∧ s'.storeList = [(1, 2)] := by
  have h₁ := Reached.call (c := .violation 1 2 2 1) (.init : Reached Run.fourEntries _ _) ⟨by decide, by decide⟩ rfl
  have h₂ := Reached.call (c := .insertStore 1 1) h₁ Nat.zero_lt_one rfl
  have h₃ := Reached.call (c := .insertStore 1 2) h₂ Nat.one_lt_two rfl
  exact ⟨_, h₃, rfl, (squash_exact h₃).2 1⟩

end StoreSet

end Gem5.O3
