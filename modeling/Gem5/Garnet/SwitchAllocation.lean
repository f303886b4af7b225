import Gem5.Garnet.Exec
import Gem5.Lib.RoundRobin

/-!
# Switch allocation

`SwitchAllocator::wakeup` against what it is for: each input port asks for at most one output port, each
output port serves one of those that ask for it, the first one from its pointer on. `request`, `winner` and
`granted` say this of the state when the wakeup starts; the code finds the requests and serves them one
after the other, with credits, virtual channels and pointers that change in between (`wakeup_grants`).
-/

namespace Gem5.Garnet

open Lib Function List

namespace SwitchAllocator

variable (net : Net)

/-! ### The arbitration -/

/-- What an input port asks for: an output port, for one of its virtual channels. -/
def request (now r : ℕ) (d : Data) (l : ℕ) : Option (ℕ × ℕ) :=
  match findWinner net now r l d ((range (numVcs net r)).rotate (d.roundRobinInvc l)) with
  | .ok w => w
  | .error _ => none

/-- The input port `l` asks for `outport`. -/
def asks (now r : ℕ) (d : Data) (outport l : ℕ) : Bool := (request net now r d l).map Prod.fst == some outport

/-- The input port that an output port serves. -/
def winner (now r : ℕ) (d : Data) (outport : ℕ) : Option ℕ :=
  ((net.inLinks (.router r)).rotate (d.roundRobinInport outport)).find? (asks net now r d outport)

def granted (now r : ℕ) (d : Data) (l : ℕ) : Option (ℕ × ℕ) :=
  (request net now r d l).filter fun w =>
    decide (w.1 ∈ net.outLinks (.router r)) && winner net now r d w.1 == some l

variable {net} {now r l outport invc : ℕ} {d : Data} {s s' : State}

lemma sat_true {α : Type} (x : Except Fault α) : Sat (fun _ => True) (fun _ => True) x := by
  cases x <;> trivial

lemma granted_eq_some : granted net now r d l = some (outport, invc) ↔
    request net now r d l = some (outport, invc) ∧ outport ∈ net.outLinks (.router r) ∧
      winner net now r d outport = some l := by
  simp [granted, Option.filter_eq_some_iff]

lemma asks_iff : asks net now r d outport l = true ↔ ∃ invc, request net now r d l = some (outport, invc) := by
  simp [asks]

lemma findWinner_congr (pr vw : ℕ → Option ℕ) (vcs : List ℕ) :
    findWinner net now r l { d with portRequests := pr, vcWinners := vw } vcs = findWinner net now r l d vcs := by
  induction vcs with
  | nil => rfl
  | cons u vcs ih =>
    unfold findWinner
    rw [ih]
    rfl

lemma findWinner_allowed {vcs : List ℕ} (h : findWinner net now r l d vcs = .ok (some (outport, invc))) :
    invc ∈ vcs ∧ (d.virtualChannels (l, invc)).needStage .sa now = .ok true ∧
      (d.virtualChannels (l, invc)).outputPort = some outport ∧
      sendAllowed net now r l invc outport (d.virtualChannels (l, invc)).outputVc d = .ok true := by
  induction vcs with
  | nil => cases h
  | cons u vcs ih =>
    unfold findWinner at h
    obtain ⟨need, hneed, h⟩ := bind_eq_ok.mp h
    cases need with
    | false => simp_all
    | true =>
      rw [if_pos rfl] at h
      cases hport : (d.virtualChannels (l, u)).outputPort with
      | none =>
        rw [hport] at h
        cases h
      | some o =>
        rw [hport] at h
        obtain ⟨allowed, hallowed, h⟩ := bind_eq_ok.mp h
        cases allowed with
        | false => simp_all
        | true =>
          cases h
          exact ⟨mem_cons_self .., hneed, hport, hallowed⟩

lemma request_allowed (h : request net now r d l = some (outport, invc)) :
    invc < numVcs net r ∧ (d.virtualChannels (l, invc)).needStage .sa now = .ok true ∧
      (d.virtualChannels (l, invc)).outputPort = some outport ∧
      sendAllowed net now r l invc outport (d.virtualChannels (l, invc)).outputVc d = .ok true := by
  unfold request at h
  split at h
  · rename_i w hw
    subst h
    obtain ⟨hmem, hrest⟩ := findWinner_allowed hw
    exact ⟨mem_range.mp (mem_rotate.mp hmem), hrest⟩
  · cases h

/-! ### The first phase -/

/-- The requests of the input ports in `done` have been found. -/
structure Asked (net : Net) (now r : ℕ) (d : Data) (done : List ℕ) (d' : Data) : Prop where
  frame : ∃ pr vw, d' = { d with portRequests := pr, vcWinners := vw }
  requests : ∀ l ∈ done, d'.portRequests l = (request net now r d l).map Prod.fst
  winners : ∀ l ∈ done, ∀ outport invc, request net now r d l = some (outport, invc) → d'.vcWinners l = some invc
  other : ∀ l, l ∉ done → d'.portRequests l = d.portRequests l

lemma arbitrateInports_asked (hclear : ∀ l ∈ net.inLinks (.router r), d.portRequests l = none) :
    Sat (fun _ => True) (Asked net now r d (net.inLinks (.router r)))
      ((net.inLinks (.router r)).foldlM (arbitrateInport net now r) d) := by
  refine Sat.foldlM (fun done d' => Asked net now r d done d') ⟨⟨_, _, rfl⟩, nofun, nofun, fun _ _ => rfl⟩ ?_
  intro done l rest d' hl h
  obtain ⟨pr, vw, rfl⟩ := h.frame
  have hnew : l ∉ done := by grind [Net.nodup_inLinks]
  have hold : pr l = none := (h.other l hnew).trans (hclear l (by rw [hl]; simp))
  -- once more with a port that has its request
  have hnext {pr' vw' : ℕ → Option ℕ} (hpr : pr' l = (request net now r d l).map Prod.fst)
      (hvw : ∀ outport invc, request net now r d l = some (outport, invc) → vw' l = some invc)
      (hpr' : ∀ k ≠ l, pr' k = pr k) (hvw' : ∀ k ≠ l, vw' k = vw k) :
      Asked net now r d (done ++ [l]) { d with portRequests := pr', vcWinners := vw' } := by
    have hcases {k : ℕ} (hk : k ∈ done ++ [l]) : k = l ∨ k ≠ l ∧ k ∈ done := by grind
    refine ⟨⟨_, _, rfl⟩, fun k hk => ?_, fun k hk => ?_, fun k hk => ?_⟩
    · rcases hcases hk with rfl | ⟨hkl, hk⟩
      · exact hpr
      · exact (hpr' k hkl).trans (h.requests k hk)
    · rcases hcases hk with rfl | ⟨hkl, hk⟩
      · exact hvw
      · exact fun o u hr => (hvw' k hkl).trans (h.winners k hk o u hr)
    · rw [mem_append, mem_singleton, not_or] at hk
      exact (hpr' k hk.2).trans (h.other k hk.1)
  unfold arbitrateInport
  rw [findWinner_congr]
  change Sat _ _ (findWinner net now r l d ((range (numVcs net r)).rotate (d.roundRobinInvc l)) >>= _)
  cases hfind : findWinner net now r l d ((range (numVcs net r)).rotate (d.roundRobinInvc l)) with
  | error e => exact trivial
  | ok w =>
    have hreq : request net now r d l = w := by rw [request, hfind]
    cases w with
    | none => exact hnext (by rw [hreq]; exact hold) (by rw [hreq]; nofun) (fun _ _ => rfl) fun _ _ => rfl
    | some w =>
      refine hnext (by rw [hreq]; exact update_self ..) (fun o u ho => ?_) (fun k hk => update_of_ne hk ..)
        fun k hk => update_of_ne hk ..
      grind

/-! ### The second phase -/

lemma outvcFor_frame {x : ℕ × Data} (h : outvcFor net now r outport l invc d = .ok x) :
    ∃ vcs ovs, x.2 = { d with virtualChannels := vcs, outVcState := ovs } ∧
      (vcs (l, invc)).inputBuffer = (d.virtualChannels (l, invc)).inputBuffer ∧
      ∀ c, c ≠ (l, invc) → vcs c = d.virtualChannels c := by
  unfold outvcFor at h
  split at h
  · cases h
    exact ⟨_, _, rfl, rfl, fun _ _ => rfl⟩
  · obtain ⟨vnet, -, h⟩ := bind_eq_ok.mp h
    unfold OutputUnit.selectFreeVc at h
    cases hfind : (OutputUnit.vcsOf net outport vnet).find? (OutputUnit.isVcIdle now outport d) with
    | none =>
      rw [hfind] at h
      cases h
    | some v =>
      rw [hfind] at h
      cases h
      refine ⟨_, _, rfl, ?_, fun c hc => update_of_ne hc ..⟩
      simp [Data.setOutVc]

structure Grant (net : Net) (r outport l invc : ℕ) (s s' : State) : Prop where
  now : s'.now = s.now
  crossed : ∃ f rest v, (s.data.virtualChannels (l, invc)).inputBuffer = f :: rest ∧
    s'.data.switchBuffers l = s.data.switchBuffers l ++ [{ f with outport := some outport, vc := v }.advanceStage .st s.now]
  other : ∀ k ≠ l, s'.data.switchBuffers k = s.data.switchBuffers k ∧
    (∀ u, s'.data.virtualChannels (k, u) = s.data.virtualChannels (k, u)) ∧ s'.data.portRequests k = s.data.portRequests k ∧
    s'.data.roundRobinInvc k = s.data.roundRobinInvc k
  winners : s'.data.vcWinners = s.data.vcWinners
  request : s'.data.portRequests l = none
  inport : s'.data.roundRobinInport = update s.data.roundRobinInport outport
    (ringNext ((net.inLinks (.router r)).idxOf l) (net.inLinks (.router r)).length)
  invc : s'.data.roundRobinInvc l = ringNext invc (numVcs net r)

lemma grant_spec (hwin : s.data.vcWinners l = some invc) :
    Sat (fun _ => True) (Grant net r outport l invc s) (grant net r outport l s) := by
  unfold grant
  rw [hwin]
  dsimp only
  cases hout : outvcFor net s.now r outport l invc s.data with
  | error e => exact trivial
  | ok x =>
    obtain ⟨vcs, ovs, hx, hbuf, hother⟩ := outvcFor_frame hout
    obtain ⟨v, d⟩ := x
    subst hx
    refine Sat.bind (Q := (· = (v, _))) rfl ?_
    rintro _ rfl
    dsimp only
    cases hf : (vcs (l, invc)).inputBuffer with
    | nil => exact trivial
    | cons f rest =>
      refine Sat.bind (sat_true _) fun o _ => Sat.bind (sat_true _) fun _ _ => ?_
      refine ⟨rfl, ⟨f, rest, v, hbuf ▸ hf, ?_⟩, fun k hk => ⟨?_, fun u => ?_, ?_, ?_⟩, rfl, ?_, rfl, ?_⟩
      · exact update_self ..
      · exact update_of_ne hk ..
      · refine (update_of_ne ?_ ..).trans (hother (k, u) ?_) <;> exact fun h => hk (congrArg Prod.fst h)
      · exact update_of_ne hk ..
      · exact update_of_ne hk ..
      · exact update_self ..
      · exact update_self ..

/-- The output ports in `done` have served. -/
structure Served (net : Net) (r : ℕ) (s : State) (done : List ℕ) (s' : State) : Prop where
  now : s'.now = s.now
  waiting : ∀ l ∈ net.inLinks (.router r), (∀ outport ∈ done, winner net s.now r s.data outport ≠ some l) →
    s'.data.switchBuffers l = s.data.switchBuffers l ∧
    (∀ u, s'.data.virtualChannels (l, u) = s.data.virtualChannels (l, u)) ∧
    s'.data.portRequests l = (request net s.now r s.data l).map Prod.fst ∧
    s'.data.roundRobinInvc l = s.data.roundRobinInvc l
  crossed : ∀ l ∈ net.inLinks (.router r), ∀ outport ∈ done, winner net s.now r s.data outport = some l →
    ∃ invc, request net s.now r s.data l = some (outport, invc) ∧
      (∃ f rest v, (s.data.virtualChannels (l, invc)).inputBuffer = f :: rest ∧ s'.data.switchBuffers l =
        s.data.switchBuffers l ++ [{ f with outport := some outport, vc := v }.advanceStage .st s.now]) ∧
      s'.data.portRequests l = none ∧ s'.data.roundRobinInvc l = ringNext invc (numVcs net r)
  winners : ∀ l ∈ net.inLinks (.router r), ∀ outport invc, request net s.now r s.data l = some (outport, invc) →
    s'.data.vcWinners l = some invc
  inport : ∀ outport, s'.data.roundRobinInport outport =
    match if outport ∈ done then winner net s.now r s.data outport else none with
    | some l => ringNext ((net.inLinks (.router r)).idxOf l) (net.inLinks (.router r)).length
    | none => s.data.roundRobinInport outport

lemma winner_asks (h : winner net now r d outport = some l) :
    l ∈ net.inLinks (.router r) ∧ ∃ invc, request net now r d l = some (outport, invc) :=
  ⟨mem_rotate.mp (mem_of_find?_eq_some h), asks_iff.mp (find?_some h)⟩

lemma winner_unique {o o' : ℕ} (h : winner net now r d o = some l) (h' : winner net now r d o' = some l) : o = o' := by
  obtain ⟨-, u, hu⟩ := winner_asks h
  obtain ⟨-, u', hu'⟩ := winner_asks h'
  rw [hu] at hu'
  cases hu'
  rfl

lemma arbitrateOutport_served {s0 : State} {done : List ℕ} (h : Served net r s0 done s) (hnew : outport ∉ done) :
    Sat (fun _ => True) (Served net r s0 (done ++ [outport])) (arbitrateOutport net r s outport) := by
  -- the port finds the winner
  have hpointer : s.data.roundRobinInport outport = s0.data.roundRobinInport outport := by
    rw [h.inport, if_neg hnew]
  have hfind : ((net.inLinks (.router r)).rotate (s.data.roundRobinInport outport)).find?
      (fun l => s.data.portRequests l == some outport) = winner net s0.now r s0.data outport := by
    rw [winner, hpointer]
    refine find?_congr fun l hl => ?_
    have hl := mem_rotate.mp hl
    by_cases hserved : ∃ o ∈ done, winner net s0.now r s0.data o = some l
    · obtain ⟨o, ho, hwin⟩ := hserved
      obtain ⟨u, hreq, -, hnone, -⟩ := h.crossed l hl o ho hwin
      have hne : o ≠ outport := fun heq => hnew (heq ▸ ho)
      simp [asks, hnone, hreq, hne]
    · push Not at hserved
      rw [asks, (h.waiting l hl hserved).2.2.1]
  unfold arbitrateOutport
  dsimp only
  rw [hfind]
  have hmem {o : ℕ} (ho : o ≠ outport) : o ∈ done ++ [outport] ↔ o ∈ done := by simp [ho]
  have hlast : outport ∈ done ++ [outport] := mem_append_right _ (mem_singleton_self _)
  cases hwin : winner net s0.now r s0.data outport with
  | none =>
    refine ⟨h.now, fun l hl hnot => h.waiting l hl fun o ho => hnot o (mem_append_left _ ho), fun l hl o ho hw => ?_,
      h.winners, fun o => ?_⟩
    · have hne : o ≠ outport := by
        rintro rfl
        rw [hwin] at hw
        cases hw
      exact h.crossed l hl o ((hmem hne).mp ho) hw
    · rw [h.inport o]
      by_cases ho : o = outport
      · rw [ho, if_neg hnew, if_pos hlast, hwin]
      · simp only [hmem ho]
  | some l =>
    obtain ⟨hl, invc, hreq⟩ := winner_asks hwin
    have hfree : ∀ o ∈ done, winner net s0.now r s0.data o ≠ some l := fun o ho hw =>
      hnew (winner_unique hwin hw ▸ ho)
    obtain ⟨hsw, hvc, -, -⟩ := h.waiting l hl hfree
    refine (grant_spec (h.winners l hl outport invc hreq)).mono fun s' hg => ?_
    refine ⟨hg.now.trans h.now, fun k hk hnot => ?_, fun k hk o ho hw => ?_, fun k hk o u hu => ?_, fun o => ?_⟩
    · have hkl : k ≠ l := fun heq => hnot outport hlast (heq ▸ hwin)
      obtain ⟨h1, h2, h3, h4⟩ := h.waiting k hk fun o ho => hnot o (mem_append_left _ ho)
      obtain ⟨g1, g2, g3, g4⟩ := hg.other k hkl
      exact ⟨g1.trans h1, fun u => (g2 u).trans (h2 u), g3.trans h3, g4.trans h4⟩
    · by_cases hkl : k = l
      · subst hkl
        obtain rfl := winner_unique hwin hw
        obtain ⟨f, rest, v, hbuf, hcross⟩ := hg.crossed
        refine ⟨invc, hreq, ⟨f, rest, v, hvc invc ▸ hbuf, ?_⟩, hg.request, hg.invc⟩
        rw [hcross, hsw, h.now]
      · have hne : o ≠ outport := by
          rintro rfl
          exact hkl (Option.some.inj (hw.symm.trans hwin))
        obtain ⟨u, hu, ⟨f, rest, v, hbuf, hcross⟩, hnone, hinvc⟩ := h.crossed k hk o ((hmem hne).mp ho) hw
        obtain ⟨g1, -, g3, g4⟩ := hg.other k hkl
        exact ⟨u, hu, ⟨f, rest, v, hbuf, g1.trans hcross⟩, g3.trans hnone, g4.trans hinvc⟩
    · rw [hg.winners]
      exact h.winners k hk o u hu
    · rw [hg.inport]
      by_cases ho : o = outport
      · rw [ho, update_self, if_pos hlast, hwin]
      · rw [update_of_ne ho, h.inport o]
        simp only [hmem ho]

/-! ### A wakeup -/

/-- An allocator between two wakeups: no request is left, and the pointers are in range. -/
structure Idle (net : Net) (r : ℕ) (d : Data) : Prop where
  requests : ∀ l ∈ net.inLinks (.router r), d.portRequests l = none
  invc : ∀ l ∈ net.inLinks (.router r), d.roundRobinInvc l < numVcs net r ∨ numVcs net r = 0
  inport : ∀ o ∈ net.outLinks (.router r), d.roundRobinInport o < (net.inLinks (.router r)).length ∨ net.inLinks (.router r) = []

lemma idle_init (net : Net) (r : ℕ) : Idle net r (Data.init net) where
  requests _ _ := rfl
  invc _ _ := (Nat.eq_zero_or_pos _).symm
  inport _ _ := (eq_or_ne _ []).symm.imp_left length_pos_iff.mpr

lemma checkForWakeup_data (h : checkForWakeup net r s = .ok s') : s'.data = s.data := by
  unfold checkForWakeup at h
  dsimp only at h
  split_ifs at h
  · cases h
    rfl
  · obtain ⟨b, -, h⟩ := bind_eq_ok.mp h
    cases b <;> cases h <;> rfl

lemma wakeup_served (hclear : ∀ l ∈ net.inLinks (.router r), s.data.portRequests l = none) (h : wakeup net r s = .ok s') :
    ∃ t, Served net r s (net.outLinks (.router r)) t ∧ s'.data = clearRequestVector net r t.data := by
  obtain ⟨d, hd, hrest⟩ := bind_eq_ok.mp h
  obtain ⟨t, ht, hcheck⟩ := bind_eq_ok.mp hrest
  have hasked := (arbitrateInports_asked hclear).of_ok hd
  obtain ⟨pr, vw, rfl⟩ := hasked.frame
  have hstart : Served net r s [] { s with data := { s.data with portRequests := pr, vcWinners := vw } } :=
    ⟨rfl, fun l hl _ => ⟨rfl, fun _ => rfl, hasked.requests l hl, rfl⟩, fun _ _ _ ho => absurd ho not_mem_nil, hasked.winners, fun _ => rfl⟩
  have hloop : Sat (fun _ => True) (Served net r s (net.outLinks (.router r))) ((net.outLinks (.router r)).foldlM
      (arbitrateOutport net r) { s with data := { s.data with portRequests := pr, vcWinners := vw } }) := by
    refine Sat.foldlM (Served net r s) hstart fun done o rest t hl hserved => arbitrateOutport_served hserved ?_
    grind [Net.nodup_outLinks]
  exact ⟨t, hloop.of_ok ht, checkForWakeup_data hcheck⟩

/-- What enters the crossbar from an input port: the first flit of a virtual channel, for an output port. -/
def Crosses (s s' : State) (l : ℕ) : Option (ℕ × ℕ) → Prop
  | none => s'.data.switchBuffers l = s.data.switchBuffers l
  | some (outport, invc) => ∃ f rest v, (s.data.virtualChannels (l, invc)).inputBuffer = f :: rest ∧
      s'.data.switchBuffers l = s.data.switchBuffers l ++ [{ f with outport := some outport, vc := v }.advanceStage .st s.now]

/-- **A wakeup grants what the arbitration says.** -/
lemma wakeup_crosses (hidle : Idle net r s.data) (h : wakeup net r s = .ok s') (hl : l ∈ net.inLinks (.router r)) :
    Crosses s s' l (granted net s.now r s.data l) := by
  obtain ⟨t, hserved, hdata⟩ := wakeup_served hidle.requests h
  have hsw : s'.data.switchBuffers = t.data.switchBuffers := by rw [hdata]; rfl
  unfold Crosses
  rw [hsw]
  split
  · rename_i hnone
    refine (hserved.waiting l hl fun o ho hwin => ?_).1
    grind [winner_asks, granted_eq_some]
  grind [granted_eq_some, Served.crossed]

lemma wakeup_idle (hidle : Idle net r s.data) (h : wakeup net r s = .ok s') : Idle net r s'.data := by
  obtain ⟨t, hserved, hdata⟩ := wakeup_served hidle.requests h
  rw [hdata]
  refine ⟨fun l hl => ?_, fun l hl => ?_, fun o ho => ?_⟩
  · exact if_pos (Net.mem_inLinks.mp hl).2
  · change t.data.roundRobinInvc l < _ ∨ _
    by_cases hwon : ∃ o ∈ net.outLinks (.router r), winner net s.now r s.data o = some l
    · obtain ⟨o, ho, hwin⟩ := hwon
      obtain ⟨u, hreq, -, -, hinvc⟩ := hserved.crossed l hl o ho hwin
      rw [hinvc]
      exact .inl (ringNext_lt (request_allowed hreq).1)
    · push Not at hwon
      rw [(hserved.waiting l hl hwon).2.2.2]
      exact hidle.invc l hl
  · change t.data.roundRobinInport o < _ ∨ _
    rw [hserved.inport, if_pos ho]
    cases hwin : winner net s.now r s.data o with
    | none => exact hidle.inport o ho
    | some l => exact .inl (ringNext_lt (idxOf_lt_length_of_mem (winner_asks hwin).1))

lemma exists_granted (ho : outport ∈ net.outLinks (.router r)) (hl : l ∈ net.inLinks (.router r))
    (hasks : asks net now r d outport l = true) : ∃ k ∈ net.inLinks (.router r), ∃ u, granted net now r d k = some (outport, u) := by
  cases hwin : winner net now r d outport with
  | none => exact absurd hasks (find?_eq_none.mp hwin l (mem_rotate.mpr hl))
  | some k =>
    obtain ⟨hk, u, hu⟩ := winner_asks hwin
    exact ⟨k, hk, u, granted_eq_some.mpr ⟨hu, ho, hwin⟩⟩

/-! ### Fairness -/

/-- How far it is from the pointer of an output port to an input port. -/
def distance (net : Net) (r : ℕ) (d : Data) (outport l : ℕ) : ℕ :=
  ringDistance (net.inLinks (.router r)).length (d.roundRobinInport outport) ((net.inLinks (.router r)).idxOf l)

lemma wakeup_closer (hidle : Idle net r s.data) (h : wakeup net r s = .ok s') (ho : outport ∈ net.outLinks (.router r))
    (hl : l ∈ net.inLinks (.router r)) (hasks : asks net s.now r s.data outport l = true)
    (hnot : ∀ u, granted net s.now r s.data l ≠ some (outport, u)) :
    distance net r s'.data outport l < distance net r s.data outport l := by
  obtain ⟨t, hserved, hdata⟩ := wakeup_served hidle.requests h
  have hp := (hidle.inport outport ho).resolve_right (ne_nil_of_mem hl)
  obtain ⟨j, -, hwin, hj⟩ := served_or_closer (Net.nodup_inLinks _) hp hl hasks
  have hwin : winner net s.now r s.data outport = some j := hwin
  have hpointer : s'.data.roundRobinInport outport =
      ringNext ((net.inLinks (.router r)).idxOf j) (net.inLinks (.router r)).length := by
    rw [hdata]
    refine (hserved.inport outport).trans ?_
    rw [if_pos ho, hwin]
  grind [distance, winner_asks, granted_eq_some]

/-- Nothing but its own wakeups changes the arbiters of a router. -/
structure SameArbiters (net : Net) (r : ℕ) (d d' : Data) : Prop where
  requests : ∀ l ∈ net.inLinks (.router r), d'.portRequests l = d.portRequests l
  invc : ∀ l ∈ net.inLinks (.router r), d'.roundRobinInvc l = d.roundRobinInvc l
  inport : ∀ o ∈ net.outLinks (.router r), d'.roundRobinInport o = d.roundRobinInport o

lemma Idle.same {d' : Data} (h : Idle net r d) (hsame : SameArbiters net r d d') : Idle net r d' where
  requests l hl := (hsame.requests l hl).trans (h.requests l hl)
  invc l hl := hsame.invc l hl ▸ h.invc l hl
  inport o ho := hsame.inport o ho ▸ h.inport o ho

/-- `m` wakeups of a router; between two of them anything but its arbiters may change. -/
structure Wakeups (net : Net) (r m : ℕ) (st st' : ℕ → State) : Prop where
  idle : Idle net r (st 0).data
  wakeup : ∀ k < m, wakeup net r (st k) = .ok (st' k)
  same : ∀ k < m, SameArbiters net r (st' k).data (st (k + 1)).data

section

variable {m : ℕ} {st st' : ℕ → State} (h : Wakeups net r m st st') {k : ℕ}
include h

lemma Wakeups.idle_at (hk : k ≤ m) : Idle net r (st k).data := by
  induction k with
  | zero => exact h.idle
  | succ k ih => exact (wakeup_idle (ih (Nat.le_of_succ_le hk)) (h.wakeup k hk)).same (h.same k hk)

lemma Wakeups.closer (ho : outport ∈ net.outLinks (.router r)) (hl : l ∈ net.inLinks (.router r)) (hk : k < m)
    (hasks : asks net (st k).now r (st k).data outport l = true)
    (hnot : ∀ u, granted net (st k).now r (st k).data l ≠ some (outport, u)) :
    distance net r (st (k + 1)).data outport l < distance net r (st k).data outport l := by
  have hlt := wakeup_closer (h.idle_at hk.le) (h.wakeup k hk) ho hl hasks hnot
  rwa [distance, ← (h.same k hk).inport outport ho] at hlt

end

/-- **Switch allocation is a matching, and serves round-robin.** -/
theorem allocation_fair_matching (net : Net) (r : ℕ) : (∀ s s', Idle net r s.data → wakeup net r s = .ok s' →
      Idle net r s'.data ∧
      (∀ l ∈ net.inLinks (.router r), Crosses s s' l (granted net s.now r s.data l)) ∧
      (∀ l l' o u u', granted net s.now r s.data l = some (o, u) → granted net s.now r s.data l' = some (o, u') → l = l') ∧
      (∀ l o u, granted net s.now r s.data l = some (o, u) →
        (s.data.virtualChannels (l, u)).needStage .sa s.now = .ok true ∧
        (s.data.virtualChannels (l, u)).outputPort = some o ∧
        sendAllowed net s.now r l u o (s.data.virtualChannels (l, u)).outputVc s.data = .ok true) ∧
      ∀ o ∈ net.outLinks (.router r), (∃ l ∈ net.inLinks (.router r), asks net s.now r s.data o l = true) →
        ∃ l ∈ net.inLinks (.router r), ∃ u, granted net s.now r s.data l = some (o, u)) ∧
    ∀ m st st', Wakeups net r m st st' → ∀ o ∈ net.outLinks (.router r), ∀ l ∈ net.inLinks (.router r),
      (∀ k < m, asks net (st k).now r (st k).data o l = true) →
      (∀ k < m, (∀ u, granted net (st k).now r (st k).data l ≠ some (o, u)) →
        distance net r (st (k + 1)).data o l < distance net r (st k).data o l) ∧
      ((net.inLinks (.router r)).length ≤ m →
        ∃ k < (net.inLinks (.router r)).length, ∃ u, granted net (st k).now r (st k).data l = some (o, u)) := by
  refine ⟨fun s s' hidle h => ⟨wakeup_idle hidle h, fun l hl => wakeup_crosses hidle h hl, ?_, ?_, ?_⟩, ?_⟩
  · intro l l' o u u' hg hg'
    have hwin := (granted_eq_some.mp hg).2.2
    rw [(granted_eq_some.mp hg').2.2] at hwin
    cases hwin
    rfl
  · exact fun l o u hg => (request_allowed (granted_eq_some.mp hg).1).2
  · rintro o ho ⟨l, hl, hasks⟩
    exact exists_granted ho hl hasks
  · intro m st st' h o ho l hl hasks
    refine ⟨fun k hk hnot => h.closer ho hl hk (hasks k hk) hnot, fun hm => ?_⟩
    refine exists_served (fun k => distance net r (st k).data o l)
      (ringDistance_lt (idxOf_lt_length_of_mem hl)) fun k hk hnot => ?_
    push Not at hnot
    exact h.closer ho hl (hk.trans_le hm) (hasks k (hk.trans_le hm)) hnot

/-- A flit of interface `n` for interface `1`, at the router of `Net.two`. -/
def arrived (n : ℕ) : VirtualChannel where
  inputBuffer := [(Flit.new n 0 0 0 ⟨0, [1], n, 0, 1, 0, 0⟩ 1 { payload := n, destination := [1], size := 128, time := 0 } 128
    128 0 0).advanceStage .sa 0]
  vcState := (.active, 0)
  outputPort := some 3
  enqueueTime := 0

/-- Both interfaces have sent a flit to interface `1`. -/
def contended : State :=
  { State.init Net.two with data := ((Data.init Net.two).setVc (0, 0) (arrived 0)).setVc (2, 0) (arrived 1) }

/-- The first one is served. -/
theorem allocation_fair_matching_contended : ∃ s', wakeup Net.two 0 contended = .ok s' ∧
    Crosses contended s' 0 (some (3, 0)) ∧ Crosses contended s' 2 none := by
  have hidle : Idle Net.two 0 contended.data := ⟨by decide, by decide, by decide⟩
  obtain ⟨s', hs'⟩ : ∃ s', wakeup Net.two 0 contended = .ok s' := ⟨_, rfl⟩
  have hcrosses := ((allocation_fair_matching Net.two 0).1 contended s' hidle hs').2.1
  have h₀ : granted Net.two contended.now 0 contended.data 0 = some (3, 0) := by decide
  have h₂ : granted Net.two contended.now 0 contended.data 2 = none := by decide
  exact ⟨s', hs', h₀ ▸ hcrosses 0 (by decide), h₂ ▸ hcrosses 2 (by decide)⟩

end SwitchAllocator

end Gem5.Garnet
