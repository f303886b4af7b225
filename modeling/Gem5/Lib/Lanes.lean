import Mathlib

/-!
# Interleaved streams

A machine that keeps a record for each of several lanes, whose step on an item of a lane reads and writes
that lane's record only. Its run on any interleaving of streams, one for each lane, is then given by the runs
of the lanes alone (`exists_runs`): each lane ends with the record it would end with alone, and the outputs of
a lane are those it would give alone.
-/

namespace Gem5.Lib

open Function

universe u

variable {κ σ S α β γ : Type u}

/-- A run of a step relation that takes an item and gives a list of outputs. -/
inductive Runs (R : S → α → List β → S → Prop) : S → List α → List β → S → Prop where
  /-- Nothing to take. -/
  | nil (s : S) : Runs R s [] [] s
  /-- One item, then the others. -/
  | cons {s s' s'' : S} {a : α} {as : List α} {bs cs : List β} :
      R s a bs s' → Runs R s' as cs s'' → Runs R s (a :: as) (bs ++ cs) s''

namespace Runs

variable {R : S → α → List β → S → Prop} {s s' s'' : S} {as as' : List α} {bs bs' : List β}

lemma nil_iff : Runs R s [] bs s' ↔ bs = [] ∧ s' = s := by
  constructor
  · intro h
    cases h
    exact ⟨rfl, rfl⟩
  · rintro ⟨rfl, rfl⟩
    exact .nil s'

lemma cons_iff {a : α} :
    Runs R s (a :: as) bs s'' ↔ ∃ s' cs ds, bs = cs ++ ds ∧ R s a cs s' ∧ Runs R s' as ds s'' := by
  constructor
  · intro h
    cases h with
    | cons hR hrest => exact ⟨_, _, _, rfl, hR, hrest⟩
  · rintro ⟨s', cs, ds, rfl, hR, hrest⟩
    exact .cons hR hrest

lemma single {a : α} (h : R s a bs s') : Runs R s [a] bs s' := by
  have := Runs.cons h (.nil s')
  rwa [List.append_nil] at this

lemma append (h : Runs R s as bs s') (h' : Runs R s' as' bs' s'') : Runs R s (as ++ as') (bs ++ bs') s'' := by
  induction h with
  | nil _ => exact h'
  | cons hR _ ih =>
    rw [List.cons_append, List.append_assoc]
    exact .cons hR (ih h')

lemma of_append (h : Runs R s (as ++ as') bs s'') :
    ∃ s' cs ds, bs = cs ++ ds ∧ Runs R s as cs s' ∧ Runs R s' as' ds s'' := by
  induction as generalizing s bs with
  | nil => exact ⟨s, [], bs, rfl, .nil s, h⟩
  | cons a as ih =>
    obtain ⟨_, _, _, rfl, hR, hrest⟩ := cons_iff.mp h
    obtain ⟨s', cs, ds, rfl, h1, h2⟩ := ih hrest
    exact ⟨s', _, ds, (List.append_assoc ..).symm, .cons hR h1, h2⟩

lemma of_prefix (h : Runs R s as bs s'') (hpre : as' <+: as) : ∃ s' cs, cs <+: bs ∧ Runs R s as' cs s' := by
  obtain ⟨rest, rfl⟩ := hpre
  obtain ⟨s', cs, ds, rfl, h1, -⟩ := h.of_append
  exact ⟨s', cs, ⟨ds, rfl⟩, h1⟩

lemma of_map {f : α → γ} {L : S → γ → List β → S → Prop} (hL : ∀ s a bs s', L s (f a) bs s' → R s a bs s')
    (h : Runs L s (as.map f) bs s') : Runs R s as bs s' := by
  induction as generalizing s bs with
  | nil => exact nil_iff.mpr (nil_iff.mp h)
  | cons a as ih =>
    obtain ⟨_, _, _, rfl, hstep, hrest⟩ := cons_iff.mp h
    exact .cons (hL _ _ _ _ hstep) (ih hrest)

section Lanes

variable [DecidableEq κ] {L : σ → α → List β → σ → Prop}

/-- The lanes do not meet: if each has a run on its own items, the machine has a run on all of them. -/
lemma exists_runs (key : α → κ) (key' : β → κ) (view : S → κ → σ) (hR : ∀ s a bs l, L (view s (key a)) a bs l →
      (∀ b ∈ bs, key' b = key a) ∧ ∃ s', R s a bs s' ∧ view s' = update (view s) (key a) l)
    {outs : κ → List β} {ls : κ → σ}
    (h : ∀ v, Runs L (view s v) (as.filter fun a => decide (key a = v)) (outs v) (ls v)) :
    ∃ bs s', Runs R s as bs s' ∧ view s' = ls ∧ ∀ v, bs.filter (fun b => decide (key' b = v)) = outs v := by
  induction as generalizing s outs with
  | nil =>
    refine ⟨[], s, .nil s, funext fun v => ?_, fun v => ?_⟩
    · exact (nil_iff.mp (h v)).2.symm
    · exact (nil_iff.mp (h v)).1.symm
  | cons a as ih =>
    -- the lane of `a` takes a step, the others wait
    have ha := h (key a)
    rw [List.filter_cons_of_pos (by simp)] at ha
    obtain ⟨l, b1, b2, houts, hstep, hrest⟩ := cons_iff.mp ha
    obtain ⟨hkey, s1, hs1, hview⟩ := hR s a b1 l hstep
    have hothers : ∀ v, Runs L (view s1 v) (as.filter fun a => decide (key a = v))
        (update outs (key a) b2 v) (ls v) := by
      intro v
      rw [hview]
      by_cases hv : v = key a
      · subst hv
        rwa [update_self, update_self]
      · have := h v
        rw [List.filter_cons_of_neg (by simpa using Ne.symm hv)] at this
        rwa [update_of_ne hv, update_of_ne hv]
    obtain ⟨bs, s', hrun, hls, hbs⟩ := ih hothers
    refine ⟨b1 ++ bs, s', .cons hs1 hrun, hls, fun v => ?_⟩
    rw [List.filter_append, hbs]
    by_cases hv : v = key a
    · subst hv
      rw [update_self, List.filter_eq_self.mpr (by simpa using hkey), houts]
    · rw [update_of_ne hv, List.filter_eq_nil_iff.mpr, List.nil_append]
      intro b hb
      rw [hkey b hb]
      simpa using Ne.symm hv

end Lanes

end Runs

end Gem5.Lib
