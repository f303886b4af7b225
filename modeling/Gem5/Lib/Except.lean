import Mathlib

/-!
# Pre- and postconditions for computations that can stop

`Sat E Q x`: the computation `x` either returns a value with `Q`, or stops with an error that `E`
allows. The rules below follow the structure of a program: return, sequencing, a test, a check
and a loop over a list. The loop rule carries an invariant indexed by the part of the list already
done, so that an invariant can speak about what has been visited.
-/

namespace Gem5.Lib

open List

universe u v

variable {ε : Type u} {α β : Type v}

/-- Go on if the condition holds, stop with `e` otherwise. -/
def ensure (b : Bool) (e : ε) : Except ε PUnit := if b then .ok ⟨⟩ else .error e

/-- `x` returns a value with `Q`, or stops with an error that `E` allows. -/
def Sat (E : ε → Prop) (Q : α → Prop) : Except ε α → Prop
  | .ok a => Q a
  | .error e => E e

variable {E : ε → Prop} {Q R : α → Prop} {S : β → Prop}

variable {a : α} {e : ε} {x : Except ε α} {b : Bool} {γ : Type*}

@[simp] lemma sat_ok : Sat E Q (.ok a) ↔ Q a := Iff.rfl

@[simp] lemma sat_error : Sat E Q (.error e : Except ε α) ↔ E e := Iff.rfl

@[simp] lemma sat_pure : Sat E Q (pure a : Except ε α) ↔ Q a := Iff.rfl

lemma Sat.mono (h : Sat E Q x) (hQ : ∀ a, Q a → R a) : Sat E R x := by
  cases x with
  | ok a => exact hQ a h
  | error e => exact h

lemma Sat.and (h : Sat E Q x) (h' : Sat E R x) : Sat E (fun a => Q a ∧ R a) x := by
  cases x with
  | ok a => exact ⟨h, h'⟩
  | error e => exact h

lemma Sat.bind {f : α → Except ε β} (hx : Sat E Q x) (hf : ∀ a, Q a → Sat E S (f a)) : Sat E S (x >>= f) := by
  cases x with
  | ok a => exact hf a hx
  | error e => exact hx

lemma Sat.ite {c : Prop} [Decidable c] {y : Except ε α} (hx : c → Sat E Q x) (hy : ¬ c → Sat E Q y) :
    Sat E Q (if c then x else y) := by
  split_ifs with h
  · exact hx h
  · exact hy h

lemma Sat.ensure (h : b = false → E e) : Sat E (fun _ => b = true) (ensure b e) := by
  cases b with
  | false => exact h rfl
  | true => exact rfl

lemma Sat.of_ensure {f : PUnit → Except ε α} (hb : b = true) (h : Sat E Q (f ⟨⟩)) :
    Sat E Q (Gem5.Lib.ensure b e >>= f) := by
  subst hb
  exact h

/-- What a run of `x` that returned gives. -/
lemma Sat.of_ok (h : Sat E Q x) (hx : x = .ok a) : Q a := by
  subst hx
  exact h

/-- What a run of `x` that stopped gives. -/
lemma Sat.of_error (h : Sat E Q x) (hx : x = .error e) : E e := by
  subst hx
  exact h

lemma Sat.exists_ok (h : Sat (fun _ => False) Q x) : ∃ a, x = .ok a ∧ Q a := by
  cases x with
  | ok a => exact ⟨a, rfl, h⟩
  | error e => exact h.elim

lemma Sat.mapError {ε' : Type*} {g : ε → ε'} (h : Sat (fun _ => False) Q x) :
    Sat (fun _ => False) Q (x.mapError g) := by
  cases x with
  | ok a => exact h
  | error e => exact h.elim

lemma exists_ok_of_any {p : α → Bool} (h : x.toOption.any p = true) : ∃ a, x = .ok a ∧ p a = true := by
  cases x with
  | ok a => exact ⟨a, rfl, h⟩
  | error e => cases h

lemma bind_eq_ok {f : α → Except ε β} {b : β} : (x >>= f) = .ok b ↔ ∃ a, x = .ok a ∧ f a = .ok b := by
  cases x with
  | ok a => exact ⟨fun h => ⟨a, rfl, h⟩, fun ⟨_, h, h'⟩ => by cases h; exact h'⟩
  | error e =>
    constructor
    · intro h
      cases h
    · rintro ⟨_, h, -⟩
      cases h

lemma ensure_bind (b : Bool) (e : ε) (f : PUnit → Except ε α) :
    (Gem5.Lib.ensure b e >>= f) = if b = true then f ⟨⟩ else .error e := by
  cases b <;> rfl

lemma ensure_eq_ok {u : PUnit} : Gem5.Lib.ensure b e = .ok u ↔ b = true := by
  cases b with
  | false => constructor <;> intro h <;> cases h
  | true => exact ⟨fun _ => rfl, fun _ => rfl⟩

lemma anyM_eq_ok {p : γ → Except ε Bool} {l : List γ} (h : ∀ x ∈ l, ∃ b, p x = .ok b) :
    ∃ b, l.anyM p = .ok b ∧ (b = true ↔ ∃ x ∈ l, p x = .ok true) := by
  induction l with
  | nil => exact ⟨false, rfl, by simp⟩
  | cons x l ih =>
    obtain ⟨b, hb⟩ := h x (mem_cons_self ..)
    obtain ⟨c, hc, hiff⟩ := ih fun y hy => h y (mem_cons_of_mem _ hy)
    rw [anyM, hb]
    cases b with
    | true => exact ⟨true, rfl, iff_of_true rfl ⟨x, mem_cons_self .., hb⟩⟩
    | false =>
      refine ⟨c, hc, hiff.trans ⟨fun ⟨y, hy, hp⟩ => ⟨y, mem_cons_of_mem _ hy, hp⟩, fun ⟨y, hy, hp⟩ => ?_⟩⟩
      rcases mem_cons.mp hy with rfl | hy
      · rw [hb] at hp
        cases hp
      · exact ⟨y, hy, hp⟩

lemma Sat.foldlM {f : α → γ → Except ε α} {l : List γ} (I : List γ → α → Prop) (h0 : I [] a)
    (hstep : ∀ done x rest b, l = done ++ x :: rest → I done b → Sat E (I (done ++ [x])) (f b x)) :
    Sat E (I l) (l.foldlM f a) := by
  suffices h : ∀ done rest b, l = done ++ rest → I done b → Sat E (I l) (rest.foldlM f b) from h [] l a rfl h0
  intro done rest
  induction rest generalizing done with
  | nil => intro b hl hI; simpa [hl] using hI
  | cons x rest ih =>
    intro b hl hI
    rw [foldlM_cons]
    exact (hstep done x rest b hl hI).bind fun b' hb' => ih (done ++ [x]) b' (by simpa using hl) hb'

lemma Sat.foldlM_const {f : α → γ → Except ε α} {l : List γ} (h0 : Q a)
    (hstep : ∀ x ∈ l, ∀ b, Q b → Sat E Q (f b x)) : Sat E Q (l.foldlM f a) :=
  Sat.foldlM (fun _ b => Q b) h0 fun done x rest b hl hI => hstep x (by simp [hl]) b hI

/-! ### Loops that build a list -/

lemma mapM_eq_ok {f : γ → Except ε α} {g : γ → α} {l : List γ} (h : ∀ x ∈ l, f x = .ok (g x)) :
    l.mapM f = .ok (l.map g) := by
  induction l with
  | nil => rfl
  | cons x l ih =>
    rw [mapM_cons, h x (mem_cons_self ..), ih fun y hy => h y (mem_cons_of_mem _ hy)]
    rfl

lemma eq_map_of_mapM {f : γ → Except ε α} {g : γ → α} (hf : ∀ x y, f x = .ok y → y = g x) {l : List γ}
    {r : List α} (h : l.mapM f = .ok r) : r = l.map g := by
  induction l generalizing r with
  | nil =>
    cases h
    rfl
  | cons x l ih =>
    rw [mapM_cons] at h
    obtain ⟨y, hy, h⟩ := bind_eq_ok.mp h
    obtain ⟨r', hr', h⟩ := bind_eq_ok.mp h
    cases h
    rw [map_cons, hf x y hy, ih hr']

lemma foldlM_append_eq_ok {f : List α → γ → Except ε (List α)} {g : γ → List α}
    (h : ∀ acc x, f acc x = .ok (acc ++ g x)) (l : List γ) (acc : List α) :
    l.foldlM f acc = .ok (acc ++ l.flatMap g) := by
  induction l generalizing acc with
  | nil => rw [flatMap_nil, append_nil]; rfl
  | cons x l ih =>
    rw [foldlM_cons, h, flatMap_cons, ← append_assoc]
    exact ih _

/-! ### Repeating a body until it changes nothing -/

/-- `change = true; while (change) body`, where the body says whether it changed something. After `n` times it is given
up, with the error `e`. -/
def repeatWhile (e : ε) (body : α → Except ε (α × Bool)) : ℕ → α → Except ε α
  | 0, _ => .error e
  | n + 1, a => do
    let (a', change) ← body a
    if change then repeatWhile e body n a' else pure a'

/-- A body that keeps an invariant and makes a measure less when it changes something is repeated until it changes
nothing. -/
lemma repeatWhile_spec {body : α → Except ε (α × Bool)} {I : α → Prop} {μ : α → ℕ}
    (hbody : ∀ a, I a → ∃ a' change, body a = .ok (a', change) ∧ I a' ∧ (change = true → μ a' < μ a)) {n : ℕ}
    (ha : I a) (hn : μ a < n) :
    ∃ a0 a', I a0 ∧ body a0 = .ok (a', false) ∧ I a' ∧ ∀ m ≥ n, repeatWhile e body m a = .ok a' := by
  induction n generalizing a with
  | zero => exact absurd hn (Nat.not_lt_zero _)
  | succ n ih =>
    obtain ⟨a1, change, h1, hI, hlt⟩ := hbody a ha
    cases change with
    | false =>
      refine ⟨a, a1, ha, h1, hI, fun m hm => ?_⟩
      obtain ⟨m, rfl⟩ : ∃ k, m = k + 1 := ⟨m - 1, by omega⟩
      rw [repeatWhile, h1]
      rfl
    | true =>
      have := hlt rfl
      obtain ⟨a0, a', h2, h3, h4, h5⟩ := ih hI (by omega)
      refine ⟨a0, a', h2, h3, h4, fun m hm => ?_⟩
      obtain ⟨m, rfl⟩ : ∃ k, m = k + 1 := ⟨m - 1, by omega⟩
      rw [repeatWhile, h1]
      exact h5 m (by omega)

end Gem5.Lib
