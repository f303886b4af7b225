import Gem5.Mem.Compressors.Dictionary

/-!
# Chunks of a line

A chunk is a range of bits of one word. The words are put together from chunks in two ways: `decompress` shifts the values
of the chunks to their places, and `fromChunks` replaces the bits of a word one chunk at a time.
-/

namespace Gem5.Compression

open Lib Base List DictionaryCompressor Nat

variable {size : ℕ} {line : Line}

lemma length_toChunks (hsize : size * (64 / size) = 64) (line : Line) :
    (toChunks size line).length = 64 / size * line.length := by
  have hpos : 0 < size := pos_of_ne_zero fun h => by simp [h] at hsize
  rw [toChunks, length_map, length_range, blkSize, show 8 * line.length * 8 = 64 * line.length by omega]
  exact Nat.div_eq_of_eq_mul_right hpos (by rw [← Nat.mul_assoc, hsize])

/-- The chunk with the index `j` in the word `i`. -/
lemma getElem?_toChunks (hsize : size * (64 / size) = 64) {i j : ℕ} (hi : i < line.length) (hj : j < 64 / size) :
    (toChunks size line)[64 / size * i + j]? = some (bits (line.getD i 0) ((j + 1) * size - 1) (j * size)) := by
  have hlen := length_toChunks hsize line
  have hlt : 64 / size * i + j < 64 / size * line.length :=
    calc 64 / size * i + j < 64 / size * i + 64 / size := by omega
      _ = 64 / size * (i + 1) := (mul_succ ..).symm
      _ ≤ 64 / size * line.length := mul_le_mul_left _ hi
  have hdiv : (64 / size * i + j) / (64 / size) = i := by
    rw [mul_add_div (by omega), div_eq_of_lt hj, add_zero]
  have hmod : (64 / size * i + j) % (64 / size) = j := by
    rw [mul_add_mod, mod_eq_of_lt hj]
  rw [toChunks, length_map, length_range] at hlen
  rw [toChunks, getElem?_map, getElem?_range (by omega), Option.map_some, hdiv, hmod]

/-! ### Shifting values to their places -/

lemma getLsbD_foldl_or (g : ℕ → BitVec 64) (js : List ℕ) (w : BitVec 64) (b : ℕ) :
    (js.foldl (fun w j => w ||| g j) w).getLsbD b = (w.getLsbD b || js.any fun j => (g j).getLsbD b) := by
  induction js generalizing w with
  | nil => simp
  | cons j js ih => rw [foldl_cons, ih, BitVec.getLsbD_or, any_cons, Bool.or_assoc]

lemma foldlM_or {ε : Type} {f : BitVec 64 → ℕ → Except ε (BitVec 64)} {g : ℕ → BitVec 64} {js : List ℕ}
    (hf : ∀ j ∈ js, ∀ w, f w j = .ok (w ||| g j)) (w : BitVec 64) :
    js.foldlM f w = .ok (js.foldl (fun w j => w ||| g j) w) := by
  induction js generalizing w with
  | nil => rfl
  | cons j js ih =>
    rw [foldlM_cons, hf j (mem_cons_self ..)]
    exact ih (fun i hi => hf i (mem_cons_of_mem _ hi)) _

lemma getLsbD_chunk {size : ℕ} (hpos : 0 < size) (word : BitVec 64) (j : ℕ) {b : ℕ} (hb : b < 64) :
    (((bits word ((j + 1) * size - 1) (j * size)).setWidth size).setWidth 64 <<< (j * size)).getLsbD b =
      (decide (j * size ≤ b) && decide (b < (j + 1) * size) && word.getLsbD b) := by
  have hwidth : (j + 1) * size - 1 - j * size + 1 = size := by
    rw [add_mul, one_mul]
    omega
  rw [BitVec.getLsbD_shiftLeft, BitVec.getLsbD_setWidth, BitVec.getLsbD_setWidth]
  by_cases hle : j * size ≤ b
  · have hlt : b - j * size < size ↔ b < (j + 1) * size := by
      rw [add_mul, one_mul]
      omega
    rw [getLsbD_bits word (by omega), hwidth, Nat.add_sub_cancel' hle]
    by_cases h : b < (j + 1) * size
    · simp [hle, hlt.mpr h, h, hb, show b - j * size < 64 by omega, show ¬ b < j * size by omega]
    · simp [hlt.not.mpr h, h]
  · simp [hle, show b < j * size by omega]

/-- The word that `decompress` makes from the values of its chunks. -/
lemma concatenated_eq {n : ℕ} (hn : n * (8 / n) = 8) {i : ℕ} (hi : i < line.length) :
    concatenated ((toChunks (8 * n) line).map (·.setWidth (8 * n))) i = .ok (line.getD i 0) := by
  have hpos : 0 < n := pos_of_ne_zero fun h => by simp [h] at hn
  have hper : 64 / (8 * n) = 8 / n := Nat.mul_div_mul_left (m := 8) 8 n (show 0 < 8 by decide)
  have hsize : 8 * n * (64 / (8 * n)) = 64 := by rw [hper, Nat.mul_assoc, hn]
  rw [concatenated]
  refine (foldlM_or (g := fun j => ((bits (line.getD i 0) ((j + 1) * (8 * n) - 1) (j * (8 * n))).setWidth
    (8 * n)).setWidth 64 <<< (j * (8 * n))) (fun j hj w => ?_) 0).trans (congrArg Except.ok ?_)
  · have hj : j < 64 / (8 * n) := by simpa [hper] using hj
    have hget := getElem?_toChunks hsize hi hj
    rw [hper] at hget
    rw [getElem?_map, hget, Option.map_some, mul_assoc j 8 n]
  · refine BitVec.eq_of_getLsbD_eq fun b hb => ?_
    rw [getLsbD_foldl_or, Bool.eq_iff_iff]
    simp only [getLsbD_chunk (show 0 < 8 * n by omega) _ _ hb, Bool.or_eq_true, any_eq_true, mem_reverse,
      mem_range, Bool.and_eq_true, decide_eq_true_eq]
    constructor
    · rintro (h | ⟨-, -, -, h⟩)
      · simp at h
      · exact h
    · intro h
      refine .inr ⟨b / (8 * n), ?_, ⟨div_mul_le_self .., ?_⟩, h⟩
      · exact Nat.div_lt_of_lt_mul (by rw [Nat.mul_assoc, hn]; exact hb)
      · rw [mul_comm]
        exact lt_mul_div_succ b (by omega)

/-- The line that `decompress` makes from the values of its chunks. -/
lemma mapM_concatenated {n : ℕ} (hn : n * (8 / n) = 8) (line : Line) : (range line.length).mapM
      (concatenated ((toChunks (8 * n) line).map (·.setWidth (8 * n)))) = .ok line := by
  rw [mapM_eq_ok (g := fun i => line.getD i 0) fun i hi => concatenated_eq hn (mem_range.mp hi)]
  congr 1
  refine ext_getElem (by simp) fun i h1 h2 => ?_
  simp [getElem?_eq_getElem h2]

/-! ### Replacing bits -/

lemma getLsbD_insertBits (val bitVal : BitVec 64) {first last b : ℕ} (hb : b < 64) :
    (insertBits val first last bitVal).getLsbD b =
      if last ≤ b ∧ b ≤ first then bitVal.getLsbD (b - last) else val.getLsbD b := by
  rw [insertBits, BitVec.getLsbD_or, BitVec.getLsbD_and, BitVec.getLsbD_and, BitVec.getLsbD_not, BitVec.getLsbD_shiftLeft,
    getLsbD_maskBetween hb]
  by_cases h1 : last ≤ b <;> by_cases h2 : b ≤ first <;> simp [h1, h2, hb, -BitVec.getLsbD_eq_getElem]

/-- The line after the first `k` chunks were put back: it has the bits of these chunks. -/
structure PutBack (size k : ℕ) (line data : Line) : Prop where
  length : data.length = line.length
  bits {q b : ℕ} : q < line.length → b < 64 →
    (data.getD q 0).getLsbD b = (decide (64 * q + b < k * size) && (line.getD q 0).getLsbD b)

lemma PutBack.zero (size : ℕ) (line : Line) : PutBack size 0 line (replicate line.length 0) where
  length := length_replicate
  bits {q b} hq hb := by
    rw [getD_eq_getElem?_getD, getElem?_replicate, if_pos hq]
    simp

lemma PutBack.succ (hsize : size * (64 / size) = 64) {k : ℕ} {data : Line} (h : PutBack size k line data) :
    PutBack size (k + 1) line (data.modify (k / (64 / size)) fun word =>
      insertBits word ((k % (64 / size) + 1) * size - 1) (k % (64 / size) * size)
        (Base.bits (line.getD (k / (64 / size)) 0) ((k % (64 / size) + 1) * size - 1) (k % (64 / size) * size))) := by
  generalize 64 / size = per at *
  have hpos : 0 < size := pos_of_ne_zero fun h => by simp [h] at hsize
  have hper : 0 < per := pos_of_ne_zero fun h => by simp [h] at hsize
  -- the chunk starts at the bit `k % per * size` of the word `k / per`
  have hstart : k * size = 64 * (k / per) + k % per * size := by
    conv_lhs => rw [← div_add_mod k per]
    rw [add_mul, mul_right_comm, mul_comm per, hsize]
  have hend : k % per * size + size ≤ 64 := by
    rw [← hsize, ← succ_mul, mul_comm]
    exact mul_le_mul_left _ (mod_lt k hper)
  refine ⟨(length_modify ..).trans h.length, fun {q b} hq hb => ?_⟩
  have hold := h.bits hq hb
  have hget : data[q]? = some (data.getD q 0) := by
    rw [getD_eq_getElem?_getD, getElem?_eq_getElem (h.length ▸ hq)]
    rfl
  rw [hstart] at hold
  rw [succ_mul k, succ_mul (k % per), hstart, getD_eq_getElem?_getD, getElem?_modify, hget, Option.map_eq_map,
    Option.map_some, Option.getD_some]
  by_cases hq' : k / per = q
  · subst hq'
    rw [if_pos rfl, getLsbD_insertBits _ _ hb, hold]
    split_ifs with hin
    · rw [getLsbD_bits _ (by omega), Nat.add_sub_cancel' hin.1, decide_eq_true (by omega), decide_eq_true (by omega),
        Bool.and_true, Bool.true_and]
    · congr 1
      rw [decide_eq_decide]
      omega
  · rw [if_neg hq', hold]
    congr 1
    rw [decide_eq_decide]
    omega

lemma getElem_toChunks {k : ℕ} (hk : k < (toChunks size line).length) :
    (toChunks size line)[k] = Base.bits (line.getD (k / (64 / size)) 0) ((k % (64 / size) + 1) * size - 1)
      (k % (64 / size) * size) := by
  simp only [toChunks, getElem_map, getElem_range]

lemma fromChunks_toChunks (hsize : size * (64 / size) = 64) (line : Line) :
    fromChunks size line.length (toChunks size line) = line := by
  have hlen := length_toChunks hsize line
  have hput : ∀ k ≤ 64 / size * line.length, PutBack size k line
      (((toChunks size line).zipIdx.take k).foldl (fun data x => data.modify (x.2 / (64 / size)) fun word =>
        insertBits word ((x.2 % (64 / size) + 1) * size - 1) (x.2 % (64 / size) * size) x.1)
        (replicate line.length 0)) := by
    intro k
    induction k with
    | zero => exact fun _ => .zero size line
    | succ k ih =>
      intro hk
      have hlt : k < (toChunks size line).zipIdx.length := by
        rw [length_zipIdx]
        omega
      rw [take_succ_eq_append_getElem hlt, foldl_append, getElem_zipIdx, zero_add, getElem_toChunks]
      exact (ih (by omega)).succ hsize
  have hall : PutBack size (64 / size * line.length) line (fromChunks size line.length (toChunks size line)) := by
    have h := hput _ (le_refl _)
    rwa [take_of_length_le (le_of_eq (by rw [length_zipIdx, hlen]))] at h
  refine ext_getElem hall.length fun q h1 h2 => BitVec.eq_of_getLsbD_eq fun b hb => ?_
  have hbit := hall.bits h2 hb
  have hend : 64 * q + b < 64 / size * line.length * size := by
    rw [mul_right_comm, mul_comm (64 / size), hsize]
    omega
  rw [decide_eq_true hend, Bool.true_and, getD_eq_getElem?_getD, getD_eq_getElem?_getD,
    getElem?_eq_getElem h2, getElem?_eq_getElem h1] at hbit
  exact hbit

end Gem5.Compression
