import Gem5.Mem.Compressors.Chunks
import Gem5.Mem.Compressors.Multi
import Gem5.Mem.Compressors.PatternLossless

/-!
# Decompression undoes compression

Decompression starts with the dictionary that compression started with, and each pattern restores its value from the
dictionary that compression had at that value, so both add the same entries. What a compressor has to meet for that is
`Lawful`; with it, a line of so many chunks is restored from any dictionaries the compressor was left with.
-/

namespace Gem5.Compression

open Lib Base List DictionaryCompressor

section Lawful

variable {n size : ℕ} {c : DictionaryCompressor n size} {d : Dictionary size}

/-- The pattern was found for the value, in the dictionary. -/
def Found (c : DictionaryCompressor n size) (d : Dictionary size) (v : Value n) (p : Pattern n) : Prop :=
  p = c.getPattern (toDictionaryEntry v) (toDictionaryEntry (0 : Value n)) (-1) ∨
    ∃ i < d.numEntries, ∃ e, d.dictionary[i]? = some e ∧ p = c.getPattern (toDictionaryEntry v) e i

/-- The patterns are the same but for what is counted for a zero run. -/
def SamePattern (p q : Pattern n) : Prop :=
  q.payload = p.payload ∧ q.matchLocation = p.matchLocation ∧ q.allocate = p.allocate

/-- What a compressor of `k` chunks meets, where `I j` holds of the dictionary after `j` chunks. -/
structure Lawful (c : DictionaryCompressor n size) (k : ℕ) (I : ℕ → Dictionary size → Prop) : Prop where
  restores (v : Value n) (e : DictionaryEntry) (loc : ℤ) : Restores (c.getPattern (toDictionaryEntry v) e loc) v e loc
  reset : ∃ d₀, I 0 d₀ ∧ ∀ d, c.resetDictionary d = .ok d₀
  add {j : ℕ} {d : Dictionary size} (e : DictionaryEntry) : I j d → j < k →
    ∃ d', c.addToDictionary d e = .ok d' ∧ I (j + 1) d'
  skip {j : ℕ} {d : Dictionary size} {v : Value n} {p : Pattern n} : I j d → Found c d v p → p.allocate = false → I (j + 1) d
  bound {j : ℕ} {d : Dictionary size} : I j d → j < k → d.numEntries ≤ size ∧ d.numEntries ≤ 256
  entry (data : CompData n) (p : Pattern n) : ∃ q, SamePattern p q ∧ (c.addEntry data p).entries = data.entries ++ [q]
  final {j : ℕ} {d : Dictionary size} (blkSize sizeBits : ℕ) : I j d → 0 < j →
    ∃ s, c.finalSize blkSize d.numEntries sizeBits = .ok s

variable {k : ℕ} {I : ℕ → Dictionary size → Prop}

section

variable (h : Lawful c k I) {j : ℕ} (hI : I j d)
include h hI

lemma Lawful.found (hj : j < k) (v : Value n) :
    ∃ p, (range d.numEntries).foldlM (c.betterPattern d (toDictionaryEntry v))
        (c.getPattern (toDictionaryEntry v) (toDictionaryEntry (0 : Value n)) (-1)) = .ok p ∧ Found c d v p := by
  have hsize := (h.bound hI hj).1
  have hsat : Sat (fun _ => False) (Found c d v) ((range d.numEntries).foldlM
      (c.betterPattern d (toDictionaryEntry v))
      (c.getPattern (toDictionaryEntry v) (toDictionaryEntry (0 : Value n)) (-1))) := by
    refine Sat.foldlM_const (.inl rfl) fun i hi p hp => ?_
    have hi := mem_range.mp hi
    have hget : d.dictionary[i]? = some d.dictionary[i] := Vector.getElem?_eq_getElem (by omega)
    simp only [betterPattern, Dictionary.entry, hget]
    show Found c d v _
    split_ifs
    · exact .inr ⟨i, hi, _, hget, rfl⟩
    · exact hp
  cases hx : (range d.numEntries).foldlM (c.betterPattern d (toDictionaryEntry v))
      (c.getPattern (toDictionaryEntry v) (toDictionaryEntry (0 : Value n)) (-1)) with
  | ok p => exact ⟨p, rfl, hsat.of_ok hx⟩
  | error e => exact (hsat.of_error hx).elim

lemma Lawful.decompress_found (hj : j < k) {v : Value n} {p q : Pattern n} (hp : Found c d v p)
    (hq : SamePattern p q) (stray : ℕ → DictionaryEntry) :
    q.decompress (d.read stray q.getMatchLocation) = toDictionaryEntry v := by
  have hdec (e : DictionaryEntry) : q.decompress e = p.decompress e := by
    rw [Pattern.decompress, hq.1, Pattern.decompress]
  have hloc : q.getMatchLocation = p.getMatchLocation := by
    rw [Pattern.getMatchLocation, hq.2.1, Pattern.getMatchLocation]
  rw [hdec, hloc]
  rcases hp with rfl | ⟨i, hi, e, he, rfl⟩
  · rcases h.restores v _ (-1) with hr | ⟨hneg, -, -⟩
    · exact hr _
    · exact absurd hneg (by decide)
  · rcases h.restores v e i with hr | ⟨-, hmatch, hr⟩
    · exact hr _
    · have hi256 : i < 256 := Nat.lt_of_lt_of_le hi (h.bound hI hj).2
      have hread : (c.getPattern (toDictionaryEntry v) e i).getMatchLocation = i := by
        rw [Pattern.getMatchLocation, hmatch]
        omega
      rw [hread, Dictionary.read, he]
      exact hr

lemma Lawful.value (hj : j < k) (v : Value n) : ∃ p d', c.compressValue d v = .ok (p, d') ∧ I (j + 1) d' ∧
      ∀ q stray, SamePattern p q → c.decompressValue d stray q = .ok (v, d') := by
  obtain ⟨p, hp, hfound⟩ := h.found hI hj v
  have halloc : ∃ d', c.allocated d p (toDictionaryEntry v) = .ok d' ∧ I (j + 1) d' := by
    rw [allocated]
    cases ha : p.allocate with
    | true => exact h.add _ hI hj
    | false => exact ⟨d, rfl, h.skip hI hfound ha⟩
  obtain ⟨d', hd', hI'⟩ := halloc
  refine ⟨p, d', ?_, hI', fun q stray hq => ?_⟩
  · rw [compressValue, hp]
    show (c.allocated d p (toDictionaryEntry v) >>= fun d => Except.ok (p, d)) = _
    rw [hd']
    rfl
  · rw [allocated] at hd'
    rw [decompressValue, h.decompress_found hI hj hfound hq stray, allocated, hq.2.2, hd',
      fromDictionaryEntry_toDictionaryEntry]
    rfl

lemma Lawful.chunks {chunks : List (BitVec 64)} (hj : j + chunks.length ≤ k) (data : CompData n) :
    ∃ patterns data' d', c.compressChunks data d chunks = .ok (data', d') ∧ data'.entries = data.entries ++ patterns ∧
      I (j + chunks.length) d' ∧ ∀ stray values, c.decompressValues stray values d patterns =
        .ok (values ++ chunks.map (·.setWidth (8 * n)), d') := by
  induction chunks generalizing j d data with
  | nil => exact ⟨[], data, d, rfl, (append_nil _).symm, hI, fun _ values => by simp [decompressValues]⟩
  | cons chunk chunks ih =>
    rw [length_cons] at hj
    obtain ⟨p, d1, hp, hI1, hdec⟩ := h.value hI (by omega) (chunk.setWidth (8 * n))
    obtain ⟨q, hq, hentry⟩ := h.entry data p
    obtain ⟨patterns, data', d', hcomp, hentries, hI', hrest⟩ := ih hI1 (by omega) (c.addEntry data p)
    refine ⟨q :: patterns, data', d', ?_, ?_, ?_, fun stray values => ?_⟩
    · rw [compressChunks, hp]
      exact hcomp
    · rw [hentries, hentry, append_assoc]
      rfl
    · grind
    · rw [decompressValues, hdec q stray hq]
      show c.decompressValues stray (values ++ [chunk.setWidth (8 * n)]) d1 patterns = _
      rw [hrest, append_assoc]
      rfl

end

/-- A line is compressed, whatever the dictionary was, and restored from the patterns, whatever it is then. -/
lemma Lawful.line (h : Lawful c k I) (hn : n * (8 / n) = 8) {line : Line} (hline : line ≠ [])
    (hk : (toChunks (8 * n) line).length ≤ k) (d : Dictionary size) :
    ∃ data d', c.compress d (blkSize line) (toChunks (8 * n) line) = .ok (data, d') ∧
      ∀ data' : CompData n, data'.entries = data.entries → ∀ d2 stray,
        ∃ d2', c.decompress d2 stray line.length data' = .ok (line, d2') := by
  have hper : 64 / (8 * n) = 8 / n := Nat.mul_div_mul_left (m := 8) 8 n (show 0 < 8 by decide)
  have hlen := length_toChunks (show 8 * n * (64 / (8 * n)) = 64 by rw [hper, Nat.mul_assoc, hn]) line
  have hpos : 0 < (toChunks (8 * n) line).length := by
    grind [Nat.mul_pos, Nat.pos_of_ne_zero, length_pos_iff]
  obtain ⟨d0, hI0, hreset⟩ := h.reset
  have hk0 : 0 + (toChunks (8 * n) line).length ≤ k := by omega
  obtain ⟨patterns, data, d1, hcomp, hentries, hI1, hdec⟩ := h.chunks hI0 hk0 {}
  obtain ⟨s, hs⟩ := h.final (blkSize line) data.sizeBits hI1 (by omega)
  refine ⟨{ data with sizeBits := s }, d1, ?_, fun data' hdata' d2 stray => ⟨d1, ?_⟩⟩
  · rw [compress, hreset]
    show (c.compressChunks {} d0 (toChunks (8 * n) line) >>= _) = _
    rw [hcomp]
    show (c.finalSize (blkSize line) d1.numEntries data.sizeBits >>= _) = _
    rw [hs]
    rfl
  · rw [decompress, hreset, hdata', hentries]
    show (c.decompressValues stray [] d0 patterns >>= _) = _
    rw [hdec]
    show ((range line.length).mapM (concatenated ((toChunks (8 * n) line).map _)) >>= _) = _
    rw [mapM_concatenated hn]
    rfl

end Lawful

/-! ### The compressors are lawful -/

section Kinds

variable {n size : ℕ}

lemma reset_eq (d : Dictionary size) :
    d.reset n = { dictionary := Vector.replicate size (toDictionaryEntry (0 : Value n)), numEntries := 0 } := by
  rw [Dictionary.reset]
  congr 1
  ext i hi
  simp

section

variable {d : Dictionary size} (h : d.numEntries < size) (e : DictionaryEntry)
include h e

lemma push_ok : ∃ d', d.push e = .ok d' ∧ d'.numEntries = d.numEntries + 1 :=
  ⟨_, by rw [Dictionary.push, dif_pos h], rfl⟩

lemma append_ok : ∃ d', d.append e = .ok d' ∧ d'.numEntries = d.numEntries + 1 := by
  obtain ⟨d', hd', hnum⟩ := push_ok h e
  refine ⟨d', ?_, hnum⟩
  rw [Dictionary.append, decide_eq_true h]
  exact hd'

end

lemma addEntry_same (data : CompData n) (p : Pattern n) :
    ∃ q, SamePattern p q ∧ (data.addEntry p).entries = data.entries ++ [q] :=
  ⟨p, ⟨rfl, rfl, rfl⟩, rfl⟩

/-- An entry for each chunk finds room. -/
lemma append_le {d : Dictionary size} {j : ℕ} (h : d.numEntries ≤ j) (hj : j < size) (e : DictionaryEntry) :
    ∃ d', d.append e = .ok d' ∧ d'.numEntries ≤ j + 1 ∧ 1 ≤ d'.numEntries := by
  obtain ⟨d', hd', hnum⟩ := append_ok (h.trans_lt hj) e
  exact ⟨d', hd', by omega, by omega⟩

section

variable {k : ℕ} (hk : k ≤ size) (hk' : k ≤ 256)
include hk hk'

lemma CPack.lawful : Lawful (CPack.compressor size) k fun j d => d.numEntries ≤ j where
  restores := getPattern_restores (uncompressedPattern_restores _ _ _ _) (by
    simp only [CPack.patterns, forall_mem_cons, not_mem_nil, false_implies, implies_true, and_true]
    exact ⟨maskedValuePattern_lossless, maskedPattern_lossless, maskedValuePattern_lossless,
      maskedPattern_lossless, maskedPattern_lossless⟩)
  reset := ⟨_, Nat.le_refl 0, fun d => congrArg Except.ok (reset_eq d)⟩
  add e hI hj := by
    obtain ⟨d', hd', hle, -⟩ := append_le hI (hj.trans_le hk) e
    exact ⟨d', hd', hle⟩
  skip hI _ _ := Nat.le_succ_of_le hI
  bound hI hj := by omega
  entry := addEntry_same
  final _ _ _ _ := ⟨_, rfl⟩

lemma Zero.lawful : Lawful (Zero.compressor size) k fun j d => d.numEntries ≤ j where
  restores := getPattern_restores (uncompressedPattern_restores _ _ _ _)
    (forall_mem_singleton.mpr maskedValuePattern_lossless)
  reset := ⟨_, Nat.le_refl 0, fun d => congrArg Except.ok (reset_eq d)⟩
  add := (CPack.lawful hk hk').add
  skip hI _ _ := Nat.le_succ_of_le hI
  bound hI hj := by omega
  entry := addEntry_same
  final _ _ _ _ := ⟨_, rfl⟩

lemma RepeatedQwords.lawful :
    Lawful (RepeatedQwords.compressor size) k fun j d => d.numEntries ≤ j ∧ (0 < j → 1 ≤ d.numEntries) where
  restores := getPattern_restores (uncompressedPattern_restores _ _ _ _)
    (forall_mem_singleton.mpr locatedMaskedPattern_lossless)
  reset := ⟨_, ⟨Nat.le_refl 0, fun h => absurd h (Nat.lt_irrefl 0)⟩, fun d => congrArg Except.ok (reset_eq d)⟩
  add e hI hj := by
    obtain ⟨d', hd', hle, hpos⟩ := append_le hI.1 (hj.trans_le hk) e
    exact ⟨d', hd', hle, fun _ => hpos⟩
  skip {j d v p} hI hp ha := by
    refine ⟨Nat.le_succ_of_le hI.1, fun _ => ?_⟩
    -- a value that is not added matches an entry
    rcases hp with rfl | ⟨i, hi, -⟩
    · cases ha
    · omega
  bound hI hj := by omega
  entry := addEntry_same
  final {j d} blkSize sizeBits hI hj := by
    refine ⟨if 1 < d.numEntries then blkSize * 8 else sizeBits, ?_⟩
    simp only [RepeatedQwords.compressor, decide_eq_true (hI.2 hj)]
    rfl

end

lemma FPC.samePattern_continued (bits : ℕ) (entries : List (Pattern 4)) (p : Pattern 4) :
    SamePattern p (FPC.continued bits entries p) := by
  rw [FPC.continued]
  split
  · exact ⟨rfl, rfl, rfl⟩
  · dsimp only
    split_ifs <;> exact ⟨rfl, rfl, rfl⟩

lemma FPC.lawful (bits k : ℕ) : Lawful (FPC.compressor bits size) k fun _ d => d.numEntries = 0 where
  restores := getPattern_restores (uncompressedPattern_restores _ _ _ _) (by
    simp only [FPC.patterns, forall_mem_cons, not_mem_nil, false_implies, implies_true, and_true]
    exact ⟨zeroRunPattern_lossless _ _ _, signExtendedPattern_lossless (by decide) (by decide) _ _ _,
      signExtendedPattern_lossless (by decide) (by decide) _ _ _, signExtendedPattern_lossless (by decide) (by decide) _ _ _,
      maskedValuePattern_lossless, signExtendedTwoHalfwordsPattern_lossless _ _ _,
      repeatedValuePattern_lossless (by decide) _ _ _ _ _⟩)
  reset := ⟨_, rfl, fun d => congrArg Except.ok (reset_eq d)⟩
  add _ hI _ := ⟨_, rfl, hI⟩
  skip hI _ _ := hI
  bound hI _ := by omega
  entry data p := by
    refine ⟨_, ?_, rfl⟩
    split_ifs
    · exact FPC.samePattern_continued ..
    · exact ⟨rfl, rfl, rfl⟩
  final _ _ _ _ := ⟨_, rfl⟩

lemma FPCD.lawful (hsize : 2 ≤ size) (k : ℕ) : Lawful (FPCD.compressor size) k fun _ d => d.numEntries ≤ 2 where
  restores := getPattern_restores (uncompressedPattern_restores _ _ _ _) (by
    simp only [FPCD.patterns, forall_mem_cons, not_mem_nil, false_implies, implies_true, and_true]
    exact ⟨maskedValuePattern_lossless, maskedValuePattern_lossless, locatedMaskedPattern_lossless,
      locatedMaskedPattern_lossless, maskedValuePattern_lossless, maskedValuePattern_lossless,
      repeatedValuePattern_lossless (by decide) _ _ _ _ _, locatedMaskedPattern_lossless, locatedMaskedPattern_lossless,
      maskedValuePattern_lossless, maskedValuePattern_lossless, maskedValuePattern_lossless,
      maskedValuePattern_lossless, locatedMaskedPattern_lossless, locatedMaskedPattern_lossless⟩)
  reset := ⟨_, Nat.zero_le 2, fun d => congrArg Except.ok (reset_eq d)⟩
  add {j d} e hI _ := by
    simp only [FPCD.compressor, FPCD.addToDictionary]
    split_ifs with h
    · have hget : d.dictionary[FPCD.previousIndex]? = some d.dictionary[1] :=
        Vector.getElem?_eq_getElem (show 1 < size by omega)
      rw [Dictionary.entry, hget]
      exact ⟨_, rfl, hI⟩
    · obtain ⟨d', hd', hnum⟩ := push_ok (show d.numEntries < size by omega) e
      exact ⟨d', hd', by omega⟩
  skip hI _ _ := hI
  bound hI _ := by omega
  entry := addEntry_same
  final _ _ _ _ := ⟨_, rfl⟩

lemma BaseDelta.lawful (deltaSizeBits : ℕ) {k : ℕ} (hk : k + 1 ≤ size) (hk' : k ≤ 256) :
    Lawful (BaseDelta.compressor n deltaSizeBits size) k fun j d => d.numEntries ≤ j + 1 where
  restores := getPattern_restores (uncompressedPattern_restores _ _ _ _)
    (forall_mem_singleton.mpr (deltaPattern_lossless _ _ _ _))
  reset := by
    have hzero := append_ok (show (Dictionary.mk (.replicate size (toDictionaryEntry (0 : Value n))) 0).numEntries < size
      from Nat.lt_of_lt_of_le (Nat.succ_pos k) hk) (toDictionaryEntry (0 : Value n))
    obtain ⟨d', hd', hnum⟩ := hzero
    refine ⟨d', Nat.le_of_eq hnum, fun d => ?_⟩
    show (d.reset n).append (toDictionaryEntry (0 : Value n)) = _
    rw [reset_eq]
    exact hd'
  add e hI hj := by
    obtain ⟨d', hd', hle, -⟩ := append_le hI (show _ < size by omega) e
    exact ⟨d', hd', hle⟩
  skip hI _ _ := Nat.le_succ_of_le hI
  bound hI hj := by omega
  entry := addEntry_same
  final _ _ _ _ := ⟨_, rfl⟩

/-- How many entries the dictionary needs for so many chunks, if the assertion of `addToDictionary` is never to fail. -/
def Kind.entriesNeeded (chunks : ℕ) : Kind → ℕ
  | cpack => chunks
  | fpc _ => 0
  | fpcd => 2
  | repeatedQwords => chunks
  | zero => chunks
  -- the zero base is added first
  | _ => chunks + 1

lemma Kind.lawful {kind : Kind} {chunks : ℕ} (hroom : kind.entriesNeeded chunks ≤ size) (hchunks : chunks ≤ 256) :
    ∃ I, Lawful (kind.compressor size) chunks I := by
  cases kind with
  | cpack => exact ⟨_, CPack.lawful hroom hchunks⟩
  | fpc bits => exact ⟨_, FPC.lawful bits chunks⟩
  | fpcd => exact ⟨_, FPCD.lawful hroom chunks⟩
  | base64Delta8 => exact ⟨_, BaseDelta.lawful 8 hroom hchunks⟩
  | base64Delta16 => exact ⟨_, BaseDelta.lawful 16 hroom hchunks⟩
  | base64Delta32 => exact ⟨_, BaseDelta.lawful 32 hroom hchunks⟩
  | base32Delta8 => exact ⟨_, BaseDelta.lawful 8 hroom hchunks⟩
  | base32Delta16 => exact ⟨_, BaseDelta.lawful 16 hroom hchunks⟩
  | base16Delta8 => exact ⟨_, BaseDelta.lawful 8 hroom hchunks⟩
  | repeatedQwords => exact ⟨_, RepeatedQwords.lawful hroom hchunks⟩
  | zero => exact ⟨_, Zero.lawful hroom hchunks⟩

lemma Kind.bytes_mul (kind : Kind) : kind.bytes * (8 / kind.bytes) = 8 := by
  cases kind <;> simp [Kind.bytes]

end Kinds

end Gem5.Compression
