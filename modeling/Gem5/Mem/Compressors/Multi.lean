import Gem5.Lib.BinaryHeap
import Gem5.Mem.Compressors.Dictionary

/-!
# Compressor objects, and the compressor made of several

A `Compressor` is one of the dictionary compressors with its parameters and with the dictionary it was left with;
`compress` is `Base::compress` on the data of a line. `Multi` of `mem/cache/compressors/multi.cc` compresses a line with
all of its compressors and keeps the best result, with the index of the compressor it is from. The results are ranked by a
`std::priority_queue`, which is the binary heap of the standard library.
-/

namespace Gem5.Compression

open Lib Base

/-- The classes of the dictionary compressors. -/
inductive Kind where
  | cpack
  | fpc (zeroRunBits : ℕ)
  | fpcd
  | base64Delta8
  | base64Delta16
  | base64Delta32
  | base32Delta8
  | base32Delta16
  | base16Delta8
  | repeatedQwords
  | zero
  deriving DecidableEq, Repr

namespace Kind

/-- `sizeof(T)`. -/
def bytes : Kind → ℕ
  | cpack => 4
  | fpc _ => 4
  | fpcd => 4
  | base64Delta8 => 8
  | base64Delta16 => 8
  | base64Delta32 => 8
  | base32Delta8 => 4
  | base32Delta16 => 4
  | base16Delta8 => 2
  | repeatedQwords => 8
  | zero => 8

def compressor (size : ℕ) : (kind : Kind) → DictionaryCompressor kind.bytes size
  | cpack => CPack.compressor size
  | fpc zeroRunBits => FPC.compressor zeroRunBits size
  | fpcd => FPCD.compressor size
  | base64Delta8 => BaseDelta.compressor 8 8 size
  | base64Delta16 => BaseDelta.compressor 8 16 size
  | base64Delta32 => BaseDelta.compressor 8 32 size
  | base32Delta8 => BaseDelta.compressor 4 8 size
  | base32Delta16 => BaseDelta.compressor 4 16 size
  | base16Delta8 => BaseDelta.compressor 2 8 size
  | repeatedQwords => RepeatedQwords.compressor size
  | zero => Zero.compressor size

end Kind

structure Params where
  dictionarySize : ℕ
  sizeThresholdPercentage : ℕ := 50
  decompChunksPerCycle : ℕ := 1
  decompExtraLatency : ℕ := 1
  deriving DecidableEq, Repr

/-- The size `Base::compress` keeps for data of the size: that of the line, if it is above the threshold. -/
def thresholdSize (sizeThresholdPercentage : ℕ) (line : Line) (sizeBits : ℕ) : ℕ :=
  let sizeThreshold := blkSize line * sizeThresholdPercentage / 100
  if sizeThreshold * 8 < sizeBits then blkSize line * 8 else sizeBits

/-- `CompressionData` of a compressor with values of some type. -/
structure CompressionData where
  bytes : ℕ
  data : CompData bytes
  deriving DecidableEq, Repr

structure Compressor where
  kind : Kind
  params : Params
  dictionary : Dictionary params.dictionarySize
  deriving DecidableEq, Repr

namespace Compressor

variable (c : Compressor)

/-- `compress(data, comp_lat, decomp_lat)`. -/
def compress (line : Line) : Except CompressionFault (CompressionData × Compressor) := do
  let (data, dictionary) ←
    (c.kind.compressor _).compress c.dictionary (blkSize line) (toChunks (8 * c.kind.bytes) line)
  let sizeBits := thresholdSize c.params.sizeThresholdPercentage line data.sizeBits
  .ok ({ bytes := c.kind.bytes, data := { data with sizeBits } }, { c with dictionary })

/-- The latency that `compress` sets for the decompression of the line. -/
def decompLat (line : Line) : ℕ :=
  match c.kind with
  | .repeatedQwords => 1
  | .zero => 1
  | _ => c.params.decompExtraLatency + (toChunks (8 * c.kind.bytes) line).length / c.params.decompChunksPerCycle

/-- `decompress(comp_data, data)`. -/
def decompress (stray : ℕ → DictionaryEntry) (words : ℕ) (data : CompressionData) :
    Except CompressionFault (Line × Compressor) :=
  if h : data.bytes = c.kind.bytes then do
    let (line, dictionary) ← (c.kind.compressor _).decompress c.dictionary stray words (h ▸ data.data)
    .ok (line, { c with dictionary })
  else .error .otherType

end Compressor

/-- `alignToPowerOfTwo(val)`. -/
def alignToPowerOfTwo (val : BitVec 64) : BitVec 64 :=
  let val := val - 1
  let val := val ||| val >>> 1
  let val := val ||| val >>> 2
  let val := val ||| val >>> 4
  let val := val ||| val >>> 8
  let val := val ||| val >>> 16
  let val := val ||| val >>> 32
  val + 1

/-- `Multi::MultiCompData`. -/
structure MultiCompData where
  index : BitVec 8
  compData : CompressionData
  sizeBits : ℕ
  deriving DecidableEq, Repr

/-- `Multi`: its parameters and its compressors. -/
structure Multi where
  chunkSizeBits : ℕ
  numEncodingBits : ℕ
  sizeThresholdPercentage : ℕ := 50
  compressors : List Compressor
  deriving DecidableEq, Repr

namespace Multi

/-- `Results` of `compress`. -/
structure Results where
  index : ℕ
  compData : CompressionData
  decompLat : ℕ
  compressionFactor : BitVec 8
  deriving DecidableEq, Repr

instance : Inhabited Results := ⟨⟨0, ⟨0, {}⟩, 0, 0⟩⟩

/-- The constructor of `Results`. -/
def results (index : ℕ) (compData : CompressionData) (decompLat blkSize : ℕ) : Results :=
  let size := (compData.data.sizeBits + 7) / 8
  let compressionFactor :=
    if blkSize < size then 1
    else if size = 0 then BitVec.ofNat 64 blkSize
    else alignToPowerOfTwo (BitVec.ofNat 64 (blkSize / size))
  { index, compData, decompLat, compressionFactor := compressionFactor.setWidth 8 }

/-- `ResultsComparator`. -/
def comparator (lhs rhs : Results) : Bool :=
  if lhs.compressionFactor = rhs.compressionFactor then rhs.decompLat < lhs.decompLat
  else lhs.compressionFactor.toNat < rhs.compressionFactor.toNat

/-- The loop of `compress` over the compressors, of which the first has the index `i`. -/
def compressAll (numEncodingBits : ℕ) (line : Line) (i : ℕ) :
    List Compressor → Except CompressionFault (List Results × List Compressor)
  | [] => .ok ([], [])
  | c :: cs => do
    let (comp, c') ← c.compress line
    let comp := { comp with data := { comp.data with sizeBits := comp.data.sizeBits + numEncodingBits } }
    let (rs, cs') ← compressAll numEncodingBits line (i + 1) cs
    .ok (results i comp (c.decompLat line) (blkSize line) :: rs, c' :: cs')

/-- `results.top()`. -/
def top (rs : List Results) : Except CompressionFault Results :=
  match (BinaryHeap.pushAll (fun x y => !comparator x y) rs #[])[0]? with
  | some r => .ok r
  | none => .error .noCompressors

variable (m : Multi)

/-- `compress(data, comp_lat, decomp_lat)`. -/
def compress (line : Line) : Except CompressionFault (MultiCompData × Multi) := do
  let data := fromChunks m.chunkSizeBits line.length (toChunks m.chunkSizeBits line)
  let (rs, compressors) ← compressAll m.numEncodingBits data 0 m.compressors
  let best ← top rs
  let sizeBits := thresholdSize m.sizeThresholdPercentage line best.compData.data.sizeBits
  .ok ({ index := BitVec.ofNat 8 best.index, compData := best.compData, sizeBits }, { m with compressors })

/-- `decompress(comp_data, cache_line)`. -/
def decompress (stray : ℕ → DictionaryEntry) (words : ℕ) (data : MultiCompData) :
    Except CompressionFault (Line × Multi) :=
  match m.compressors[data.index.toNat]? with
  | none => .error .outOfRange
  | some c => do
    let (line, c') ← c.decompress stray words data.compData
    .ok (line, { m with compressors := m.compressors.set data.index.toNat c' })

end Multi

end Gem5.Compression
