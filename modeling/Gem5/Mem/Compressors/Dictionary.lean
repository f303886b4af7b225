import Gem5.Mem.Compressors.Pattern

/-!
# Dictionary compressors

`DictionaryCompressor<T>` of `mem/cache/compressors/dictionary_compressor_impl.hh`, with the cutting of a line into chunks
of `base.cc`, and the compressors built from it: `CPack`, `FPC`, `FPCD`, the six `BaseDelta`, `RepeatedQwords` and
`Zero`. The virtual functions that a compressor overrides are the fields of `DictionaryCompressor`.

A line is the list of its 64-bit words. The dictionary is read at any location a pattern names, and what is read behind
its end is given by `stray`. Statistics and the latency of compression are left out.
-/

namespace Gem5.Compression

open Lib Base

abbrev Line := List (BitVec 64)

/-- `blkSize`, of a line. -/
def blkSize (line : Line) : ℕ := 8 * line.length

/-- `toChunks(data)`. -/
def toChunks (chunkSizeBits : ℕ) (data : Line) : List (BitVec 64) :=
  let perWord := 64 / chunkSizeBits
  (List.range (blkSize data * 8 / chunkSizeBits)).map fun i =>
    let start := i % perWord
    bits (data.getD (i / perWord) 0) ((start + 1) * chunkSizeBits - 1) (start * chunkSizeBits)

/-- `fromChunks(chunks, data)`, for a line of as many words. -/
def fromChunks (chunkSizeBits words : ℕ) (chunks : List (BitVec 64)) : Line :=
  let perWord := 64 / chunkSizeBits
  chunks.zipIdx.foldl (fun data (chunk, i) =>
    let start := i % perWord
    data.modify (i / perWord) fun word =>
      insertBits word ((start + 1) * chunkSizeBits - 1) (start * chunkSizeBits) chunk) (List.replicate words 0)

/-- The ways a compressor can stop the simulator. -/
inductive CompressionFault where
  /-- `assert(numEntries < dictionarySize)` of `addToDictionary`. -/
  | dictionaryFull
  /-- `assert(numEntries >= 1)` of `RepeatedQwords::compress`. -/
  | noEntries
  /-- A vector is used behind its end. -/
  | outOfRange
  /-- The data of a compressor with values of another type is decompressed: the source casts it without a check, and
  what it then does is undefined. -/
  | otherType
  /-- `fatal_if("There must be at least one compressor")`. -/
  | noCompressors
  deriving DecidableEq, Repr

/-- The dictionary of a compressor: the vector `dictionary`, of `dictionarySize` entries, and `numEntries`. -/
structure Dictionary (size : ℕ) where
  dictionary : Vector DictionaryEntry size
  numEntries : ℕ
  deriving DecidableEq, Repr

namespace Dictionary

variable {size : ℕ} (d : Dictionary size)

/-- `dictionary[i]`. -/
def entry (i : ℕ) : Except CompressionFault DictionaryEntry :=
  match d.dictionary[i]? with
  | some e => .ok e
  | none => .error .outOfRange

def read (stray : ℕ → DictionaryEntry) (i : ℕ) : DictionaryEntry := d.dictionary[i]?.getD (stray i)

/-- `DictionaryCompressor<T>::resetDictionary()`, for values of `n` bytes. -/
def reset (n : ℕ) : Dictionary size := { dictionary := d.dictionary.map fun _ => toDictionaryEntry (0 : Value n), numEntries := 0 }

/-- `dictionary[numEntries++] = data`. -/
def push (data : DictionaryEntry) : Except CompressionFault (Dictionary size) :=
  if h : d.numEntries < size then
    .ok { dictionary := d.dictionary.set d.numEntries data h, numEntries := d.numEntries + 1 }
  else .error .outOfRange

/-- `addToDictionary(data)` of the compressors that never replace an entry. -/
def append (data : DictionaryEntry) : Except CompressionFault (Dictionary size) := do
  ensure (d.numEntries < size) .dictionaryFull
  d.push data

end Dictionary

/-- `DictionaryCompressor<T>::CompData`. -/
structure CompData (n : ℕ) where
  entries : List (Pattern n) := []
  sizeBits : ℕ := 0
  deriving DecidableEq, Repr

/-- `CompData::addEntry(pattern)`. -/
def CompData.addEntry {n : ℕ} (data : CompData n) (pattern : Pattern n) : CompData n :=
  { entries := data.entries ++ [pattern], sizeBits := data.sizeBits + pattern.getSizeBits }

/-- The functions of a compressor, for values of `n` bytes and a dictionary of `size` entries. -/
structure DictionaryCompressor (n size : ℕ) where
  /-- `getPattern(bytes, dict_bytes, match_location)`. -/
  getPattern : DictionaryEntry → DictionaryEntry → ℤ → Pattern n
  addToDictionary : Dictionary size → DictionaryEntry → Except CompressionFault (Dictionary size)
  resetDictionary : Dictionary size → Except CompressionFault (Dictionary size) := fun d => .ok (d.reset n)
  /-- `addEntry(pattern)` of the compression data. -/
  addEntry : CompData n → Pattern n → CompData n := CompData.addEntry
  /-- What `compress` makes of the size of the data, given `blkSize` and `numEntries`. -/
  finalSize : ℕ → ℕ → ℕ → Except CompressionFault ℕ := fun _ _ sizeBits => .ok sizeBits

namespace DictionaryCompressor

variable {n size : ℕ} (c : DictionaryCompressor n size) (d : Dictionary size)

/-- The search of `compressValue` for a pattern that is better than the one found so far. -/
def betterPattern (bytes : DictionaryEntry) (pattern : Pattern n) (i : ℕ) : Except CompressionFault (Pattern n) := do
  let entry ← d.entry i
  let tempPattern := c.getPattern bytes entry i
  .ok (if tempPattern.getSizeBits < pattern.getSizeBits then tempPattern else pattern)

/-- The dictionary after a value with the pattern. -/
def allocated (pattern : Pattern n) (bytes : DictionaryEntry) : Except CompressionFault (Dictionary size) :=
  if pattern.allocate then c.addToDictionary d bytes else .ok d

/-- `compressValue(data)`. -/
def compressValue (data : Value n) : Except CompressionFault (Pattern n × Dictionary size) := do
  let bytes := toDictionaryEntry data
  let noMatch := c.getPattern bytes (toDictionaryEntry (0 : Value n)) (-1)
  let pattern ← (List.range d.numEntries).foldlM (c.betterPattern d bytes) noMatch
  let d ← c.allocated d pattern bytes
  .ok (pattern, d)

/-- The loop of `compress` over the chunks. -/
def compressChunks (data : CompData n) (d : Dictionary size) :
    List (BitVec 64) → Except CompressionFault (CompData n × Dictionary size)
  | [] => .ok (data, d)
  | chunk :: chunks => do
    let (pattern, d) ← c.compressValue d (chunk.setWidth (8 * n))
    compressChunks (c.addEntry data pattern) d chunks

/-- `compress(chunks, comp_lat, decomp_lat)`. -/
def compress (blkSize : ℕ) (chunks : List (BitVec 64)) : Except CompressionFault (CompData n × Dictionary size) := do
  let d ← c.resetDictionary d
  let (data, d) ← c.compressChunks {} d chunks
  let sizeBits ← c.finalSize blkSize d.numEntries data.sizeBits
  .ok ({ data with sizeBits }, d)

/-- `decompressValue(pattern)`. -/
def decompressValue (stray : ℕ → DictionaryEntry) (pattern : Pattern n) :
    Except CompressionFault (Value n × Dictionary size) := do
  let data := pattern.decompress (d.read stray pattern.getMatchLocation)
  let d ← c.allocated d pattern data
  .ok (fromDictionaryEntry n data, d)

/-- The loop of `decompress` over the patterns. -/
def decompressValues (stray : ℕ → DictionaryEntry) (values : List (Value n)) (d : Dictionary size) :
    List (Pattern n) → Except CompressionFault (List (Value n) × Dictionary size)
  | [] => .ok (values, d)
  | pattern :: patterns => do
    let (value, d) ← c.decompressValue d stray pattern
    decompressValues stray (values ++ [value]) d patterns

/-- The word `data[i]` of the line, made from the values. -/
def concatenated (values : List (Value n)) (i : ℕ) : Except CompressionFault (BitVec 64) :=
  let valuesPerEntry := 8 / n
  (List.range valuesPerEntry).reverse.foldlM (fun word j =>
    match values[valuesPerEntry * i + j]? with
    | some value => .ok (word ||| (value.setWidth 64 <<< (j * 8 * n)))
    | none => .error .outOfRange) 0

/-- `decompress(comp_data, data)`, for a line of as many words. -/
def decompress (stray : ℕ → DictionaryEntry) (words : ℕ) (data : CompData n) :
    Except CompressionFault (Line × Dictionary size) := do
  let d ← c.resetDictionary d
  let (values, d) ← c.decompressValues stray [] d data.entries
  let line ← (List.range words).mapM (concatenated values)
  .ok (line, d)

end DictionaryCompressor

/-! ### The compressors -/

namespace CPack

inductive PatternNumber where
  | zzzz | xxxx | mmmm | mmxx | zzzx | mmmx

def patternZZZZ : PatternClass 4 := maskedValuePattern 0 0xFFFFFFFF PatternNumber.zzzz.ctorIdx 0x0 2 true false

def patternXXXX : PatternClass 4 := uncompressedPattern PatternNumber.xxxx.ctorIdx 0x1 2 true

def patternMMMM : PatternClass 4 := maskedPattern 0xFFFFFFFF PatternNumber.mmmm.ctorIdx 0x2 6 true

def patternMMXX : PatternClass 4 := maskedPattern 0xFFFF0000 PatternNumber.mmxx.ctorIdx 0xC 8 true

def patternZZZX : PatternClass 4 := maskedValuePattern 0 0xFFFFFF00 PatternNumber.zzzx.ctorIdx 0xD 4 true false

def patternMMMX : PatternClass 4 := maskedPattern 0xFFFFFF00 PatternNumber.mmmx.ctorIdx 0xE 8 true

def patterns : List (PatternClass 4) := [patternZZZZ, patternMMMM, patternZZZX, patternMMMX, patternMMXX]

/-- `CPack`. -/
def compressor (size : ℕ) : DictionaryCompressor 4 size where
  getPattern := getPattern patternXXXX patterns
  addToDictionary := Dictionary.append

end CPack

namespace FPC

inductive PatternNumber where
  | zeroRun | signExtended4Bits | signExtended1Byte | signExtendedHalfword | zeroPaddedHalfword
  | signExtendedTwoHalfwords | repBytes | uncompressed

/-- The number of a pattern, which is also its code. -/
def PatternNumber.code (number : PatternNumber) : ℕ := number.ctorIdx

def zeroRun : PatternClass 4 := zeroRunPattern PatternNumber.zeroRun.code PatternNumber.zeroRun.code 3

def signExtended4Bits : PatternClass 4 :=
  signExtendedPattern 4 PatternNumber.signExtended4Bits.code PatternNumber.signExtended4Bits.code 3

def signExtended1Byte : PatternClass 4 :=
  signExtendedPattern 8 PatternNumber.signExtended1Byte.code PatternNumber.signExtended1Byte.code 3

def signExtendedHalfword : PatternClass 4 :=
  signExtendedPattern 16 PatternNumber.signExtendedHalfword.code PatternNumber.signExtendedHalfword.code 3

def zeroPaddedHalfword : PatternClass 4 :=
  maskedValuePattern 0 0x0000FFFF PatternNumber.zeroPaddedHalfword.code PatternNumber.zeroPaddedHalfword.code 3 false false

def signExtendedTwoHalfwords : PatternClass 4 :=
  signExtendedTwoHalfwordsPattern PatternNumber.signExtendedTwoHalfwords.code PatternNumber.signExtendedTwoHalfwords.code 3

def repBytes : PatternClass 4 := repeatedValuePattern 1 PatternNumber.repBytes.code PatternNumber.repBytes.code 3 false false

def uncompressed : PatternClass 4 :=
  uncompressedPattern PatternNumber.uncompressed.code PatternNumber.uncompressed.code 3 false

def patterns : List (PatternClass 4) :=
  [zeroRun, signExtended4Bits, signExtended1Byte, signExtendedHalfword, zeroPaddedHalfword, signExtendedTwoHalfwords, repBytes]

/-- `setRealSize(size)` of a zero run. -/
def setRealSize (pattern : Pattern 4) (size : ℕ) : Pattern 4 :=
  { pattern with zeroRun := pattern.zeroRun.map fun run => { run with realSize := pattern.length + size } }

/-- `setRunLength(length)` of a zero run. -/
def setRunLength (pattern : Pattern 4) (length : ℕ) : Pattern 4 :=
  { pattern with zeroRun := pattern.zeroRun.map fun run => { run with runLength := length } }

/-- What `FPCCompData::addEntry` makes of a zero run that comes after the entries. -/
def continued (zeroRunSizeBits : ℕ) (entries : List (Pattern 4)) (pattern : Pattern 4) : Pattern 4 :=
  match entries.getLast? with
  | none => setRealSize pattern zeroRunSizeBits
  | some last =>
    if last.patternNumber ≠ PatternNumber.zeroRun.code then setRealSize pattern zeroRunSizeBits
    else
      let runLength := (last.zeroRun.map ZeroRun.runLength).getD 0
      if runLength = (mask zeroRunSizeBits).toNat then setRealSize pattern zeroRunSizeBits
      else setRunLength pattern (runLength + 1)

/-- `FPCCompData::addEntry(pattern)`. -/
def addEntry (zeroRunSizeBits : ℕ) (data : CompData 4) (pattern : Pattern 4) : CompData 4 :=
  data.addEntry
    (if pattern.patternNumber = PatternNumber.zeroRun.code then continued zeroRunSizeBits data.entries pattern else pattern)

/-- `FPC`. It has no dictionary: `addToDictionary` does nothing. -/
def compressor (zeroRunSizeBits size : ℕ) : DictionaryCompressor 4 size where
  getPattern := getPattern uncompressed patterns
  addToDictionary d _ := .ok d
  addEntry := addEntry zeroRunSizeBits

end FPC

namespace FPCD

inductive PatternNumber where
  | zzzz | ffff | mmmmPenultimate | mmmmPrevious | zzzx | xzzz | rrrr | mmmxPenultimate | mmmxPrevious | zzxx | zxzx | ffxx
  | xxzz | mmxxPenultimate | mmxxPrevious | xxxx

def prefixSize : ℕ := 4

def previousIndex : ℕ := 1

def penultimateIndex : ℕ := 0

/-- A pattern that compares with a fixed value. -/
def valuePattern (value mask : Value 4) (number : PatternNumber) (code : ℕ) : PatternClass 4 :=
  maskedValuePattern value mask number.ctorIdx code prefixSize true true

/-- A pattern that compares with one of the two entries of the dictionary. -/
def entryPattern (mask : Value 4) (index : ℕ) (number : PatternNumber) (code : ℕ) : PatternClass 4 :=
  locatedMaskedPattern mask index number.ctorIdx code prefixSize true

def patternZZZZ : PatternClass 4 := valuePattern 0 0xFFFFFFFF .zzzz 0x0

def patternFFFF : PatternClass 4 := valuePattern 0xFFFFFFFF 0xFFFFFFFF .ffff 0x1

def patternMMMMPrevious : PatternClass 4 := entryPattern 0xFFFFFFFF previousIndex .mmmmPrevious 0x2

def patternMMMMPenultimate : PatternClass 4 := entryPattern 0xFFFFFFFF penultimateIndex .mmmmPenultimate 0x3

def patternZZZX : PatternClass 4 := valuePattern 0 0xFFFFFF00 .zzzx 0x4

def patternXZZZ : PatternClass 4 := valuePattern 0 0x00FFFFFF .xzzz 0x5

def patternRRRR : PatternClass 4 := repeatedValuePattern 1 PatternNumber.rrrr.ctorIdx 0x6 prefixSize true true

def patternMMMXPrevious : PatternClass 4 := entryPattern 0xFFFFFF00 previousIndex .mmmxPrevious 0x7

def patternMMMXPenultimate : PatternClass 4 := entryPattern 0xFFFFFF00 penultimateIndex .mmmxPenultimate 0x8

def patternZZXX : PatternClass 4 := valuePattern 0 0xFFFF0000 .zzxx 0x9

def patternZXZX : PatternClass 4 := valuePattern 0 0xFF00FF00 .zxzx 0xA

def patternFFXX : PatternClass 4 := valuePattern 0xFFFFFFFF 0xFFFF0000 .ffxx 0xB

def patternXXZZ : PatternClass 4 := valuePattern 0 0x0000FFFF .xxzz 0xC

def patternMMXXPrevious : PatternClass 4 := entryPattern 0xFFFF0000 previousIndex .mmxxPrevious 0xD

def patternMMXXPenultimate : PatternClass 4 := entryPattern 0xFFFF0000 penultimateIndex .mmxxPenultimate 0xE

def patternXXXX : PatternClass 4 := uncompressedPattern PatternNumber.xxxx.ctorIdx 0xF prefixSize true

def patterns : List (PatternClass 4) :=
  [patternZZZZ, patternFFFF, patternMMMMPrevious, patternMMMMPenultimate, patternZZZX, patternXZZZ, patternRRRR,
    patternMMMXPrevious, patternMMMXPenultimate, patternZZXX, patternZXZX, patternFFXX, patternXXZZ, patternMMXXPrevious,
    patternMMXXPenultimate]

/-- `addToDictionary(data)`: two entries, of which the older is replaced. -/
def addToDictionary {size : ℕ} (d : Dictionary size) (data : DictionaryEntry) :
    Except CompressionFault (Dictionary size) :=
  if d.numEntries = 2 then do
    let previous ← d.entry previousIndex
    .ok
      { d with
        dictionary := (d.dictionary.setIfInBounds penultimateIndex previous).setIfInBounds previousIndex data }
  else d.push data

/-- `FPCD`. -/
def compressor (size : ℕ) : DictionaryCompressor 4 size where
  getPattern := getPattern patternXXXX patterns
  addToDictionary := addToDictionary

end FPCD

namespace BaseDelta

inductive PatternNumber where
  | x | m

/-- `DEFAULT_MAX_NUM_BASES`. -/
def defaultMaxNumBases : ℕ := 2

/-- `std::ceil(std::log2(DEFAULT_MAX_NUM_BASES))`. -/
def baseBits : ℕ := 1

def patternX (n deltaSizeBits : ℕ) : PatternClass n :=
  uncompressedPattern PatternNumber.x.ctorIdx 0 (baseBits + deltaSizeBits) true

def patternM (n deltaSizeBits : ℕ) : PatternClass n := deltaPattern deltaSizeBits PatternNumber.m.ctorIdx 1 baseBits

/-- The size of the data that `BaseDelta::compress` sets. -/
def finalSize (n blkSize numEntries sizeBits : ℕ) : ℕ :=
  if defaultMaxNumBases < numEntries then blkSize * 8
  else sizeBits + 8 * n * (defaultMaxNumBases - numEntries)

/-- `BaseDelta<BaseType, DeltaSizeBits>`, for bases of `n` bytes. -/
def compressor (n deltaSizeBits size : ℕ) : DictionaryCompressor n size where
  getPattern := getPattern (patternX n deltaSizeBits) [patternM n deltaSizeBits]
  addToDictionary := Dictionary.append
  -- the zero base for the immediate values
  resetDictionary d := (d.reset n).append (toDictionaryEntry (0 : Value n))
  finalSize blkSize numEntries sizeBits := .ok (finalSize n blkSize numEntries sizeBits)

end BaseDelta

namespace RepeatedQwords

inductive PatternNumber where
  | x | m

def patternX : PatternClass 8 := uncompressedPattern PatternNumber.x.ctorIdx 0 0 true

def patternM : PatternClass 8 := locatedMaskedPattern 0xFFFFFFFFFFFFFFFF 0 PatternNumber.m.ctorIdx 1 0 false

/-- `RepeatedQwords`. -/
def compressor (size : ℕ) : DictionaryCompressor 8 size where
  getPattern := getPattern patternX [patternM]
  addToDictionary := Dictionary.append
  finalSize blkSize numEntries sizeBits := do
    ensure (1 ≤ numEntries) .noEntries
    .ok (if 1 < numEntries then blkSize * 8 else sizeBits)

end RepeatedQwords

namespace Zero

inductive PatternNumber where
  | x | z

def patternX : PatternClass 8 := uncompressedPattern PatternNumber.x.ctorIdx 0 0 true

def patternZ : PatternClass 8 := maskedValuePattern 0 0xFFFFFFFFFFFFFFFF PatternNumber.z.ctorIdx 1 0 true false

/-- `Zero`. -/
def compressor (size : ℕ) : DictionaryCompressor 8 size where
  getPattern := getPattern patternX [patternZ]
  addToDictionary := Dictionary.append
  finalSize blkSize numEntries sizeBits := .ok (if 0 < numEntries then blkSize * 8 else sizeBits)

end Zero

end Gem5.Compression
