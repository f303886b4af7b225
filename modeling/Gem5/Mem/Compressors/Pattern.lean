import Gem5.Base.AddrRange
import Gem5.Base.Bitfield
import Gem5.Lib.BitParts

/-!
# Patterns of the dictionary compressors

The classes `Pattern` of `mem/cache/compressors/dictionary_compressor.hh`, for values of a type `T` of `n` bytes. The
objects of all the classes are one type: the fields of `Pattern` itself, and a `Payload` with what the class adds and what
`decompress` reads. A class is the pair of its `isPattern` and its constructor; the classes of the compressors are
instances of a few that have masks, widths and lengths as parameters.
-/

namespace Gem5.Compression

open Lib Base

/-- `DictionaryEntry`: the bytes of a value, lowest first. -/
abbrev DictionaryEntry := List (BitVec 8)

/-- A value of the type `T`, which has `n` bytes. -/
abbrev Value (n : ℕ) := BitVec (8 * n)

variable {n : ℕ}

/-- `toDictionaryEntry(value)`. -/
def toDictionaryEntry (value : Value n) : DictionaryEntry := bitParts 8 n value

/-- `fromDictionaryEntry(entry)`. -/
def fromDictionaryEntry (n : ℕ) (entry : DictionaryEntry) : Value n := joinParts 8 (8 * n) entry

/-- What a pattern keeps of the value it was made from. -/
inductive Payload (n : ℕ) where
  /-- `UncompressedPattern`. -/
  | uncompressed (data : DictionaryEntry)
  /-- `MaskedPattern<mask>`, and `LocatedMaskedPattern<mask, location>`. -/
  | masked (mask bits : Value n)
  /-- `MaskedValuePattern<value, mask>`. -/
  | maskedValue (value mask bits : Value n)
  /-- `RepeatedValuePattern<RepT>`, for a type `RepT` of `rep` bytes. -/
  | repeatedValue (rep : ℕ) (value : BitVec (8 * rep))
  /-- `DeltaPattern<DeltaSizeBits>`. -/
  | delta (bytes : DictionaryEntry)
  /-- `SignExtendedPattern<N>`. -/
  | signExtended (N : ℕ) (bits : Value n)
  /-- `FPC::SignExtendedTwoHalfwords`. -/
  | signExtendedTwoHalfwords (low high : BitVec 8)
  deriving DecidableEq, Repr

/-- `FPC::ZeroRun`: the length of the run so far, and the size that is counted for the pattern. -/
structure ZeroRun where
  runLength : ℕ := 0
  realSize : ℕ := 0
  deriving DecidableEq, Repr

/-- `DictionaryCompressor<T>::Pattern`. -/
structure Pattern (n : ℕ) where
  patternNumber : ℕ
  code : ℕ
  length : ℕ
  numUnmatchedBits : ℕ
  matchLocation : ℤ
  allocate : Bool
  payload : Payload n
  /-- What `FPC::ZeroRun` adds. -/
  zeroRun : Option ZeroRun := none
  deriving DecidableEq, Repr

namespace Pattern

/-- `getSizeBits()`. -/
def getSizeBits (p : Pattern n) : ℕ :=
  match p.zeroRun with
  | some run => run.realSize
  | none => p.numUnmatchedBits + p.length

/-- `getMatchLocation()`, a `uint8_t`. -/
def getMatchLocation (p : Pattern n) : ℕ := (p.matchLocation % 256).toNat

/-- `decompress(dict_bytes)`. -/
def decompress (p : Pattern n) (dictBytes : DictionaryEntry) : DictionaryEntry :=
  match p.payload with
  | .uncompressed data => data
  | .masked mask bits => toDictionaryEntry (bits ||| (fromDictionaryEntry n dictBytes &&& mask))
  | .maskedValue value mask bits =>
    toDictionaryEntry (bits ||| (fromDictionaryEntry n (toDictionaryEntry value) &&& mask))
  | .repeatedValue rep value => toDictionaryEntry (joinParts (8 * rep) (8 * n) (List.replicate (n / rep) value))
  | .delta bytes => bytes
  | .signExtended N bits => toDictionaryEntry ((sext N (bits.setWidth 64)).setWidth (8 * n))
  | .signExtendedTwoHalfwords low high =>
    let halfword (b : BitVec 8) : BitVec 16 := (szext 8 (b.signExtend 64)).setWidth 16
    toDictionaryEntry ((halfword high).setWidth (8 * n) <<< 16 ||| (halfword low).setWidth (8 * n))

end Pattern

/-- A class of patterns: its `isPattern(bytes, dict_bytes, match_location)`, and its constructor. -/
structure PatternClass (n : ℕ) where
  isPattern : DictionaryEntry → DictionaryEntry → ℤ → Bool
  make : DictionaryEntry → ℤ → Pattern n

/-- `Factory<Head, Tail...>::getPattern(bytes, dict_bytes, match_location)`. The last class of a factory, here given on
its own, is for uncompressed data. -/
def getPattern (last : PatternClass n) : List (PatternClass n) → DictionaryEntry → DictionaryEntry → ℤ → Pattern n
  | [], bytes, _, matchLocation => last.make bytes matchLocation
  | c :: cs, bytes, dictBytes, matchLocation =>
    if c.isPattern bytes dictBytes matchLocation then c.make bytes matchLocation
    else getPattern last cs bytes dictBytes matchLocation

/-! ### The classes

Each is given the number, the code and the length of its metadata. A class that does not pass the match location on has
it as `-1`. -/

/-- The match location a class passes on to `Pattern`. -/
def passed (located : Bool) (matchLocation : ℤ) : ℤ := if located then matchLocation else -1

/-- `UncompressedPattern`. -/
def uncompressedPattern (number code metadataLength : ℕ) (located : Bool) : PatternClass n where
  isPattern _ _ _ := true
  make bytes matchLocation :=
    { patternNumber := number
      code
      length := metadataLength
      numUnmatchedBits := 8 * n
      matchLocation := passed located matchLocation
      allocate := true
      payload := .uncompressed bytes }

/-- `popCount(~mask)`. -/
def numUnmatched (mask : Value n) : ℕ := popCount ((~~~ mask).setWidth 64)

/-- `MaskedPattern<mask>`. -/
def maskedPattern (mask : Value n) (number code metadataLength : ℕ) (allocate : Bool) : PatternClass n where
  isPattern bytes dictBytes matchLocation :=
    0 ≤ matchLocation && fromDictionaryEntry n bytes &&& mask == fromDictionaryEntry n dictBytes &&& mask
  make bytes matchLocation :=
    { patternNumber := number
      code
      length := metadataLength
      numUnmatchedBits := numUnmatched mask
      matchLocation
      allocate
      payload := .masked mask (fromDictionaryEntry n bytes &&& ~~~ mask) }

/-- `MaskedValuePattern<value, mask>`. -/
def maskedValuePattern (value mask : Value n) (number code metadataLength : ℕ) (located allocate : Bool) :
    PatternClass n where
  isPattern bytes _ _ := value &&& mask == fromDictionaryEntry n bytes &&& mask
  make bytes matchLocation :=
    { patternNumber := number
      code
      length := metadataLength
      numUnmatchedBits := numUnmatched mask
      matchLocation := passed located matchLocation
      allocate
      payload := .maskedValue value mask (fromDictionaryEntry n bytes &&& ~~~ mask) }

/-- `LocatedMaskedPattern<mask, location>`. -/
def locatedMaskedPattern (mask : Value n) (location : ℤ) (number code metadataLength : ℕ) (allocate : Bool) :
    PatternClass n where
  isPattern bytes dictBytes matchLocation :=
    matchLocation == location &&
      (maskedPattern mask number code metadataLength allocate).isPattern bytes dictBytes matchLocation
  make := (maskedPattern mask number code metadataLength allocate).make

/-- `RepeatedValuePattern<RepT>`. -/
def repeatedValuePattern (rep number code metadataLength : ℕ) (located allocate : Bool) : PatternClass n where
  isPattern bytes _ _ :=
    let bytesValue := fromDictionaryEntry n bytes
    (bitParts (8 * rep) (n / rep) bytesValue).all (· == bytesValue.setWidth (8 * rep))
  make bytes matchLocation :=
    { patternNumber := number
      code
      length := metadataLength
      numUnmatchedBits := 8 * rep
      matchLocation := passed located matchLocation
      allocate
      payload := .repeatedValue rep ((fromDictionaryEntry n bytes).setWidth (8 * rep)) }

/-- `DeltaPattern<DeltaSizeBits>::isValidDelta(bytes, base_bytes)`. -/
def isValidDelta (n deltaSizeBits : ℕ) (bytes baseBytes : DictionaryEntry) : Bool :=
  let limit : Value n := if deltaSizeBits = 0 then 0 else (mask (deltaSizeBits - 1)).setWidth (8 * n)
  let delta := fromDictionaryEntry n bytes - fromDictionaryEntry n baseBytes
  decide (-limit.toInt ≤ delta.toInt) && delta.toInt ≤ limit.toInt

/-- `DeltaPattern<DeltaSizeBits>`. -/
def deltaPattern (deltaSizeBits number code metadataLength : ℕ) : PatternClass n where
  isPattern bytes dictBytes matchLocation := 0 ≤ matchLocation && isValidDelta n deltaSizeBits bytes dictBytes
  make bytes matchLocation :=
    { patternNumber := number
      code
      length := metadataLength
      numUnmatchedBits := deltaSizeBits
      matchLocation
      allocate := false
      payload := .delta bytes }

/-- `SignExtendedPattern<N>`. -/
def signExtendedPattern (N number code metadataLength : ℕ) : PatternClass n where
  isPattern bytes _ _ :=
    let data := fromDictionaryEntry n bytes
    data == (szext N (data.setWidth 64)).setWidth (8 * n)
  make bytes _ :=
    { patternNumber := number
      code
      length := metadataLength
      numUnmatchedBits := N
      matchLocation := -1
      allocate := false
      payload := .signExtended N (fromDictionaryEntry n bytes &&& (mask N).setWidth (8 * n)) }

/-- `FPC::SignExtendedTwoHalfwords`. A halfword is compared with the extension of its low byte as an `int16_t` with a
`uint16_t`, so that they differ if the sign is set. -/
def signExtendedTwoHalfwordsPattern (number code metadataLength : ℕ) : PatternClass 4 where
  isPattern bytes _ _ :=
    let data := fromDictionaryEntry 4 bytes
    let isExtended (halfword : BitVec 16) : Bool :=
      halfword.toInt == ((szext 8 (halfword.signExtend 64)).setWidth 16).toNat
    isExtended (data.setWidth 16) && isExtended ((data >>> 16).setWidth 16)
  make bytes _ :=
    let data := fromDictionaryEntry 4 bytes
    { patternNumber := number
      code
      length := metadataLength
      numUnmatchedBits := 16
      matchLocation := -1
      allocate := false
      payload := .signExtendedTwoHalfwords (data.setWidth 8) ((data >>> 16).setWidth 8) }

/-- `FPC::ZeroRun`. -/
def zeroRunPattern (number code metadataLength : ℕ) : PatternClass n :=
  let base : PatternClass n := maskedValuePattern 0 (BitVec.allOnes _) number code metadataLength false false
  { isPattern := base.isPattern
    make := fun bytes matchLocation => { base.make bytes matchLocation with zeroRun := some {} } }

end Gem5.Compression
