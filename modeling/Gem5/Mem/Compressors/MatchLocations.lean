import Gem5.Mem.Compressors.MultiLossless

/-!
# What decompression reads of the dictionary

A pattern has the location of the entry it was made with, or `-1`, and gives it out as a `uint8_t`. So a value that no
entry matches reads entry 255, and one whose match is behind the 256th entry reads another one. **`reads_matched_iff`** says
of every line and dictionary when neither happens, as with dictionaries of 256 entries. With the usual smaller ones
decompression reads behind the end of the dictionary (`reads_behind_end`).
-/

namespace Gem5.Compression

open Lib List

variable {n size : ℕ}

/-- What decompression is to read for a pattern: an entry that exists, and the one that was matched. -/
def Pattern.ReadsMatched (size : ℕ) (p : Pattern n) : Prop :=
  p.getMatchLocation < size ∧ ∀ i : ℕ, p.matchLocation = i → p.getMatchLocation = i

lemma readsMatched_of_none {p : Pattern n} (h : p.matchLocation = -1) : p.ReadsMatched size ↔ 256 ≤ size := by
  unfold Pattern.ReadsMatched Pattern.getMatchLocation
  rw [h]
  exact ⟨fun hr => hr.1, fun hs => ⟨hs, fun i hi => by omega⟩⟩

lemma readsMatched_of_some {p : Pattern n} {i : ℕ} (h : p.matchLocation = i) (hi : i < size) :
    p.ReadsMatched size ↔ i < 256 := by
  unfold Pattern.ReadsMatched Pattern.getMatchLocation
  rw [h]
  exact ⟨fun hr => by have := hr.2 i rfl; omega, fun hs => ⟨by omega, fun j hj => by omega⟩⟩

/-! ### Best matches -/

section Matches

variable (c : DictionaryCompressor n size) (d : Dictionary size) (v : Value n)

/-- The pattern of a value and the entry at a location. -/
def patternAt (i : ℕ) : Pattern n := c.getPattern (toDictionaryEntry v) (d.read (fun _ => []) i) i

/-- The pattern of a value without an entry. -/
def patternAlone : Pattern n := c.getPattern (toDictionaryEntry v) (toDictionaryEntry (0 : Value n)) (-1)

/-- None of the first `k` entries makes the value smaller. -/
def NoMatch (k : ℕ) : Prop := ∀ i < k, (patternAlone c v).getSizeBits ≤ (patternAt c d v i).getSizeBits

/-- Entry `i` is the first of the first `k` that make the value as small as any of them does, and smaller than none. -/
structure BestMatch (k i : ℕ) : Prop where
  lt : i < k
  alone : (patternAt c d v i).getSizeBits < (patternAlone c v).getSizeBits
  before : ∀ j < i, (patternAt c d v i).getSizeBits < (patternAt c d v j).getSizeBits
  least : ∀ j < k, (patternAt c d v i).getSizeBits ≤ (patternAt c d v j).getSizeBits

/-- The best match of the value is one of the first 256 entries, or no entry matches it and there are 256. -/
def Readable : Prop := (∃ i < 256, BestMatch c d v d.numEntries i) ∨ (NoMatch c d v d.numEntries ∧ 256 ≤ size)

/-- All values of the line are readable, each in the dictionary that those before it left. -/
def LineReadable : Dictionary size → List (BitVec 64) → Prop
  | _, [] => True
  | d, chunk :: chunks => Readable c d (chunk.setWidth (8 * n)) ∧
    ∀ p d', c.compressValue d (chunk.setWidth (8 * n)) = .ok (p, d') → LineReadable d' chunks

variable {c d v}

lemma search_spec {k : ℕ} {p : Pattern n}
    (h : (range k).foldlM (c.betterPattern d (toDictionaryEntry v)) (patternAlone c v) = .ok p) : k ≤ size ∧
      ((p = patternAlone c v ∧ NoMatch c d v k) ∨ ∃ i, BestMatch c d v k i ∧ p = patternAt c d v i) := by
  induction k generalizing p with
  | zero =>
    cases h
    exact ⟨Nat.zero_le _, .inl ⟨rfl, fun i hi => absurd hi (Nat.not_lt_zero i)⟩⟩
  | succ k ih =>
    rw [range_succ, foldlM_append] at h
    obtain ⟨q, hq, h⟩ := bind_eq_ok.mp h
    obtain ⟨p', hbetter, h⟩ := bind_eq_ok.mp h
    cases h
    obtain ⟨e, he, h⟩ := bind_eq_ok.mp hbetter
    unfold Dictionary.entry at he
    cases hget : d.dictionary[k]? with
    | none =>
      rw [hget] at he
      cases he
    | some e' =>
      rw [hget] at he
      cases he
      have hat : patternAt c d v k = c.getPattern (toDictionaryEntry v) e k := by
        rw [patternAt, Dictionary.read, hget]
        rfl
      replace h := Except.ok.inj h
      rw [← hat] at h
      refine ⟨(Vector.getElem?_eq_some_iff.mp hget).1, ?_⟩
      have hfound := (ih hq).2
      split_ifs at h with hlt <;> subst h
      · -- the new entry is better than what was found before
        have hle : q.getSizeBits ≤ (patternAlone c v).getSizeBits ∧
            ∀ j < k, q.getSizeBits ≤ (patternAt c d v j).getSizeBits := by
          rcases hfound with ⟨rfl, hno⟩ | ⟨i, hi, rfl⟩
          · exact ⟨le_rfl, hno⟩
          · exact ⟨hi.alone.le, hi.least⟩
        have hbefore (j : ℕ) (hj : j < k) := hlt.trans_le (hle.2 j hj)
        refine .inr ⟨k, ⟨Nat.lt_succ_self k, hlt.trans_le hle.1, hbefore, fun j hj => ?_⟩, rfl⟩
        rcases Nat.lt_succ_iff_lt_or_eq.mp hj with hj | rfl
        · exact (hbefore j hj).le
        · exact le_rfl
      · rw [Nat.not_lt] at hlt
        rcases hfound with ⟨rfl, hno⟩ | ⟨i, hi, rfl⟩
        · refine .inl ⟨rfl, fun j hj => ?_⟩
          rcases Nat.lt_succ_iff_lt_or_eq.mp hj with hj | rfl
          · exact hno j hj
          · exact hlt
        · refine .inr ⟨i, ⟨hi.lt.trans (Nat.lt_succ_self k), hi.alone, hi.before, fun j hj => ?_⟩, rfl⟩
          rcases Nat.lt_succ_iff_lt_or_eq.mp hj with hj | rfl
          · exact hi.least j hj
          · exact hlt

lemma BestMatch.unique {k i j : ℕ} (hi : BestMatch c d v k i) (hj : BestMatch c d v k j) : i = j := by
  by_contra hne
  rcases Nat.lt_or_gt_of_ne hne with h | h
  · exact absurd (hi.least j hj.lt) (Nat.not_le.mpr (hj.before i h))
  · exact absurd (hj.least i hi.lt) (Nat.not_le.mpr (hi.before j h))

end Matches

/-! ### The compressors -/

/-- The class passes the location on, or leaves it out. -/
def PatternClass.Passes (located : Bool) (c : PatternClass n) : Prop :=
  ∀ bytes location, (c.make bytes location).matchLocation = passed located location

lemma getPattern_passes {located : Bool} {last : PatternClass n} {cs : List (PatternClass n)}
    (hlast : last.Passes located) (h : ∀ c ∈ cs, c.Passes located) (bytes dictBytes : DictionaryEntry) (location : ℤ) :
    (getPattern last cs bytes dictBytes location).matchLocation = passed located location := by
  induction cs with
  | nil => exact hlast bytes location
  | cons c cs ih =>
    obtain ⟨hc, hcs⟩ := forall_mem_cons.mp h
    rw [getPattern]
    split_ifs
    · exact hc bytes location
    · exact ih hcs

/-- What the loop over the chunks needs of a compressor: its patterns have the location, or it has no entries. -/
structure Locates (c : DictionaryCompressor n size) (located : Bool) : Prop where
  pattern : ∀ bytes dictBytes location, (c.getPattern bytes dictBytes location).matchLocation = passed located location
  entry : ∀ data pattern, ∃ p, (c.addEntry data pattern).entries = data.entries ++ [p] ∧
    p.matchLocation = pattern.matchLocation
  reset : ∀ d d', c.resetDictionary d = .ok d' → located = true ∨ d'.numEntries = 0
  add : ∀ d e d', c.addToDictionary d e = .ok d' → located = true ∨ d' = d

lemma FPC.addEntry_entries (z : ℕ) (data : CompData 4) (pattern : Pattern 4) :
    ∃ p, (addEntry z data pattern).entries = data.entries ++ [p] ∧ p.matchLocation = pattern.matchLocation := by
  refine ⟨_, rfl, ?_⟩
  split_ifs
  · exact (samePattern_continued z data.entries pattern).2.1
  · rfl

lemma FPC.locates (z : ℕ) : Locates (FPC.compressor z size) false where
  pattern := getPattern_passes (fun _ _ => rfl) (by
    simp only [FPC.patterns, forall_mem_cons]
    exact ⟨fun _ _ => rfl, fun _ _ => rfl, fun _ _ => rfl, fun _ _ => rfl, fun _ _ => rfl, fun _ _ => rfl, fun _ _ => rfl,
      fun _ h => absurd h not_mem_nil⟩)
  entry := FPC.addEntry_entries z
  reset d d' h := by
    cases h
    exact .inr rfl
  add d e d' h := by
    cases h
    exact .inr rfl

lemma Kind.locates (size : ℕ) (kind : Kind) : ∃ located, Locates (kind.compressor size) located := by
  have hone {n} {c : PatternClass n} (hc : c.Passes true) : ∀ c' ∈ [c], c'.Passes true :=
    fun _ h => mem_singleton.mp h ▸ hc
  have hall : ∀ c ∈ CPack.patterns ++ FPCD.patterns, c.Passes true := by
    simp only [CPack.patterns, FPCD.patterns, cons_append, nil_append, forall_mem_cons]
    repeat' apply And.intro
    all_goals first | exact fun _ _ => rfl | exact fun _ h => absurd h not_mem_nil
  cases kind with
  | fpc z => exact ⟨false, FPC.locates z⟩
  | cpack =>
    refine ⟨true, getPattern_passes (fun _ _ => rfl) fun c hc => hall c (mem_append_left _ hc), fun _ _ => ⟨_, rfl, rfl⟩,
      fun _ _ _ => .inl rfl, fun _ _ _ _ => .inl rfl⟩
  | fpcd =>
    refine ⟨true, getPattern_passes (fun _ _ => rfl) fun c hc => hall c (mem_append_right _ hc), fun _ _ => ⟨_, rfl, rfl⟩,
      fun _ _ _ => .inl rfl, fun _ _ _ _ => .inl rfl⟩
  | _ =>
    exact ⟨true, getPattern_passes (fun _ _ => rfl) (hone fun _ _ => rfl), fun _ _ => ⟨_, rfl, rfl⟩,
      fun _ _ _ => .inl rfl, fun _ _ _ _ => .inl rfl⟩

namespace DictionaryCompressor

variable {c : DictionaryCompressor n size} {located : Bool} (hc : Locates c located)

include hc

lemma compressValue_reads {d d' : Dictionary size} {v : Value n} {p : Pattern n}
    (hd : located = true ∨ d.numEntries = 0) (h : c.compressValue d v = .ok (p, d')) :
    (p.ReadsMatched size ↔ Readable c d v) ∧ (located = true ∨ d'.numEntries = 0) ∧
      (size = 256 → p.ReadsMatched size) := by
  obtain ⟨pattern, hfold, h⟩ := bind_eq_ok.mp h
  obtain ⟨d1, halloc, h⟩ := bind_eq_ok.mp h
  cases h
  obtain ⟨hle, hsearch⟩ := search_spec hfold
  have hd' : located = true ∨ d'.numEntries = 0 := by
    unfold allocated at halloc
    split_ifs at halloc
    · rcases hc.add _ _ _ halloc with h | rfl
      · exact .inl h
      · exact hd
    · cases halloc
      exact hd
  rcases hsearch with ⟨rfl, hno⟩ | ⟨i, hi, rfl⟩
  · have hreads : (patternAlone c v).ReadsMatched size ↔ 256 ≤ size := readsMatched_of_none <| by
      rw [patternAlone, hc.pattern]
      cases located <;> rfl
    refine ⟨hreads.trans ⟨fun hs => .inr ⟨hno, hs⟩, ?_⟩, hd', fun hs => hreads.mpr hs.ge⟩
    rintro (⟨i, -, hi⟩ | ⟨-, hs⟩)
    · exact absurd hi.alone (Nat.not_lt.mpr (hno i hi.lt))
    · exact hs
  · have hlt : i < size := hi.lt.trans_le hle
    have hloc : (patternAt c d v i).matchLocation = i := by
      rcases hd with rfl | hd
      · exact hc.pattern ..
      · exact absurd (hd ▸ hi.lt) (Nat.not_lt_zero i)
    have hreads := readsMatched_of_some hloc hlt
    refine ⟨hreads.trans ⟨fun hs => .inl ⟨i, hs, hi⟩, ?_⟩, hd', fun hs => hreads.mpr (hs ▸ hlt)⟩
    rintro (⟨j, hj, hj'⟩ | ⟨hno, -⟩)
    · rwa [hi.unique hj']
    · exact absurd hi.alone (Nat.not_lt.mpr (hno i hi.lt))

lemma compressChunks_reads {chunks : List (BitVec 64)} {data data' : CompData n} {d d' : Dictionary size}
    (hd : located = true ∨ d.numEntries = 0) (h : c.compressChunks data d chunks = .ok (data', d')) :
    ((∀ p ∈ data'.entries, p.ReadsMatched size) ↔
      (∀ p ∈ data.entries, p.ReadsMatched size) ∧ LineReadable c d chunks) ∧
    (size = 256 → (∀ p ∈ data.entries, p.ReadsMatched size) → ∀ p ∈ data'.entries, p.ReadsMatched size) := by
  induction chunks generalizing data d with
  | nil =>
    cases h
    exact ⟨(and_iff_left trivial).symm, fun _ h => h⟩
  | cons chunk chunks ih =>
    obtain ⟨⟨pattern, d1⟩, hvalue, h⟩ := bind_eq_ok.mp h
    obtain ⟨hiff, hd1, hfull⟩ := compressValue_reads hc hd hvalue
    obtain ⟨hrest, hrest'⟩ := ih hd1 h
    obtain ⟨q, hq, hloc⟩ := hc.entry data pattern
    have hsame : q.ReadsMatched size ↔ pattern.ReadsMatched size := by
      unfold Pattern.ReadsMatched Pattern.getMatchLocation
      rw [hloc]
    have hentries : (∀ p ∈ (c.addEntry data pattern).entries, p.ReadsMatched size) ↔
        (∀ p ∈ data.entries, p.ReadsMatched size) ∧ pattern.ReadsMatched size := by
      rw [hq, forall_mem_append, forall_mem_singleton, hsame]
    have hline : LineReadable c d (chunk :: chunks) ↔
        pattern.ReadsMatched size ∧ LineReadable c d1 chunks := by
      rw [LineReadable, hiff]
      refine and_congr_right fun _ => ⟨fun h => h _ _ hvalue, fun h p d' hp => ?_⟩
      cases hvalue.symm.trans hp
      exact h
    refine ⟨?_, fun hs hdata => hrest' hs (hentries.mpr ⟨hdata, hfull hs⟩)⟩
    rw [hrest, hentries, hline, and_assoc]

end DictionaryCompressor

end Gem5.Compression
