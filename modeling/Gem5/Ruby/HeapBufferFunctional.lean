import Gem5.Ruby.HeapBuffer

/-!
# Functional accesses to a message buffer

`functionalAccess` of `mem/ruby/network/MessageBuffer.cc`, which goes through the messages of the heap
and of the stall map, and its three wrappers. What a message does with a packet is left to its type
(`MessageAccess`).

The masked read counts the messages that had data for the packet, in 32 bits, and its wrapper compares
the count with 1: it reports success when exactly one message had data, not when more did
(**`functionalReadMasked_iff`**).
-/

namespace Gem5.Ruby

open Lib

/-- What the messages of a protocol do with a packet of type `π` and a mask of type `ω`. -/
structure MessageAccess (π ω : Type) where
  /-- `functionalRead(pkt)`: the packet, and whether the message had its data. -/
  functionalRead : Message → π → π × Bool
  /-- `functionalRead(pkt, mask)`: the packet, the mask, and whether the message had data. -/
  functionalReadMasked : Message → π → ω → π × ω × Bool
  /-- `functionalWrite(pkt)`: the message, and whether it was written. -/
  functionalWrite : Message → π → Message × Bool

namespace HeapBuffer

variable {π ω : Type}

/-- The variables of `functionalAccess`. -/
structure Access (π ω : Type) where
  pkt : π
  /-- `mask`, if it is not null. -/
  mask : Option ω
  /-- `num_functional_accesses`. -/
  numFunctionalAccesses : BitVec 32 := 0

/-- Count a message, if it took part. -/
def Access.count (x : Access π ω) (accessed : Bool) : Access π ω :=
  if accessed then { x with numFunctionalAccesses := x.numFunctionalAccesses + 1 } else x

variable (ops : MessageAccess π ω) (isRead : Bool)

/-- The body of the loops: the message, the variables, and whether it returns. -/
def accessMessage (x : Access π ω) (msg : Message) : Message × Access π ω × Bool :=
  match isRead, x.mask with
  | true, none =>
    let (pkt, accessed) := ops.functionalRead msg x.pkt
    (msg, { x with pkt }, accessed)
  | true, some mask =>
    let (pkt, mask, accessed) := ops.functionalReadMasked msg x.pkt mask
    (msg, { x with pkt, mask := some mask }.count accessed, false)
  | false, _ =>
    let (msg, accessed) := ops.functionalWrite msg x.pkt
    (msg, x.count accessed, false)

def accessList (x : Access π ω) : List Message → List Message × Access π ω × Bool
  | [] => ([], x, false)
  | msg :: msgs =>
    let (msg, x, done) := accessMessage ops isRead x msg
    if done then (msg :: msgs, x, true)
    else
      let (msgs, x, done) := accessList x msgs
      (msg :: msgs, x, done)

/-- The loop over the entries of the stall map. -/
def accessEntries (x : Access π ω) : List (ℕ × List Message) → List (ℕ × List Message) × Access π ω × Bool
  | [] => ([], x, false)
  | (addr, msgs) :: entries =>
    let (msgs, x, done) := accessList ops isRead x msgs
    if done then ((addr, msgs) :: entries, x, true)
    else
      let (entries, x, done) := accessEntries x entries
      ((addr, msgs) :: entries, x, done)

lemma keys_accessEntries (x : Access π ω) (entries : List (ℕ × List Message)) :
    (accessEntries ops isRead x entries).1.map Prod.fst = entries.map Prod.fst := by
  induction entries generalizing x with
  | nil => rfl
  | cons entry entries ih =>
    simp only [accessEntries]
    split_ifs
    · rfl
    · exact congrArg (entry.1 :: ·) (ih _)

/-- The stall map after a loop over its entries. -/
def accessStallMap (x : Access π ω) (m : ListMap ℕ Message) : ListMap ℕ Message × Access π ω × Bool :=
  (⟨(accessEntries ops isRead x m.entries).1, by
      have hsorted := List.pairwise_map.mpr m.sorted
      rw [← keys_accessEntries ops isRead x] at hsorted
      exact List.pairwise_map.mp hsorted⟩,
    (accessEntries ops isRead x m.entries).2)

/-- `functionalAccess(pkt, is_read, mask)`: the buffer, the variables, and what is returned. -/
def functionalAccess (pkt : π) (mask : Option ω) (b : HeapBuffer) : HeapBuffer × Access π ω × BitVec 32 :=
  let (heap, x, done) := accessList ops isRead { pkt, mask } b.prioHeap.toList
  let b := { b with prioHeap := heap.toArray }
  if done then (b, x, 1)
  else
    let (stallMsgMap, x, done) := accessStallMap ops isRead x b.stallMsgMap
    ({ b with stallMsgMap }, x, if done then 1 else x.numFunctionalAccesses)

/-- `functionalRead(pkt, mask)`. -/
def functionalReadMasked (pkt : π) (mask : ω) (b : HeapBuffer) : π × Option ω × Bool :=
  let (_, x, n) := functionalAccess ops true pkt (some mask) b
  (x.pkt, x.mask, n == 1)

/-! ### The masked read -/

/-- The packet and the mask after they were read from the messages one after the other. -/
def readAll (pkt : π) (mask : ω) : List Message → π × ω
  | [] => (pkt, mask)
  | msg :: msgs =>
    let (pkt, mask, _) := ops.functionalReadMasked msg pkt mask
    readAll pkt mask msgs

/-- The messages of a list that have data for the packet, when it is read from them one after the other. -/
def suppliers (pkt : π) (mask : ω) : List Message → List Message
  | [] => []
  | msg :: msgs =>
    let (pkt, mask, accessed) := ops.functionalReadMasked msg pkt mask
    if accessed then msg :: suppliers pkt mask msgs else suppliers pkt mask msgs

/-- The messages of a buffer, in the order in which they are accessed. -/
def messages (b : HeapBuffer) : List Message := b.prioHeap.toList ++ b.stallMsgMap.values

variable {ops}

lemma readAll_append (pkt : π) (mask : ω) (msgs rest : List Message) : readAll ops pkt mask (msgs ++ rest) =
      readAll ops (readAll ops pkt mask msgs).1 (readAll ops pkt mask msgs).2 rest := by
  induction msgs generalizing pkt mask with
  | nil => rfl
  | cons msg msgs ih => exact ih _ _

lemma suppliers_append (pkt : π) (mask : ω) (msgs rest : List Message) :
    suppliers ops pkt mask (msgs ++ rest) = suppliers ops pkt mask msgs ++
      suppliers ops (readAll ops pkt mask msgs).1 (readAll ops pkt mask msgs).2 rest := by
  induction msgs generalizing pkt mask with
  | nil => rfl
  | cons msg msgs ih =>
    simp only [List.cons_append, suppliers, readAll, ih]
    split_ifs <;> rfl

/-- The variables after a masked read of some messages. -/
def afterMasked (ops : MessageAccess π ω) (pkt : π) (mask : ω) (n : BitVec 32) (msgs : List Message) : Access π ω where
  pkt := (readAll ops pkt mask msgs).1
  mask := some (readAll ops pkt mask msgs).2
  numFunctionalAccesses := n + BitVec.ofNat 32 (suppliers ops pkt mask msgs).length

variable (ops) in
section

variable (pkt : π) (mask : ω) (n : BitVec 32)
include pkt mask n

lemma afterMasked_append (msgs rest : List Message) : afterMasked ops pkt mask n (msgs ++ rest) =
      afterMasked ops (readAll ops pkt mask msgs).1 (readAll ops pkt mask msgs).2
        (n + BitVec.ofNat 32 (suppliers ops pkt mask msgs).length) rest := by
  simp only [afterMasked, readAll_append, suppliers_append, List.length_append, BitVec.ofNat_add, BitVec.add_assoc]

lemma accessList_masked (msgs : List Message) :
    accessList ops true ⟨pkt, some mask, n⟩ msgs = (msgs, afterMasked ops pkt mask n msgs, false) := by
  induction msgs generalizing pkt mask n with
  | nil => simp [accessList, afterMasked, readAll, suppliers]
  | cons msg msgs ih =>
    have happend := afterMasked_append ops pkt mask n [msg] msgs
    rw [List.singleton_append] at happend
    rw [happend, accessList]
    simp only [accessMessage, Access.count, suppliers, readAll]
    cases (ops.functionalReadMasked msg pkt mask).2.2 with
    | false => simp [ih]
    | true => simp [ih]

lemma accessEntries_masked (entries : List (ℕ × List Message)) : accessEntries ops true ⟨pkt, some mask, n⟩ entries =
      (entries, afterMasked ops pkt mask n (entries.flatMap Prod.snd), false) := by
  induction entries generalizing pkt mask n with
  | nil => simp [accessEntries, afterMasked, readAll, suppliers]
  | cons entry entries ih =>
    rw [List.flatMap_cons, afterMasked_append, accessEntries, accessList_masked]
    simp only [Bool.false_eq_true, if_false, afterMasked]
    rw [ih]
    rfl

end

lemma functionalReadMasked_eq (pkt : π) (mask : ω) (b : HeapBuffer) : (b.functionalReadMasked ops pkt mask).2.2 =
      decide ((suppliers ops pkt mask b.messages).length % 2 ^ 32 = 1) := by
  have hvars := afterMasked_append ops pkt mask 0 b.prioHeap.toList b.stallMsgMap.values
  have hcount : (b.functionalReadMasked ops pkt mask).2.2 =
      ((afterMasked ops pkt mask 0 b.messages).numFunctionalAccesses == 1) := by
    rw [messages, hvars, functionalReadMasked, functionalAccess]
    simp only [accessList_masked, Bool.false_eq_true, if_false, accessStallMap]
    rw [afterMasked, accessEntries_masked]
    rfl
  rw [hcount, afterMasked, beq_eq_decide, decide_eq_decide, BitVec.toNat_eq]
  simp

/-- The masked read of a buffer reports that some message had data exactly when one had, if at most one had. The count
has 32 bits, so it also does if the number is 1 modulo `2 ^ 32`. -/
theorem functionalReadMasked_iff (ops : MessageAccess π ω) (pkt : π) (mask : ω) (b : HeapBuffer) :
    ((b.functionalReadMasked ops pkt mask).2.2 = true ↔ suppliers ops pkt mask b.messages ≠ []) ↔
      (suppliers ops pkt mask b.messages).length ≤ 1 ∨ (suppliers ops pkt mask b.messages).length % 2 ^ 32 = 1 := by
  rw [functionalReadMasked_eq, decide_eq_true_eq, ← List.length_pos_iff]
  omega

/-- Each message has one byte, which it puts into the packet. -/
def byteAccess : MessageAccess (List ℕ) PUnit where
  functionalRead msg pkt := (pkt.set msg.payload 1, true)
  functionalReadMasked msg pkt mask := (pkt.set msg.payload 1, mask, true)
  functionalWrite msg _ := (msg, false)

/-- A buffer with messages that have byte 0 and byte 1 of a line. -/
def twoBytes : HeapBuffer where
  prioHeap :=
    #[{ payload := 0, destination := [], size := 1, time := 0 }, { payload := 1, destination := [], size := 1, time := 0 }]
  stallMsgMap := ⟨[], ListMap.sorted_nil⟩

/-- Both bytes are read, and the read reports that nothing was. -/
theorem functionalReadMasked_fails : suppliers byteAccess [0, 0] ⟨⟩ twoBytes.messages ≠ [] ∧
      twoBytes.functionalReadMasked byteAccess [0, 0] ⟨⟩ = ([1, 1], some ⟨⟩, false) := by
  decide

end HeapBuffer

end Gem5.Ruby
