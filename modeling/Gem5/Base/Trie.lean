import Gem5.Lib.BitPrefix
import Gem5.Lib.Except

/-!
# Tries

`Trie<Key, Value>` of `base/trie.hh`, over keys of `w` bits. A node owns its two kids, which are `unique_ptr`s, so the
nodes are a tree; what is left of the pointers are the addresses of the nodes: `parent` is one, and so is a `Handle`.
Following such a pointer finds the node with that address in the tree, or is the fault `dangling`. A new node gets an
address that was never used.

The loops of the source walk down the tree. Here they are recursive, and give back the tree with what was changed below.
-/

namespace Gem5.Base

open Lib

/-- `Trie::Node`, without its kids. -/
structure TrieNode (w : ℕ) (V : Type) where
  addr : ℕ
  key : BitVec w
  mask : BitVec w
  value : Option V
  parent : Option ℕ
  deriving DecidableEq, Repr

/-- A `std::unique_ptr<Node>`. -/
inductive TrieTree (w : ℕ) (V : Type) where
  | null
  | node (n : TrieNode w V) (kid0 kid1 : TrieTree w V)
  deriving DecidableEq, Repr

/-- `Trie`: the head, and the first address that was never used. -/
structure Trie (w : ℕ) (V : Type) where
  head : TrieTree w V
  next : ℕ
  deriving DecidableEq, Repr

/-- The ways a trie can stop the simulator. -/
inductive TrieFault where
  /-- A pointer to a node that was deleted. -/
  | dangling
  /-- `assert(!node->value)`. -/
  | hasValue
  /-- `assert(node->value)`. -/
  | noValue
  /-- `panic("Reached the end of the Trie insert function!")`. -/
  | reachedEnd
  /-- `panic("Trie: Can't remove root node.")`. -/
  | rootNode
  /-- `panic("Trie: Inconsistent parent/kid relationship.")`. -/
  | inconsistent
  /-- A loop or a recursion does not end. -/
  | steps
  deriving DecidableEq, Repr

variable {w : ℕ} {V : Type}

/-- `matches(test)`. -/
def TrieNode.matches (n : TrieNode w V) (test : BitVec w) : Bool := test &&& n.mask == n.key

/-- `extendMask(orig)`. -/
def extendMask (orig : BitVec w) : BitVec w := orig ||| orig >>> 1 ||| BitVec.twoPow w (w - 1)

namespace TrieTree

/-- `kid && test(kid)`. -/
def test (f : TrieNode w V → Bool) : TrieTree w V → Bool
  | null => false
  | node n _ _ => f n

/-- `kid.get()`. -/
def get : TrieTree w V → Option ℕ
  | null => none
  | node n _ _ => some n.addr

/-- `if (kid) kid->parent = parent`. -/
def setParent (parent : ℕ) : TrieTree w V → TrieTree w V
  | null => null
  | node n k0 k1 => node { n with parent := some parent } k0 k1

/-- The node with address `a`. -/
def find (a : ℕ) : TrieTree w V → TrieTree w V
  | null => null
  | node n k0 k1 =>
    if n.addr = a then node n k0 k1
    else
      match k0.find a with
      | null => k1.find a
      | t => t

/-- The tree with `s` in the place of the node with address `a`. -/
def replace (a : ℕ) : TrieTree w V → TrieTree w V → TrieTree w V
  | null, _ => null
  | node n k0 k1, s => if n.addr = a then s else node n (k0.replace a s) (k1.replace a s)

/-- `lookupHandle(key)`, from a node. -/
def lookupHandle (key : BitVec w) : TrieTree w V → Option (TrieNode w V)
  | null => none
  | node n k0 k1 =>
    if n.value.isSome then some n
    else if k0.test (·.matches key) then k0.lookupHandle key
    else if k1.test (·.matches key) then k1.lookupHandle key
    else none

end TrieTree

/-! ### Insertion -/

/-- The test of `goesAfter(parent, kid, key, new_mask)`. -/
def goesAfter (key newMask : BitVec w) (kid : TrieNode w V) : Bool := kid.matches key && kid.mask &&& newMask == kid.mask

/-- The inner loop of `insert`: walk down the leg until something doesn't match or we run out of bits. -/
def walkLeg (key kidKey newMask : BitVec w) : ℕ → BitVec w → Except TrieFault (BitVec w)
  | 0, _ => .error .steps
  | fuel + 1, lastMask =>
    let curMask := extendMask lastMask
    if key &&& curMask ≠ kidKey &&& curMask ∨ lastMask = newMask then .ok lastMask
    else walkLeg key kidKey newMask fuel curMask

/-- What `insert` has to put in the tree: the key and the mask, the value and the addresses of new nodes. -/
structure NewEntry (w : ℕ) (V : Type) where
  key : BitVec w
  newMask : BitVec w
  val : V
  next : ℕ

namespace NewEntry

variable (e : NewEntry w V)

/-- `Node(key, new_mask, val)`. -/
def leaf (addr parent : ℕ) : TrieNode w V :=
  { addr, key := e.key &&& e.newMask, mask := e.newMask, value := some e.val, parent := some parent }

/-- The body of the loop over `kids[i]` in `insert`, for a kid of `n`: the handle, the kid and the next address, unless
the leg is skipped. -/
def insertLeg (n : TrieNode w V) : TrieTree w V → Except TrieFault (Option (ℕ × TrieTree w V × ℕ))
  | .null => .ok (some (e.next, .node (e.leaf e.next n.addr) .null .null, e.next + 1))
  | .node kn c0 c1 => do
    let curMask ← walkLeg e.key kn.key e.newMask (w + 1) n.mask
    -- if this isn't the right leg to go down at all, skip it
    if curMask = n.mask then .ok none
    else
      let m : TrieNode w V :=
        { addr := e.next, key := e.key &&& curMask, mask := curMask, value := none, parent := some n.addr }
      let kid := (TrieTree.node kn c0 c1).setParent m.addr
      -- if we ran out of bits, the value goes right here
      if curMask = e.newMask then .ok (some (m.addr, .node { m with value := some e.val } kid .null, e.next + 1))
      else .ok (some (e.next + 1, .node m kid (.node (e.leaf (e.next + 1) m.addr) .null .null), e.next + 2))

/-- `insert`, from a node: the handle, the tree and the next address. -/
def insertInto : TrieTree w V → Except TrieFault (ℕ × TrieTree w V × ℕ)
  | .null => .error .dangling
  | .node n k0 k1 =>
    if k0.test (goesAfter e.key e.newMask) then do
      let (h, k0, next) ← insertInto k0
      .ok (h, .node n k0 k1, next)
    else if k1.test (goesAfter e.key e.newMask) then do
      let (h, k1, next) ← insertInto k1
      .ok (h, .node n k0 k1, next)
    else if n.mask = e.newMask then do
      ensure n.value.isNone .hasValue
      .ok (n.addr, .node { n with value := some e.val } k0 k1, e.next)
    else do
      match ← e.insertLeg n k0 with
      | some (h, k0, next) => .ok (h, .node n k0 k1, next)
      | none =>
        match ← e.insertLeg n k1 with
        | some (h, k1, next) => .ok (h, .node n k0 k1, next)
        | none => .error .reachedEnd

end NewEntry

/-! ### Removal -/

namespace TrieTree

/-- The kids of the parent of `node`, when `node` is replaced by its kid. -/
def replaceKid (node : ℕ) (kid k0 k1 : TrieTree w V) : Except TrieFault (TrieTree w V × TrieTree w V) := do
  let (k0, k1) ←
    if k0.get = some node then .ok (kid, k1)
    else if k1.get = some node then .ok (k0, kid)
    else .error .inconsistent
  -- make sure if the parent only has one kid, it's kid[0]
  .ok (if k1.get.isSome ∧ k0.get.isNone then (k1, .null) else (k0, k1))

/-- `remove(handle)`: the value and the tree. -/
def remove : ℕ → ℕ → TrieTree w V → Except TrieFault (Option V × TrieTree w V)
  | 0, _, _ => .error .steps
  | fuel + 1, handle, t =>
    match t.find handle with
    | .null => .error .dangling
    | .node n k0 k1 =>
      if k1.get.isSome then do
        ensure n.value.isSome .noValue
        .ok (n.value, t.replace handle (.node { n with value := none } k0 k1))
      else
        match n.parent with
        | none => .error .rootNode
        | some parent =>
          match t.find parent with
          | .null => .error .dangling
          | .node p c0 c1 => do
            let (c0, c1) ← replaceKid handle (k0.setParent parent) c0 c1
            let t := t.replace parent (.node p c0 c1)
            -- if the parent has less than two kids and no cargo and isn't the root, delete it too
            if c1.get.isNone ∧ p.value.isNone ∧ p.parent.isSome then do
              let (_, t) ← remove fuel parent t
              .ok (n.value, t)
            else .ok (n.value, t)

end TrieTree

namespace Trie

def init : Trie w V where
  head := .node { addr := 0, key := 0, mask := 0, value := none, parent := none } .null .null
  next := 1

/-- `lookup(key)`. -/
def lookup (t : Trie w V) (key : BitVec w) : Option V := (t.head.lookupHandle key).bind (·.value)

/-- `insert(key, width, val)`: the handle and the trie. -/
def insert (t : Trie w V) (key : BitVec w) (width : ℕ) (val : V) : Except TrieFault (ℕ × Trie w V) := do
  let newMask := if width < w then BitVec.allOnes w <<< (w - width) else BitVec.allOnes w
  let e : NewEntry w V := { key := key &&& newMask, newMask, val, next := t.next }
  let (h, head, next) ← e.insertInto t.head
  .ok (h, { head, next })

/-- `remove(handle)`: the value and the trie. The recursion goes from a node to its parent. -/
def remove (t : Trie w V) (handle : ℕ) : Except TrieFault (Option V × Trie w V) := do
  let (val, head) ← t.head.remove (w + 1) handle
  .ok (val, { t with head })

end Trie

end Gem5.Base
