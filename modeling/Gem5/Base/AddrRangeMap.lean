import Gem5.Base.AddrRange

/-!
# Maps of address ranges

`AddrRangeMap<V, max_cache_size>` of `base/addr_range_map.hh`. `tree` is the `std::map`, as the list of its entries in
order; an iterator is the number of an entry, which is used once, or `none` for `end()`. `cache` is the list of iterators
to the entries that were found last. Following an iterator to an entry that is no longer there is the fault `stale`.

A lookup goes through the cache first, then looks at the entry after the range and at those before it, as long as they
merge with each other. So the ranges in the tree have to be apart, or parts of one interleaved range (`Tidy`). `insert`
keeps them so, if the intersection test can be trusted (`Trusted`).
-/

namespace Gem5.Base

open Lib

/-- An entry of the `std::map`. -/
structure RangeEntry (V : Type) where
  id : ℕ
  range : AddrRange
  value : V
  deriving DecidableEq, Repr

/-- `AddrRangeMap`. -/
structure AddrRangeMap (V : Type) where
  tree : List (RangeEntry V)
  cache : List ℕ
  /-- The first number that no entry had. -/
  next : ℕ
  deriving DecidableEq, Repr

namespace AddrRangeMap

variable {V : Type} (maxCacheSize : ℤ) (m : AddrRangeMap V)

def init : AddrRangeMap V := { tree := [], cache := [], next := 0 }

/-- The entry an iterator points to. -/
def deref (it : ℕ) : Except RangeFault (RangeEntry V) :=
  match m.tree.find? (·.id = it) with
  | some e => .ok e
  | none => .error .stale

/-- `addNewEntryToCache(it)`. The comparison with the size is one of unsigned numbers. -/
def addNewEntryToCache (it : ℕ) : AddrRangeMap V :=
  if maxCacheSize ≠ 0 then
    if (maxCacheSize % 2 ^ 64).toNat ≤ m.cache.length then
      if maxCacheSize > 1 then { m with cache := it :: m.cache.dropLast }
      else { m with cache := m.cache.dropLast ++ [it] }
    else { m with cache := it :: m.cache }
  else m

section Find

variable (cond : AddrRange → Except RangeFault Bool)

/-- The loop of `find` over the cache. -/
def findCached : List ℕ → Except RangeFault (Option ℕ)
  | [] => .ok none
  | it :: cache => do
    let e ← m.deref it
    if ← cond e.range then .ok (some it) else findCached cache

/-- The loop of `find` over the entries before the range, from the last one. -/
def findBack : List (RangeEntry V) → Except RangeFault (Option ℕ)
  | [] => .ok none
  | i :: rest => do
    if ← cond i.range then .ok (some i.id)
    -- keep looking if the next range merges with the current one
    else if rest.head?.any fun next => next.range.mergesWith i.range then findBack rest
    else .ok none

/-- The entries up to `tree.upper_bound(r)`. -/
def before (r : AddrRange) : List (RangeEntry V) := m.tree.takeWhile fun e => !r.lt e.range

/-- The entries from `tree.upper_bound(r)` on. -/
def after (r : AddrRange) : List (RangeEntry V) := m.tree.dropWhile fun e => !r.lt e.range

/-- The part of `find` behind the cache. -/
def findTree (r : AddrRange) : Except RangeFault (Option ℕ) := do
  match m.after r with
  | next :: _ => if ← cond next.range then .ok (some next.id) else findBack cond (m.before r).reverse
  | [] => findBack cond (m.before r).reverse

/-- `find(r, cond)`. -/
def find (r : AddrRange) : Except RangeFault (Option ℕ × AddrRangeMap V) := do
  match ← m.findCached cond m.cache with
  | some it => .ok (some it, { m with cache := it :: m.cache.erase it })
  | none =>
    match ← m.findTree cond r with
    | some it => .ok (some it, m.addNewEntryToCache maxCacheSize it)
    | none => .ok (none, m)

end Find

/-- `contains(r)`. -/
def contains (r : AddrRange) : Except RangeFault (Option ℕ × AddrRangeMap V) := m.find maxCacheSize r.isSubset r

/-- `contains(r)`, for an address. -/
def containsAddr (a : Addr) : Except RangeFault (Option ℕ × AddrRangeMap V) := m.contains maxCacheSize (rangeSize a 1)

/-- `intersects(r)`. -/
def intersects (r : AddrRange) : Except RangeFault (Option ℕ × AddrRangeMap V) := m.find maxCacheSize r.intersects r

/-- `insert(r, d)`. -/
def insert (r : AddrRange) (d : V) : Except RangeFault (Option ℕ × AddrRangeMap V) := do
  let (it, m) ← m.intersects maxCacheSize r
  if it.isSome then .ok (none, m)
  else
    -- `tree.insert` leaves an entry with an equal key
    match m.tree.find? fun e => !e.range.lt r && !r.lt e.range with
    | some e => .ok (some e.id, m)
    | none =>
      let e : RangeEntry V := { id := m.next, range := r, value := d }
      .ok (some e.id, { m with tree := m.before r ++ e :: m.after r, next := m.next + 1 })

/-- `erase(p)`. -/
def erase (p : ℕ) : Except RangeFault (AddrRangeMap V) := do
  let _ ← m.deref p
  .ok { m with cache := m.cache.filter (· ≠ p), tree := m.tree.filter (·.id ≠ p) }

def position : Option ℕ → Option ℕ
  | none => some m.tree.length
  | some it => m.tree.findIdx? (·.id = it)

/-- `erase(p, q)`. The loop removes `p` from the cache, once for each entry. -/
def eraseRange (p q : Option ℕ) : Except RangeFault (AddrRangeMap V) :=
  match m.position p, m.position q with
  | some i, some j =>
    if i ≤ j then
      .ok { m with
        cache := if i < j then m.cache.filter (some · ≠ p) else m.cache
        tree := m.tree.take i ++ m.tree.drop j }
    else .error .iterator
  | _, _ => .error .iterator

/-- `clear()`. -/
def clear : AddrRangeMap V := { m with cache := [], tree := [] }

/-! ### Runs -/

end AddrRangeMap

inductive RangeCall (V : Type) where
  | insert (r : AddrRange) (d : V)
  | erase (p : ℕ)
  | eraseRange (p q : Option ℕ)
  | clear
  | containsAddr (a : Addr)
  | contains (r : AddrRange)
  | intersects (r : AddrRange)

namespace AddrRangeMap

variable {V : Type} (maxCacheSize : ℤ) (m : AddrRangeMap V)

def Allowed : RangeCall V → Prop
  | .insert r _ => r._start < r._end
  | .contains r => r._start < r._end
  | .intersects r => r._start < r._end
  | _ => True

def call : RangeCall V → Except RangeFault (AddrRangeMap V)
  | .insert r d => do
    let (_, m) ← m.insert maxCacheSize r d
    .ok m
  | .erase p => m.erase p
  | .eraseRange p q => m.eraseRange p q
  | .clear => .ok m.clear
  | .containsAddr a => do
    let (_, m) ← m.containsAddr maxCacheSize a
    .ok m
  | .contains r => do
    let (_, m) ← m.contains maxCacheSize r
    .ok m
  | .intersects r => do
    let (_, m) ← m.intersects maxCacheSize r
    .ok m

/-- The intersection tests of `insert(r, d)` can be trusted: a range of one address is not tested as part of an
interleaved one. -/
def Trusted (r : AddrRange) : Prop :=
  ∀ e ∈ m.tree, e.range.size = 1 → r.interleaved = true ∨ e.range.interleaved = true →
    r.Apart e.range ∨ r.mergesWith e.range = true

/-- No iterator to an entry of `[p, q)` but `p` is in the cache. -/
def Uncached (p q : Option ℕ) : Prop :=
  ∀ i j, m.position p = some i → m.position q = some j → ∀ e ∈ (m.tree.take j).drop (i + 1), e.id ∉ m.cache

/-- The calls that the map is right for. -/
def Safe : RangeCall V → Prop
  | .insert r _ => r.Plain ∧ m.Trusted r
  | .eraseRange p q => m.Uncached p q
  | _ => True

/-- A run of calls that return, with `P` about each call. -/
inductive Reachable (P : AddrRangeMap V → RangeCall V → Prop) : AddrRangeMap V → Prop where
  | init : Reachable P init
  | call {m m' : AddrRangeMap V} {c : RangeCall V} :
      Reachable P m → Allowed c → P m c → m.call maxCacheSize c = .ok m' → Reachable P m'

end AddrRangeMap

end Gem5.Base
