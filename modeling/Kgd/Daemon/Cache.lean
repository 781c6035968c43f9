import Kgd.Daemon.Protocol

/-!
# The upload cache

`internal/upload/cache.go`: a content-addressed LRU cache from image data to kitty image
IDs with reference counts. `byHash`, `byID` and the list elements all point to the same
`entry` structs, so entries live in a heap here and a reference is an index into it; a
count changed through one map is seen through the other.

xxh3 is a parameter: `hash128` is some function of the bytes.
-/

namespace Kgd

/-- A 128-bit hash, Go's `[2]uint64`. -/
abbrev Hash := BitVec 128

/-- A reference to an `entry` struct. The list element that holds the entry has the same
    identity, since every entry is pushed exactly once. -/
abbrev EntryRef := Nat

/-- `upload.entry`. -/
structure CacheEntry where
  hash : Hash
  kittyImgID : UInt32
  refCount : Int
  deriving DecidableEq, Repr, Inhabited

/-- `upload.Cache`, with the entry structs allocated so far. -/
structure Cache where
  heap : List CacheEntry
  byHash : GoMap Hash EntryRef
  byID : GoMap UInt32 EntryRef
  /-- `container/list`, front first -/
  lru : List EntryRef
  maxSize : Int

namespace Cache

/-- `NewCache`. -/
def new (maxSize : Int) : Cache :=
  { heap := [], byHash := ∅, byID := ∅, lru := [], maxSize }

/-- `e.refCount += d` through a reference. -/
def addRef (c : Cache) (ref : EntryRef) (d : Int) : Cache :=
  { c with heap := c.heap.modify ref fun e => { e with refCount := e.refCount + d } }

/-- `lru.MoveToFront(e.lruElement)`. -/
def moveToFront (c : Cache) (ref : EntryRef) : Cache :=
  { c with lru := ref :: c.lru.erase ref }

/-- One iteration of `Store`'s eviction loop: `none` where the loop ends, otherwise the
    cache without its oldest entry and that entry's kitty ID. -/
def evictOne (c : Cache) : Option (Cache × UInt32) :=
  if c.maxSize ≤ c.lru.length then
    match c.lru.getLast? with
    | none => none
    | some back =>
      match c.heap[back]? with
      | none => none
      | some victim =>
        -- entries with active references are never evicted; the cache grows instead
        if 0 < victim.refCount then none
        else
          some ({ c with
            lru := c.lru.dropLast
            byHash := c.byHash.erase victim.hash
            byID := c.byID.erase victim.kittyImgID }, victim.kittyImgID)
  else none

/-- At most `n` iterations of the eviction loop, with the IDs evicted so far. -/
def evictLoop : Nat → Cache → List UInt32 → Cache × List UInt32
  | 0, c, evicted => (c, evicted)
  | n + 1, c, evicted =>
    match c.evictOne with
    | none => (c, evicted)
    | some (c', id) => evictLoop n c' (evicted ++ [id])

/-- The eviction loop; each iteration removes a list element, so the length bounds them. -/
def evict (c : Cache) : Cache × List UInt32 := evictLoop c.lru.length c []

/-- Allocate an entry for `hash`, push it to the front and enter it in both maps. -/
def insertNew (c : Cache) (hash : Hash) (kittyImgID : UInt32) : Cache :=
  { c with
    heap := c.heap ++ [{ hash, kittyImgID, refCount := 1 }]
    byHash := c.byHash.insert hash c.heap.length
    byID := c.byID.insert kittyImgID c.heap.length
    lru := c.heap.length :: c.lru }

section Hashing
variable (hash128 : Data → Hash)

/-- `Lookup`. -/
def lookup (c : Cache) (data : Data) : Option UInt32 :=
  match c.byHash[hash128 data]? with
  | some ref => c.heap[ref]?.map CacheEntry.kittyImgID
  | none => none

/-- `Store`: the cache afterwards and the evicted kitty image IDs. -/
def store (c : Cache) (data : Data) (kittyImgID : UInt32) : Cache × List UInt32 :=
  let hash := hash128 data
  match c.byHash[hash]? with
  -- known content: one reference more, and to the front of the list
  | some ref => ((c.addRef ref 1).moveToFront ref, [])
  | none =>
    let (c', evicted) := c.evict
    (c'.insertNew hash kittyImgID, evicted)

end Hashing

/-- `Release`. -/
def release (c : Cache) (kittyImgID : UInt32) : Cache :=
  match c.byID[kittyImgID]? with
  | some ref => c.addRef ref (-1)
  | none => c

end Cache

end Kgd
