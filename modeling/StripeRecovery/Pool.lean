import StripeRecovery.Buffer
import StripeRecovery.Error
import StripeRecovery.Text.Record

/-!
A pool of buffer storage in size classes. Classes are powers of two between a smallest and
a largest size; each keeps a bounded number of idle storages on its shelf. Larger requests
are served without the pool. The pool counts what it hands out and what comes back. Sizes are
64-bit words, and so are the sums of the code: where one is too large for a word, it wraps.
-/
namespace StripeRecovery

structure PoolSettings where
  smallest : Nat
  largest : Nat
  shelfRoom : Nat
deriving DecidableEq, Repr

/-- Storage that nobody uses; `cells` is what its last user left in it. -/
structure Storage where
  cells : List UInt8
  capacity : Nat
deriving DecidableEq, Repr

structure Shelf where
  size : Nat
  idle : List Storage
deriving DecidableEq, Repr

structure PoolCounts where
  allocated : Nat
  released : Nat
  hits : Nat
  misses : Nat
deriving DecidableEq, Repr

/-- What stops the program in the middle of an operation. -/
inductive PoolFault where
  | tooLarge
  | noRoom
deriving DecidableEq, Repr

def PoolFault.message : PoolFault → String
  | .tooLarge => "capacity overflow"
  | .noRoom => "capacity must be non-zero"

structure Pool where
  settings : PoolSettings
  shelves : List Shelf
  counts : PoolCounts
  /-- What stopped the program first. The operation that it stopped has no result. -/
  fault : Option PoolFault
deriving DecidableEq, Repr

/-- Storage is addressed by signed words. -/
def maxStorage : Nat := 0x7FFFFFFFFFFFFFFF

/-- The least power of two that is not below `n`; zero if no word holds it. -/
@[irreducible] def roundUp (n : Nat) : Nat :=
  if n ≤ 1 then 1 else (1 <<< ((n - 1).log2 + 1)) % UInt64.size

/-- What room for `capacity` bytes becomes when it has to hold `size`. -/
def grownTo (capacity size : Nat) : Nat :=
  if size ≤ capacity then capacity else max 8 (max (2 * capacity) size)

def isPowerOfTwo (n : Nat) : Bool := roundUp n == n

namespace PoolSettings

def standard : PoolSettings := ⟨8 * 1024, 4 * 1024 * 1024, 64⟩

def check (c : PoolSettings) : Except Error Unit :=
  if !(isPowerOfTwo c.smallest && isPowerOfTwo c.largest) then
    .error (.settings (.oddClasses c.smallest c.largest))
  else if c.largest < c.smallest then .error (.settings (.reversedClasses c.smallest c.largest))
  else if c.shelfRoom = 0 then .error (.settings .noShelfRoom)
  else .ok ()

def classFor? (c : PoolSettings) (size : Nat) : Option Nat :=
  let rounded := roundUp (max size c.smallest)
  if rounded ≤ c.largest then some rounded else none

def roomFor (c : PoolSettings) (size : Nat) : Nat := grownTo ((c.classFor? size).getD size) size

def fieldNames : List String := ["min_class_size", "max_class_size", "max_pooled_per_class"]

def toJson (c : PoolSettings) : Json :=
  .obj (fieldNames.zip [.nat c.smallest, .nat c.largest, .nat c.shelfRoom])

def ofJson? (v : Json) : Option PoolSettings := do
  match ← v.fields? fieldNames with
  | [smallest, largest, shelfRoom] =>
    some ⟨← Json.optional? Json.word? standard.smallest smallest,
      ← Json.optional? Json.word? standard.largest largest,
      ← Json.optional? Json.word? standard.shelfRoom shelfRoom⟩
  | _ => none

end PoolSettings

namespace PoolCounts

def zero : PoolCounts := ⟨0, 0, 0, 0⟩

def outstanding (s : PoolCounts) : Nat := s.allocated - s.released

def toJson (s : PoolCounts) : Json :=
  .obj [("allocated", .nat s.allocated), ("released", .nat s.released),
    ("hits", .nat s.hits), ("misses", .nat s.misses)]

end PoolCounts

namespace Pool

def make (settings : PoolSettings) : Pool := ⟨settings, [], .zero, none⟩

def shelf (p : Pool) (size : Nat) : List Storage :=
  match p.shelves.find? (·.size == size) with
  | some s => s.idle
  | none => []

def setShelf (size : Nat) (idle : List Storage) : List Shelf → List Shelf
  | [] => [⟨size, idle⟩]
  | s :: rest => if s.size = size then ⟨size, idle⟩ :: rest else s :: setShelf size idle rest

def idle (p : Pool) : Nat := p.shelves.foldl (fun n s => n + s.idle.length) 0

def blank (size capacity : Nat) (cells : List UInt8) : Buffer :=
  ⟨List.replicate size 0, cells.drop size, capacity, true⟩

def stop (p : Pool) (f : PoolFault) : Pool := { p with fault := p.fault.or (some f) }

/-- Storage of some room is asked for, of the pool or without it. -/
def claim (p : Pool) (room : Nat) : Pool :=
  { p with fault := p.fault.or (if room ≤ maxStorage then none else some .tooLarge) }

/-- Takes storage for a request: idle storage of its class if there is any, else fresh storage. -/
def take (p : Pool) (size : Nat) : Pool × Storage :=
  let counts := { p.counts with allocated := p.counts.allocated + 1 }
  let fresh : Pool × Storage :=
    (claim { p with counts := { counts with misses := counts.misses + 1 } }
        (p.settings.roomFor size),
      ⟨[], p.settings.roomFor size⟩)
  match p.settings.classFor? size with
  | none => fresh
  | some rounded =>
    match p.shelf rounded with
    | [] => fresh
    | storage :: rest =>
      let room := grownTo storage.capacity size
      (claim { p with
          shelves := setShelf rounded rest p.shelves
          counts := { counts with hits := counts.hits + 1 } } room,
        ⟨storage.cells, room⟩)

def allocate (p : Pool) (size : Nat) : Pool × Buffer :=
  let (p, storage) := p.take size
  (p, blank size storage.capacity storage.cells)

def adopt (p : Pool) (bytes : List UInt8) (capacity : Nat) : Pool × Buffer :=
  ({ p with counts := { p.counts with allocated := p.counts.allocated + 1 } },
    { Buffer.unpooled bytes capacity with pooled := true })

/-- Puts storage on the shelf of its class, if its capacity is a class and the shelf has room. A
    shelf that never has room cannot even be set up. -/
def store (p : Pool) (s : Storage) : Pool :=
  if isPowerOfTwo s.capacity ∧ p.settings.classFor? s.capacity = some s.capacity then
    if p.settings.shelfRoom = 0 then p.stop .noRoom
    else
      let idle := p.shelf s.capacity
      if idle.length < p.settings.shelfRoom then
        { p with shelves := setShelf s.capacity (idle ++ [s]) p.shelves }
      else p
  else p

def release (p : Pool) (b : Buffer) : Pool :=
  if b.pooled then
    store { p with counts := { p.counts with released := p.counts.released + 1 } }
      ⟨b.bytes ++ b.stale, b.capacity⟩
  else p

def releaseAll (p : Pool) (bs : List Buffer) : Pool := bs.foldl release p

/-- Takes the bytes of a buffer out of the pool for good; this counts as a release. -/
def detach (p : Pool) (b : Buffer) : Pool :=
  if b.pooled then { p with counts := { p.counts with released := p.counts.released + 1 } } else p

/-- The buffer with zeros behind its bytes up to `size`: in place if the storage has room,
    else in a larger buffer, after which the old one is released. -/
def extend (p : Pool) (b : Buffer) (size : Nat) : Pool × Buffer :=
  if size ≤ b.length then (p, b)
  else if size ≤ b.capacity then (p, b.growInPlace size)
  else
    let padded := b.bytes ++ List.replicate (size - b.length) 0
    if b.pooled then
      let (p, fresh) := p.allocate size
      (p.release b, { fresh with bytes := padded })
    else (p.claim size, Buffer.unpooled padded size)

end Pool
end StripeRecovery
