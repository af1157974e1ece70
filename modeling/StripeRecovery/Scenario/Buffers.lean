import StripeRecovery.Session.Shown

/-!
Scripted use of a pool: buffers are made, kept under names, changed and dropped.
-/
namespace StripeRecovery.Scenario

structure Shop where
  pool : Pool
  kept : List (String × Buffer)
deriving DecidableEq, Repr

inductive PoolAction where
  | allocate (size : Nat)
  | adopt (bytes : List UInt8) (capacity : Nat)
  | unpooled (bytes : List UInt8) (capacity : Nat)
  | drop
  | extend (size : Nat)
  | shorten (length : Nat)
  | fill (byte : UInt8)
  | detach
  | show
  | showPool
  | counts
deriving DecidableEq, Repr

inductive PoolResponse where
  | done
  | dropped (value : Bool)
  | bytes (value : List UInt8)
  | shown (b : Buffer)
  | text (value : String)
  | counts (value : PoolCounts)
  | missing (what : String)
  | stopped (fault : PoolFault)
deriving DecidableEq

namespace Shop

def get? (s : Shop) (name : String) : Option Buffer := s.kept.lookup name

def forget (s : Shop) (name : String) : Shop := { s with kept := s.kept.filter (·.1 != name) }

/-- Keeps a new buffer; the one that had the name is released after the new one was made. -/
def keep (s : Shop) (name : String) (made : Pool × Buffer) : Shop × PoolResponse :=
  let old := s.get? name
  let pool :=
    match old with
    | some b => made.1.release b
    | none => made.1
  (⟨pool, (s.forget name).kept ++ [(name, made.2)]⟩, .dropped old.isSome)

def change (s : Shop) (name : String) (f : Pool → Buffer → Pool × Buffer) : Shop × PoolResponse :=
  match s.get? name with
  | some b =>
    let (pool, b) := f s.pool b
    (⟨pool, (s.forget name).kept ++ [(name, b)]⟩, .done)
  | none => (s, .missing "id")

def act (s : Shop) (name : String) (a : PoolAction) : Shop × PoolResponse :=
  match a with
  | .allocate size => s.keep name (s.pool.allocate size)
  | .adopt bytes capacity => s.keep name (s.pool.adopt bytes capacity)
  | .unpooled bytes capacity => s.keep name (s.pool, Buffer.unpooled bytes capacity)
  | .drop =>
    match s.get? name with
    | some b => ({ s.forget name with pool := s.pool.release b }, .dropped true)
    | none => (s, .dropped false)
  | .extend size => s.change name fun pool b => pool.extend b size
  | .shorten length => s.change name fun pool b => (pool, b.shorten length)
  | .fill byte => s.change name fun pool b => (pool, b.fill byte)
  | .detach =>
    match s.get? name with
    | some b => ({ s.forget name with pool := s.pool.detach b }, .bytes b.bytes)
    | none => (s, .missing "id")
  | .show =>
    match s.get? name with
    | some b => (s, .shown b)
    | none => (s, .missing "id")
  | .showPool => (s, .text s.pool.shown)
  | .counts => (s, .counts s.pool.counts)

/-- What is left by an action that asks for storage which cannot be had: the pool after it was
    asked, and all buffers but the one that was to be extended. -/
def stopped? (s : Shop) (name : String) (a : PoolAction) : Option Shop :=
  match a with
  | .allocate size =>
    let pool := (s.pool.take size).1
    pool.fault.map fun _ => { s with pool := pool }
  | .extend size =>
    match s.get? name with
    | some b =>
      if size ≤ b.length ∨ size ≤ b.capacity then none
      else
        let pool := if b.pooled then (s.pool.take size).1 else s.pool.claim size
        pool.fault.map fun _ => { s.forget name with pool := pool.release b }
    | none => none
  | _ => none

def attempt (s : Shop) (name : String) (a : PoolAction) : Shop × PoolResponse :=
  let answer : Shop × PoolResponse :=
    match s.stopped? name a with
    | some left => (left, .done)
    | none => s.act name a
  match answer.1.pool.fault with
  | some f => ({ answer.1 with pool := { answer.1.pool with fault := none } }, .stopped f)
  | none => answer

end Shop

structure PoolReport where
  response : PoolResponse
  pool : Pool
  buffer : Option Buffer

def playPool : Shop → List (String × PoolAction) → List PoolReport
  | _, [] => []
  | s, (name, a) :: rest =>
    let (s, response) := s.attempt name a
    ⟨response, s.pool, s.get? name⟩ :: playPool s rest

end StripeRecovery.Scenario
