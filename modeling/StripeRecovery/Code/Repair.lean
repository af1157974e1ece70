import StripeRecovery.Code

/-!
Regenerating the absent shards of a stripe over a byte range. The first `data` present
shards decide what is written; absent data is always regenerated, absent parity when no
data is absent or when the caller asks for it.
-/
namespace StripeRecovery

structure RepairCount where
  data : Nat
  parity : Nat
deriving DecidableEq, Repr

def Shard.cut (s : Shard) (offset length : Nat) : Shard := (s.drop offset).take length

def Shard.splice (s : Shard) (offset : Nat) (piece : Shard) : Shard :=
  s.take offset ++ piece ++ s.drop (offset + piece.length)

namespace Code

/-- The samples that a repair reads: the range of the first `data` present shards. -/
def witnesses (c : Code) (shards : List Shard) (present : List Bool) (offset length : Nat) :
    List Sample :=
  let there := ((samplesOf shards).zip present).filter (·.2)
  (there.map fun s => ⟨s.1.position, s.1.shard.cut offset length⟩).take c.data

def refusal? (c : Code) (shards : List Shard) (present : List Bool) (past : Nat) : Option Error :=
  if shards.length ≠ c.width then some (.code (.shardCount c.width shards.length))
  else if present.length ≠ c.width then some (.code (.shardCount c.width present.length))
  else if present.count true < c.data then some (.tooFewShards (present.count true) c.data)
  else
    match shards.zipIdx.find? (fun s => s.1.length < past) with
    | some (shard, i) => some (.code (.shortShard i shard.length past))
    | none => none

def wantsParity (c : Code) (present : List Bool) (recreate : Bool) : Bool :=
  recreate || (present.take c.data).all id

def writes (c : Code) (present : List Bool) (recreate : Bool) (i : Nat) : Bool :=
  present[i]? == some false && (i < c.data || c.wantsParity present recreate)

/-- Regenerates absent shards over `[offset, offset + length)`; a refused call changes nothing. -/
def repair (c : Code) (shards : List Shard) (present : List Bool) (offset length : Nat)
    (recreate : Bool) : Attempt RepairCount :=
  match c.refusal? shards present (offset + length) with
  | some e => ⟨shards, .error e⟩
  | none =>
    if length = 0 then ⟨shards, .ok ⟨0, 0⟩⟩
    else
      let samples := c.witnesses shards present offset length
      let repaired := shards.zipIdx.map fun (shard, i) =>
        if c.writes present recreate i then shard.splice offset (interpolate samples length i)
        else shard
      let parity := (present.drop c.data).count false
      ⟨repaired, .ok ⟨(present.take c.data).count false,
        if c.wantsParity present recreate then parity else 0⟩⟩

end Code
end StripeRecovery
