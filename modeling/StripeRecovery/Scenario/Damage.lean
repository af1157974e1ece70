import StripeRecovery.Code.Repair

/-!
Scripted damage to stripes, and its repair.
-/
namespace StripeRecovery.Scenario

structure Flip where
  shard : Nat
  index : Nat
  value : UInt8
deriving DecidableEq, Repr

def Flip.apply (shards : List Shard) (f : Flip) : List Shard :=
  shards.modify f.shard fun s => s.modify f.index (· ^^^ f.value)

def lose (lost : List Nat) (fill : UInt8) (shards : List Shard) : List Shard :=
  shards.zipIdx.map fun (s, i) => if lost.contains i then List.replicate s.length fill else s

/-- A repair of damaged shards, perhaps more than once. -/
structure Trial where
  lost : List Nat
  fill : UInt8
  /-- Which shards are told to be there, unless it is those not lost. -/
  present : Option (List Bool)
  flips : List Flip
  offset : Nat
  length : Option Nat
  recreate : Bool
  times : Nat
deriving DecidableEq, Repr

def repeatRepair (code : Code) (present : List Bool) (offset length : Nat) (recreate : Bool) :
    Nat → List Shard → List Shard × List (Except Error RepairCount)
  | 0, shards => (shards, [])
  | times + 1, shards =>
    let attempt := code.repair shards present offset length recreate
    let (shards, results) := repeatRepair code present offset length recreate times attempt.shards
    (shards, attempt.result :: results)

def Trial.run (t : Trial) (code : Code) (shards : List Shard) :
    List Shard × List (Except Error RepairCount) :=
  let shards := lose t.lost t.fill shards
  let present := t.present.getD ((List.range shards.length).map fun i => !t.lost.contains i)
  let shards := t.flips.foldl Flip.apply shards
  repeatRepair code present t.offset (t.length.getD (shards.headD []).length) t.recreate t.times
    shards

def verifyDamaged (code : Code) (encode : Bool) (flips : List Flip) (shards : List Shard) :
    Except Error Bool := do
  let attempt : Attempt Unit := if encode then code.refresh shards else ⟨shards, .ok ()⟩
  attempt.result
  code.verify (flips.foldl Flip.apply attempt.shards)

end StripeRecovery.Scenario
