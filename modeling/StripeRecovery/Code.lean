import StripeRecovery.Error
import StripeRecovery.Field

/-!
A systematic Reed-Solomon code over `GF256`. Column by column, the bytes of the shards
of a stripe are the values of one polynomial at the points 0, 1, …: the data shards fix
the polynomial, the parity shards hold its next values. So any `data` shards determine
all others, by interpolation.
-/
namespace StripeRecovery

abbrev Shard := List UInt8

def differences (t : GF256) (points : List GF256) : GF256 :=
  points.foldr (fun y product => (t + y) * product) 1

/-- The weight of the value at `x` when the polynomial through `points` is evaluated at `t`. -/
def weight (points : List GF256) (t x : GF256) : GF256 :=
  let others := points.filter (· ≠ x)
  differences t others / differences x others

def Shard.scale (c : GF256) (s : Shard) : Shard := s.map fun b => (c * ⟨b⟩).byte

def Shard.add (s t : Shard) : Shard := List.zipWith (· ^^^ ·) s t

structure Sample where
  position : Nat
  shard : Shard
deriving DecidableEq, Repr

def interpolate (samples : List Sample) (length target : Nat) : Shard :=
  let points := samples.map fun s => GF256.point s.position
  samples.foldr
    (fun s sum => (s.shard.scale (weight points (GF256.point target) (GF256.point s.position))).add sum)
    (List.replicate length 0)

def samplesOf (shards : List Shard) : List Sample :=
  shards.zipIdx.map fun s => ⟨s.2, s.1⟩

structure Code where
  data : Nat
  parity : Nat
  data_pos : 0 < data
  parity_pos : 0 < parity
  width_le : data + parity ≤ 256

structure Attempt (α : Type) where
  shards : List Shard
  result : Except Error α

namespace Code

def make (data parity : Nat) : Except Error Code :=
  if data_pos : 0 < data then
    if parity_pos : 0 < parity then
      if width_le : data + parity ≤ 256 then .ok ⟨data, parity, data_pos, parity_pos, width_le⟩
      else .error (.code .noSuchCode)
    else .error (.code .noParityShards)
  else .error (.code .noDataShards)

def width (c : Code) : Nat := c.data + c.parity

def parityOf (c : Code) (data : List Shard) (length : Nat) : List Shard :=
  (List.range c.parity).map fun i => interpolate (samplesOf data) length (c.data + i)

def shardFault? : List Shard → Option ShardFault
  | [] => none
  | first :: rest =>
    if first.isEmpty then some .empty
    else if rest.all (·.length == first.length) then none
    else some .uneven

def checkCount (c : Code) (found : Nat) : Except Error Unit :=
  if found = c.width then .ok () else .error (.code (.shardCount c.width found))

def recode (c : Code) (shards : List Shard) : List Shard :=
  let data := shards.take c.data
  data ++ c.parityOf data (data.headD []).length

def refresh (c : Code) (shards : List Shard) : Attempt Unit :=
  match c.checkCount shards.length with
  | .error e => ⟨shards, .error e⟩
  | .ok () =>
    match shardFault? shards with
    | some fault => ⟨shards, .error (.encoding (.encoding fault))⟩
    | none => ⟨c.recode shards, .ok ()⟩

def encode (c : Code) (chunks : List Shard) : Except Error (List Shard) :=
  if chunks.length ≠ c.data then .error (.code (.chunkCount c.data chunks.length))
  else
    let length := (chunks.headD []).length
    if chunks.any (·.length != length) then .error (.encoding .unevenChunks)
    else
      let attempt := c.refresh (chunks ++ List.replicate c.parity (List.replicate length 0))
      attempt.result.map fun _ => attempt.shards

def verify (c : Code) (shards : List Shard) : Except Error Bool := do
  c.checkCount shards.length
  match shardFault? shards with
  | some fault => .error (.encoding (.verifying fault))
  | none => .ok (c.recode shards == shards)

end Code
end StripeRecovery
