import StripeRecovery.Session.Decode
import StripeRecovery.Text.Bytes

/-!
The buffers of a decode, on whatever storage the pool puts them: what they show when they go
to the codec, and what they show when they come back.
-/
namespace StripeRecovery

/-- A payload shows a shard: without some of its last zeros, or with anything behind it. -/
def Carries (shard : Shard) (bytes : List UInt8) : Prop :=
  (∃ zeros, bytes ++ List.replicate zeros 0 = shard) ∨ ∃ rest, bytes = shard ++ rest

theorem Carries.fit {shard : Shard} {bytes : List UInt8} (carries : Carries shard bytes) :
    Bytes.fit bytes shard.length = shard := by
  rcases carries with ⟨zeros, rfl⟩ | ⟨rest, rfl⟩
  · have length : bytes.length ≤ (bytes ++ List.replicate zeros (0 : UInt8)).length := by simp
    rw [Bytes.fit, List.take_of_length_le length]
    simp
  · simp [Bytes.fit]

theorem fit_length (bytes : List UInt8) (size : Nat) : (Bytes.fit bytes size).length = size := by
  simp only [Bytes.fit, List.length_append, List.length_take, List.length_replicate]
  omega

theorem Buffer.shorten_bytes (b : Buffer) (length : Nat) :
    (b.shorten length).bytes = b.bytes.take length := by
  unfold shorten
  split
  · rfl
  · rename_i long
    exact (List.take_of_length_le (Nat.le_of_not_lt long)).symm

namespace Pool

theorem allocate_bytes (p : Pool) (size : Nat) :
    (p.allocate size).2.bytes = List.replicate size 0 := rfl

theorem extend_bytes (p : Pool) (b : Buffer) (size : Nat) :
    (p.extend b size).2.bytes = b.bytes ++ List.replicate (size - b.length) 0 := by
  unfold extend
  split
  · rename_i long
    have none_missing : size - b.length = 0 := by omega
    simp [none_missing]
  · split
    · rfl
    · simp only
      split <;> rfl

end Pool

namespace Session

def contents (size : Nat) : Option Buffer → Shard
  | some b => Bytes.fit b.bytes size
  | none => List.replicate size 0

theorem contents_length (size : Nat) (payload : Option Buffer) :
    (contents size payload).length = size := by
  cases payload with
  | none => exact List.length_replicate
  | some b => exact fit_length b.bytes size

theorem workingBuffer_bytes (size : Nat) (payload : Option Buffer) (pool : Pool) :
    (workingBuffer size payload pool).2.bytes = contents size payload := by
  cases payload with
  | none => exact pool.allocate_bytes size
  | some b =>
    have missing : size - (b.shorten size).length = size - b.bytes.length := by
      simp only [Buffer.length, Buffer.shorten_bytes, List.length_take]
      omega
    simp only [workingBuffer, contents, Bytes.fit, Pool.extend_bytes, missing, Buffer.shorten_bytes]

theorem workingBuffers_bytes (size : Nat) (payloads : List (Option Buffer)) (pool : Pool) :
    (workingBuffers size payloads pool).2.map (·.bytes) = payloads.map (contents size) := by
  induction payloads generalizing pool with
  | nil => rfl
  | cons payload rest ih =>
    simp only [workingBuffers, List.map_cons, workingBuffer_bytes, ih]

theorem putBack_bytes {buffers : List Buffer} {shards : List Shard}
    (same : buffers.length = shards.length) : (putBack buffers shards).map (·.bytes) = shards := by
  induction buffers generalizing shards with
  | nil =>
    have empty := List.eq_nil_of_length_eq_zero same.symm
    simp [putBack, empty]
  | cons b bs ih =>
    cases shards with
    | nil => simp at same
    | cons shard rest => simp [putBack, Buffer.withBytes, ih (by simpa using same)]

theorem filledAfter_get {layout : Layout} {present : List Bool} {count : RepairCount} {i : Nat}
    {there : Bool} (flag : present[i]? = some there) :
    (filledAfter layout present count)[i]? =
      some (there || decide (i < layout.data) || decide (0 < count.parity)) := by
  simp [filledAfter, flag]

end Session
end StripeRecovery
