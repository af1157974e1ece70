import StripeRecovery.Session

/-!
Decoding a completed stripe in two sections. The first takes the payloads and hands out the
chunks to work on; then the codec runs, and anything may happen to the session meanwhile;
the second stores the stripe unless the codec failed or the session was aborted.
-/
namespace StripeRecovery

structure DecodeCall where
  shards : List Shard
  present : List Bool
  offset : Nat
  length : Nat
  recreate : Bool
deriving DecidableEq, Repr

namespace Session

/-- A chunk to decode into: the payload at its full size, or zeros where it is missing. -/
def workingBuffer (size : Nat) (payload : Option Buffer) (pool : Pool) : Pool × Buffer :=
  match payload with
  | some b => pool.extend (b.shorten size) size
  | none => pool.allocate size

def workingBuffers (size : Nat) : List (Option Buffer) → Pool → Pool × List Buffer
  | [], pool => (pool, [])
  | payload :: rest, pool =>
    let (pool, b) := workingBuffer size payload pool
    let (pool, bs) := workingBuffers size rest pool
    (pool, b :: bs)

/-- The first section of a decode: either its answer, or the call to the codec. -/
def beginDecode (s : Session) (pool : Pool) (recreate : Bool) :
    Step (Except Error Bool ⊕ DecodeCall) :=
  match s.phase with
  | .decoding | .decoded => ⟨s, pool, .inl (.ok false)⟩
  | .aborted => ⟨s, pool, .inl (.error (.aborted s.stripe))⟩
  | .pending => ⟨s, pool, .inl (.error (.tooFewShards s.successes s.layout.data))⟩
  | .completed =>
    let (roster, payloads) := s.roster.takePayloads
    let present := payloads.map Option.isSome
    let (pool, buffers) := workingBuffers s.layout.chunkSize payloads pool
    ⟨{ s with phase := .decoding, roster := roster, job := some ⟨buffers, present⟩ }, pool,
      .inr ⟨buffers.map (·.bytes), present, 0, s.layout.chunkSize, recreate⟩⟩

def putBack : List Buffer → List Shard → List Buffer
  | b :: bs, shard :: shards => b.withBytes shard :: putBack bs shards
  | bs, _ => bs

def nameStripe (stripe : Nat) : Error → Error
  | .decoding _ reason => .decoding stripe reason
  | e => e

/-- The positions that hold contents: a codec regenerates all absent parity or none. -/
def filledAfter (layout : Layout) (present : List Bool) (count : RepairCount) : List Bool :=
  present.zipIdx.map fun (there, i) => there || i < layout.data || 0 < count.parity

def finishDecode (s : Session) (pool : Pool) (attempt : Attempt RepairCount) :
    Step (Except Error Bool) :=
  match s.job with
  | none => ⟨s, pool, .ok false⟩
  | some job =>
    let s := { s with job := none }
    let buffers := putBack job.buffers attempt.shards
    match attempt.result with
    | .error e =>
      ⟨{ s with phase := .aborted }, pool.releaseAll buffers, .error (nameStripe s.stripe e)⟩
    | .ok count =>
      if s.phase = .aborted then ⟨s, pool.releaseAll buffers, .error (.aborted s.stripe)⟩
      else
        let stripe : RebuiltStripe := ⟨buffers, filledAfter s.layout job.present count⟩
        ⟨{ s with phase := .decoded, lease := some ⟨stripe, true, 0⟩ }, pool, .ok true⟩

end Session
end StripeRecovery
