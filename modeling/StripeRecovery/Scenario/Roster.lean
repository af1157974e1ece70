import StripeRecovery.Roster

/-!
Scripted use of the chunks of a stripe and the pool that its payloads come from.
-/
namespace StripeRecovery.Scenario

inductive RosterAction where
  | move (position : Nat) (after : ChunkStatus)
  | complete (position : Nat) (bytes : List UInt8) (capacity : Nat)
  | state (position : Nat)
  | get (position : Nat)
  | positionsOf (state : ChunkStatus)
  | countOf (state : ChunkStatus)
  | free
deriving DecidableEq, Repr

inductive RosterResponse where
  | done
  | state (value : ChunkStatus)
  | chunk (value : Chunk)
  | positions (value : List Nat)
  | count (value : Nat)
  | failure (error : Error)

structure RosterReport where
  response : RosterResponse
  roster : Roster
  pool : Pool

def rosterAct (t : Roster) (pool : Pool) : RosterAction → Roster × Pool × RosterResponse
  | .move position after =>
    match t.move position after with
    | .ok (t, before) => (t, pool, .state before)
    | .error e => (t, pool, .failure e)
  | .complete position bytes capacity =>
    let (pool, payload) := pool.adopt bytes capacity
    match t.complete position payload with
    | .ok t => (t, pool, .done)
    | .error e => (t, pool.release payload, .failure e)
  | .state position =>
    match t.state position with
    | .ok s => (t, pool, .state s)
    | .error e => (t, pool, .failure e)
  | .get position =>
    match t.get position with
    | .ok c => (t, pool, .chunk c)
    | .error e => (t, pool, .failure e)
  | .positionsOf state => (t, pool, .positions (t.positionsOf state))
  | .countOf state => (t, pool, .count (t.countOf state))
  | .free => (t.withoutBuffers, pool.releaseAll t.buffers, .count t.buffered)

def playRoster : Roster → Pool → List RosterAction → List RosterReport
  | _, _, [] => []
  | t, pool, a :: rest =>
    let (t, pool, response) := rosterAct t pool a
    ⟨response, t, pool⟩ :: playRoster t pool rest

end StripeRecovery.Scenario
