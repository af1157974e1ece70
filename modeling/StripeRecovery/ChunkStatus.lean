/-!
The states of one chunk while its stripe is recovered, and the moves between them.
Outside of a decode only these moves are allowed:

    absent ──► requested ──► complete | failed
       │                        ▲
       ├──► external ───────────┤
       └────────────────────────┘

A decode alone moves a chunk to `rebuilt`.
-/
namespace StripeRecovery

inductive ChunkStatus where
  | absent
  | requested
  | complete
  | failed
  | external
  | rebuilt
deriving DecidableEq, Repr

namespace ChunkStatus

def all : List ChunkStatus := [absent, requested, complete, failed, external, rebuilt]

def name : ChunkStatus → String
  | absent => "none"
  | requested => "requested"
  | complete => "complete"
  | failed => "failed"
  | external => "external"
  | rebuilt => "reconstructed"

def canMove : ChunkStatus → ChunkStatus → Bool
  | absent, requested | absent, external | absent, complete | absent, failed => true
  | requested, complete | requested, failed => true
  | external, complete | external, failed => true
  | _, _ => false

def canRebuild : ChunkStatus → Bool
  | complete | rebuilt => false
  | _ => true

end ChunkStatus
end StripeRecovery
