import StripeRecovery.Recovery
import StripeRecovery.Text.Quoted

/-!
How sessions and what belongs to them are shown to people.
-/
namespace StripeRecovery

def Phase.name : Phase → String
  | pending => "Pending"
  | completed => "Completed"
  | decoding => "Decoding"
  | decoded => "Decoded"
  | aborted => "Aborted"

def Effect.name : Effect → String
  | pending => "Pending"
  | completed => "Completed"
  | aborted => "Aborted"
  | ignored => "Ignored"

def ChunkStatus.letter : ChunkStatus → Char
  | absent => 'n'
  | requested => 'q'
  | complete => 'C'
  | failed => 'F'
  | external => 'e'
  | rebuilt => 'R'

def Layout.shown (p : Layout) : String :=
  Quoted.record "StripingPolicy" [("data_width", toString p.data),
    ("parity_width", toString p.parity), ("stripe_size_kib", toString p.chunkKiB),
    ("local_position", toString p.home)]

def PoolSettings.shown (c : PoolSettings) : String :=
  Quoted.record "BufferPoolConfig" [("min_class_size", toString c.smallest),
    ("max_class_size", toString c.largest), ("max_pooled_per_class", toString c.shelfRoom)]

def PoolCounts.shown (s : PoolCounts) : String :=
  Quoted.record "PoolStats" [("allocated", toString s.allocated),
    ("released", toString s.released), ("hits", toString s.hits), ("misses", toString s.misses)]

def Pool.shown (p : Pool) : String :=
  Quoted.record "BufferPool" [("config", p.settings.shown), ("stats", p.counts.shown)]

def Buffer.shown (b : Buffer) : String :=
  Quoted.record "PooledBuffer" [("len", toString b.length), ("capacity", toString b.capacity),
    ("pooled", toString b.pooled)]

def Tally.shown (t : Tally) (stripe : Nat) : String :=
  Quoted.record "ResponseAggregator" [("stripe", toString stripe),
    ("expected", toString t.expected), ("responses", toString t.responses),
    ("errors", toString t.errors), ("quick_fails", toString t.quickFails)]

def Pool.shownWithCode (p : Pool) (data parity : Nat) : String :=
  Quoted.record "Collaborators" [("data_shards", toString data),
    ("parity_shards", toString parity), ("pool", p.shown)]

def Buffer.shownAsView (b : Buffer) (position : Nat) : String :=
  Quoted.record "ChunkView" [("position", toString position), ("len", toString b.length)]

namespace Session

def shown (s : Session) : String :=
  "StripeReconstructor [file=" ++ s.target.file ++ ", stripe=" ++ toString s.stripe ++
    ", state=" ++ s.phase.name ++ ", successes=" ++ toString s.successes ++
    ", failures=" ++ toString s.failures ++ ", chunks=[" ++
    ", ".intercalate (s.roster.chunks.map (·.state.name)) ++ "]]"

def described (s : Session) (identity : String) : String :=
  Quoted.record "StripeReconstructor" [("id", identity),
    ("file_id", "FileId(" ++ Quoted.text s.target.file ++ ")"), ("stripe", toString s.stripe),
    ("policy", s.layout.shown), ("state", s.phase.name)]

def letters (s : Session) : String := String.ofList (s.roster.chunks.map (·.state.letter))

end Session
end StripeRecovery
