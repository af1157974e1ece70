import StripeRecovery.ChunkStatus
import StripeRecovery.Extent
import StripeRecovery.Text.Duration

/-!
What can go wrong, as causes, and the one place that words them. A cause that comes
from outside (a storage node, a codec) brings its own words: constructor `stated`.
-/
namespace StripeRecovery

inductive ShardFault where
  | empty
  | uneven
deriving DecidableEq, Repr

inductive CodeFault where
  | noDataShards
  | noParityShards
  | noSuchCode
  | noDataWidth
  | noParityWidth
  | tooWide (width : Nat)
  | noChunkSize
  | chunkCount (expected found : Nat)
  | shardCount (expected found : Nat)
  | shortShard (shard bytes past : Nat)
  | layoutMismatch (codeData codeParity data parity : Nat)
  | stated (reason : String)
deriving DecidableEq, Repr

inductive EncodingFault where
  | unevenChunks
  | encoding (fault : ShardFault)
  | verifying (fault : ShardFault)
  | stated (reason : String)
deriving DecidableEq, Repr

inductive ExtentFault where
  | reversed (first past : Nat)
  | conflict (kept next : Extent)
  | stated (reason : String)
deriving DecidableEq, Repr

inductive SettingsFault where
  | unreadable
  | zeroTimeout
  | oddClasses (smallest largest : Nat)
  | reversedClasses (smallest largest : Nat)
  | noShelfRoom
  | logInstalled
  | stated (reason : String)
deriving DecidableEq, Repr

inductive InternalFault where
  | illegalMove (before after : ChunkStatus) (position : Nat)
  | noRuntime
  | stated (reason : String)
deriving DecidableEq, Repr

inductive DispatchFault where
  | unknownNode
  | stated (reason : String)
deriving DecidableEq, Repr

inductive Error where
  | io (reason : String)
  | internal (fault : InternalFault)
  | settings (fault : SettingsFault)
  | dispatch (position : Nat) (fault : DispatchFault)
  | remote (position : Nat) (reason : String)
  | timeout (position : Nat) (limit : Duration)
  | notDecoded (position : Nat)
  | aborted (stripe : Nat)
  | released (position : Nat)
  | parityNotRebuilt (position : Nat)
  | outOfRange (position width : Nat)
  | tooFewShards (available required : Nat)
  | decoding (stripe : Nat) (reason : String)
  | encoding (fault : EncodingFault)
  | code (fault : CodeFault)
  | extents (fault : ExtentFault)
deriving DecidableEq, Repr

def ShardFault.text : ShardFault → String
  | .empty => "The first shard provided is of zero length"
  | .uneven => "At least one of the provided shards is not of the correct size"

def CodeFault.text : CodeFault → String
  | .noDataShards => "data_shards must be greater than 0"
  | .noParityShards => "parity_shards must be greater than 0"
  | .noSuchCode => "Failed to create Reed-Solomon codec: " ++
      "The number of provided shards is greater than the one in codec"
  | .noDataWidth => "data_width must be greater than 0"
  | .noParityWidth => "parity_width must be greater than 0"
  | .tooWide width => s!"stripe width {width} exceeds maximum of 256"
  | .noChunkSize => "stripe_size_kib must be greater than 0"
  | .chunkCount expected found => s!"Expected {expected} data chunks, got {found}"
  | .shardCount expected found => s!"Expected {expected} shards, got {found}"
  | .shortShard shard bytes past =>
      s!"shard {shard} has {bytes} bytes, decode range ends at {past}"
  | .layoutMismatch codeData codeParity data parity =>
      s!"codec is {codeData}+{codeParity} but stripe policy is {data}+{parity}"
  | .stated reason => reason

def EncodingFault.text : EncodingFault → String
  | .unevenChunks => "data chunks must have equal length"
  | .encoding fault => "Reed-Solomon encoding failed: " ++ fault.text
  | .verifying fault => "Verification failed: " ++ fault.text
  | .stated reason => reason

def ExtentFault.range : Extent → String
  | ⟨first, past, version⟩ => s!"[{first}, {past}) v{version}"

def ExtentFault.text : ExtentFault → String
  | .reversed first past => s!"extent start {first} is past its end {past}"
  | .conflict kept next => s!"extents {range kept} and {range next} overlap"
  | .stated reason => reason

def SettingsFault.text : SettingsFault → String
  | .unreadable => "Failed to parse configuration"
  | .zeroTimeout => "read_timeout_ms must be greater than 0"
  | .oddClasses smallest largest =>
      s!"pool size classes must be powers of two (min {smallest}, max {largest})"
  | .reversedClasses smallest largest =>
      s!"min_class_size {smallest} exceeds max_class_size {largest}"
  | .noShelfRoom => "max_pooled_per_class must be greater than 0"
  | .logInstalled => "Failed to install tracing subscriber: " ++
      "a global default trace dispatcher has already been set"
  | .stated reason => reason

def InternalFault.text : InternalFault → String
  | .illegalMove before after position =>
      "illegal chunk transition " ++ before.name ++ " -> " ++ after.name ++
        s!" at position {position}"
  | .noRuntime => "start requires a Tokio runtime: there is no reactor running, " ++
      "must be called from the context of a Tokio 1.x runtime"
  | .stated reason => reason

def DispatchFault.text : DispatchFault → String
  | .unknownNode => "no storage node known for position"
  | .stated reason => reason

namespace Error

def message : Error → String
  | io reason => "I/O error: " ++ reason
  | internal fault => "Internal error: " ++ fault.text
  | settings fault => "Configuration error: " ++ fault.text
  | dispatch position fault => s!"Dispatch to chunk position {position} failed: " ++ fault.text
  | remote position reason => s!"Remote read of chunk position {position} failed: " ++ reason
  | timeout position limit =>
      s!"Read of chunk position {position} timed out after " ++ limit.text
  | notDecoded position => s!"Chunk position {position} requested before decode completed"
  | aborted stripe => s!"Reconstruction session for stripe {stripe} was aborted"
  | released position => s!"Buffer of chunk position {position} was already released"
  | parityNotRebuilt position => s!"Parity chunk position {position} was not regenerated"
  | outOfRange position width =>
      s!"Chunk position {position} out of range for stripe width {width}"
  | tooFewShards available required =>
      s!"Insufficient shards for reconstruction: have {available}, need {required}"
  | decoding stripe reason => s!"EC reconstruction failed for stripe {stripe}: " ++ reason
  | encoding fault => "EC encoding failed: " ++ fault.text
  | code fault => "Invalid EC configuration: " ++ fault.text
  | extents fault => "Invalid committed extents: " ++ fault.text

def isUsage : Error → Bool
  | notDecoded _ | aborted _ | released _ | parityNotRebuilt _ | outOfRange _ _
  | tooFewShards _ _ => true
  | _ => false

def isTransport : Error → Bool
  | dispatch _ _ | remote _ _ | timeout _ _ => true
  | _ => false

end Error
end StripeRecovery
