import StripeRecovery.Session.Shown
import StripeRecovery.Text.Bytes

/-!
Scripted runs of a session: what is done to it, how the storage nodes answer, what the
codec does, and what callbacks do when they are told of something.
-/
namespace StripeRecovery

inductive Payload where
  | literal (bytes : List UInt8) (capacity : Nat)
  | chunk (position : Nat) (length : Option Nat) (capacity : Nat)
deriving DecidableEq, Repr

inductive Reply where
  | refuse (error : Error)
  | chunk (payload : Payload)
  | stale (payload : Payload)
  | failure (error : Error)
deriving DecidableEq, Repr

/-- What can be done to a session at any time, also from a callback. -/
inductive Action where
  | fail (position : Nat)
  | receive (position : Nat) (payload : Payload)
  | receiveZeros (position size : Nat)
  | external (position : Nat)
  | abort
  | free
  | decode (recreate : Bool)
  | get (position : Nat) (keep : Option String)
  | getAll
  | view (name : String)
  | dropView (name : String)
  | chunkState (position : Nat)
  | phase
  | info
  | display
  | debug
  | nothing
deriving DecidableEq, Repr

inductive Command where
  | act (action : Action)
  | start (runtime : Bool)
  | respond (position : Nat) (reply : Reply)
  | advance (ms : Nat)
  | deliver (start position : Nat) (reply : Reply)
  | drained (start : Nat)
  | tally (start : Nat)
  | drop
deriving DecidableEq, Repr

inductive CodecScript where
  | decode (code : Code)
  | report (count : RepairCount)
  | fail (error : Error)

structure Hooks where
  onRecoverable : List Action
  onUnrecoverable : List Action
  onRepair : List Action
  whileDecoding : List Action
deriving DecidableEq, Repr

structure Script where
  stripe : List Shard
  replies : List (Nat × Reply)
  hooks : Hooks
  codec : CodecScript

inductive Response where
  | done
  | flag (value : Bool)
  | count (value : Nat)
  | outcome (value : Effect)
  | failure (error : Error)
  | chunk (position : Nat) (bytes : List UInt8)
  | chunks (values : List (Except Error (List UInt8)))
  | viewed (bytes : List UInt8) (shown : String)
  | chunkState (state : ChunkStatus)
  | phase (value : Phase)
  | info (file : String) (stripe : Nat) (layout : Layout)
  | text (value : String)
  | tally (shown : String) (stripe : Nat)
  | missing (what : String)

/-- What callbacks and the codec were asked, and what the hooks there answered. -/
inductive Reaction where
  | codec (call : DecodeCall)
  | hook (name : String) (subject : Option Nat) (responses : List Response)

structure SentRead where
  route : Route
  request : ReadRequest
deriving DecidableEq, Repr

structure PendingRead where
  start : Nat
  position : Nat
  reply : Option Reply
  deadline : Option Nat
  unsent : Option SentRead
deriving DecidableEq, Repr

structure Stage where
  script : Script
  clock : Nat
  reads : List PendingRead
  views : List (String × Nat)
  owned : Bool
  closed : Bool
  reactions : List Reaction
  sent : List SentRead

end StripeRecovery
