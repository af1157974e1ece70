import StripeRecovery.Roster
import StripeRecovery.Code.Repair
import StripeRecovery.Committed
import StripeRecovery.Settings
import StripeRecovery.Notice
import StripeRecovery.Peers

/-!
The recovery of one stripe. A session collects chunks until it can be decided: it is
completed once `data` chunks arrived and aborted once more than `parity` failed.

    pending ──► completed ──► decoding ──► decoded
       │            │             │           │
       └────────────┴─────────────┴───────────┴──► aborted

Every function here is one section that nothing interrupts. A section never calls out: it
answers which notice is due, and whoever runs it raises the notice afterwards. Buffers come
from a pool that other sessions may share, so a section takes the pool and gives it back.
-/
namespace StripeRecovery

structure Target where
  file : String
  stripe : Nat
  layout : Layout
  committed : Committed
  peers : Peers
deriving DecidableEq, Repr

inductive Phase where
  | pending
  | completed
  | decoding
  | decoded
  | aborted
deriving DecidableEq, Repr

inductive Effect where
  | pending
  | completed
  | aborted
  | ignored
deriving DecidableEq, Repr

def Effect.shouldStop (o : Effect) : Bool := o == .aborted

structure RebuiltStripe where
  buffers : List Buffer
  filled : List Bool
deriving DecidableEq, Repr

/-- A decoded stripe lives as long as the session or a view refers to it. -/
structure Lease where
  stripe : RebuiltStripe
  held : Bool
  views : Nat
deriving DecidableEq, Repr

/-- A decode between its two sections: the chunks it works on and those that had arrived. -/
structure DecodeJob where
  buffers : List Buffer
  present : List Bool
deriving DecidableEq, Repr

structure Session where
  target : Target
  timeLimit : Option Duration
  phase : Phase
  roster : Roster
  successes : Nat
  failures : Nat
  job : Option DecodeJob
  lease : Option Lease
deriving DecidableEq, Repr

structure Step (α : Type) where
  session : Session
  pool : Pool
  answer : α

structure Verdict where
  outcome : Effect
  notice : Option Notice
deriving DecidableEq, Repr

namespace Session

/-- A new session; the widths of the code have to be those of the layout. -/
def make (target : Target) (codeData codeParity : Nat) (settings : Settings) :
    Except Error Session :=
  let layout := target.layout
  if codeData = layout.data ∧ codeParity = layout.parity then
    match settings.check with
    | .error e => .error e
    | .ok () =>
      .ok ⟨target, settings.timeLimit, .pending, .make layout target.stripe, 0, 0, none, none⟩
  else .error (.code (.layoutMismatch codeData codeParity layout.data layout.parity))

def stripe (s : Session) : Nat := s.target.stripe

def layout (s : Session) : Layout := s.target.layout

/-- Gives up the session's own reference to the decoded stripe; its buffers are released
    if no view refers to them. -/
def giveUpStripe (s : Session) (pool : Pool) : Step Nat :=
  match s.lease with
  | some lease =>
    if lease.held then
      let count := lease.stripe.buffers.length
      if lease.views = 0 then
        ⟨{ s with lease := none }, pool.releaseAll lease.stripe.buffers, count⟩
      else ⟨{ s with lease := some { lease with held := false } }, pool, count⟩
    else ⟨s, pool, 0⟩
  | none => ⟨s, pool, 0⟩

def free (s : Session) (pool : Pool) : Step Nat :=
  let given := s.giveUpStripe pool
  let buffers := given.session.roster.buffers
  ⟨{ given.session with roster := given.session.roster.withoutBuffers },
    given.pool.releaseAll buffers, buffers.length + given.answer⟩

def request (s : Session) : Session × List Nat :=
  if s.phase = .pending then
    let mark (c : Chunk) : Chunk := if c.state = .absent then { c with state := .requested } else c
    ({ s with roster := ⟨s.roster.chunks.map mark⟩ }, s.roster.positionsOf .absent)
  else (s, [])

def fail (s : Session) (pool : Pool) (position : Nat) : Step Verdict :=
  match s.phase with
  | .aborted => ⟨s, pool, ⟨.aborted, none⟩⟩
  | .completed | .decoding | .decoded => ⟨s, pool, ⟨.ignored, none⟩⟩
  | .pending =>
    match s.roster.move position .failed with
    | .error _ => ⟨s, pool, ⟨.ignored, none⟩⟩
    | .ok (roster, _) =>
      let failures := s.failures + 1
      if failures ≤ s.layout.parity then
        ⟨{ s with roster := roster, failures := failures }, pool, ⟨.pending, none⟩⟩
      else
        let freed :=
          free { s with roster := roster, failures := failures, phase := .aborted } pool
        ⟨freed.session, freed.pool, ⟨.aborted, some (.unrecoverable s.stripe)⟩⟩

/-- Takes the payload of a chunk; the last one needed completes the session. A payload that
    is not taken is released. -/
def receive (s : Session) (pool : Pool) (position : Nat) (payload : Buffer) : Step Verdict :=
  if s.phase = .pending then
    match s.roster.complete position payload with
    | .error _ => ⟨s, pool.release payload, ⟨.ignored, none⟩⟩
    | .ok roster =>
      let successes := s.successes + 1
      if successes < s.layout.data then
        ⟨{ s with roster := roster, successes := successes }, pool, ⟨.pending, none⟩⟩
      else
        ⟨{ s with roster := roster, successes := successes, phase := .completed }, pool,
          ⟨.completed, some (.recoverable s.stripe)⟩⟩
  else ⟨s, pool.release payload, ⟨.ignored, none⟩⟩

def external (s : Session) (position : Nat) : Except Error Session :=
  if s.roster.width ≤ position then .error (.outOfRange position s.roster.width)
  else if s.phase = .pending then
    match s.roster.move position .external with
    | .error e => .error e
    | .ok (roster, _) => .ok { s with roster := roster }
  else .ok s

def abort (s : Session) (pool : Pool) : Step Unit :=
  let freed := free { s with phase := .aborted } pool
  ⟨freed.session, freed.pool, ()⟩

def wantsRepair (s : Session) : Bool := s.phase == .pending || s.phase == .completed

def view (s : Session) (position : Nat) : Session × Except Error Buffer :=
  if s.roster.width ≤ position then (s, .error (.outOfRange position s.roster.width))
  else
    match s.phase with
    | .aborted => (s, .error (.aborted s.stripe))
    | .pending | .completed | .decoding => (s, .error (.notDecoded position))
    | .decoded =>
      match s.lease with
      | some lease =>
        if lease.held then
          match lease.stripe.filled[position]?, lease.stripe.buffers[position]? with
          | some true, some buffer =>
            ({ s with lease := some { lease with views := lease.views + 1 } }, .ok buffer)
          | _, _ => (s, .error (.parityNotRebuilt position))
        else (s, .error (.released position))
      | none => (s, .error (.released position))

def dropView (s : Session) (pool : Pool) : Step Unit :=
  match s.lease with
  | some lease =>
    if lease.views ≤ 1 ∧ !lease.held then
      ⟨{ s with lease := none }, pool.releaseAll lease.stripe.buffers, ()⟩
    else ⟨{ s with lease := some { lease with views := lease.views - 1 } }, pool, ()⟩
  | none => ⟨s, pool, ()⟩

end Session
end StripeRecovery
