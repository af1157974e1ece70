import StripeRecovery.Session.Decode
import StripeRecovery.Tally

/-!
A session at work. Its sections run one after the other; between them it raises notices,
sends reads and calls the codec, and whatever answers these may use the session itself.
What lies outside of the session is a type parameter `ω`, so nothing is assumed about it.
-/
namespace StripeRecovery

/-- A session with its pool, the accounts of its starts, the notices raised so far, and all
    else that takes part. -/
structure World (ω : Type) where
  session : Session
  pool : Pool
  tallies : List Tally
  notices : List Notice
  aside : ω

structure ReadRequest where
  file : String
  /-- The layout seen from the position that is read. -/
  layout : Layout
  object : Nat
  offset : Nat
  length : Nat
  committed : Committed
deriving DecidableEq, Repr

inductive Route where
  | local
  | peer (address : String)
deriving DecidableEq, Repr

inductive Answer where
  | payload (buffer : Buffer)
  | stale (buffer : Buffer)
  | failure (error : Error)
deriving DecidableEq, Repr

/-- The outside of a session. Each of these may use the session before it returns. -/
structure Outside (ω : Type) where
  notify : Notice → World ω → World ω
  /-- Sends a read on account of a start; an error says that it could not be sent. -/
  send : (start : Nat) → Route → ReadRequest → World ω → World ω × Option Error
  repair : DecodeCall → World ω → World ω × Attempt RepairCount

namespace World
variable {ω : Type}

def run {α : Type} (w : World ω) (act : Session → Pool → Step α) : World ω × α :=
  let step := act w.session w.pool
  ({ w with session := step.session, pool := step.pool }, step.answer)

def account (w : World ω) (start : Nat) (f : Tally → Tally) : World ω :=
  { w with tallies := w.tallies.modify start f }

/-- Enters an answer in the account of its start: one update counts it, the next takes its read
    off what is outstanding. -/
def respond (start : Nat) (w : World ω) : World ω :=
  (w.account start Tally.answer).account start (·.settle 1)

def abandon (start count : Nat) (w : World ω) : World ω :=
  (w.account start (·.waive count)).account start (·.settle count)

def raise (out : Outside ω) (n : Notice) (w : World ω) : World ω :=
  out.notify n { w with notices := w.notices ++ [n] }

def raise? (out : Outside ω) (n : Option Notice) (w : World ω) : World ω :=
  match n with
  | some n => w.raise out n
  | none => w

def fail (out : Outside ω) (position : Nat) (w : World ω) : World ω × Effect :=
  let (w, verdict) := w.run fun s pool => s.fail pool position
  (w.raise? out verdict.notice, verdict.outcome)

def receive (out : Outside ω) (position : Nat) (payload : Buffer) (w : World ω) :
    World ω × Effect :=
  let (w, verdict) := w.run fun s pool => s.receive pool position payload
  (w.raise? out verdict.notice, verdict.outcome)

def external (position : Nat) (w : World ω) : World ω × Except Error Unit :=
  match w.session.external position with
  | .ok s => ({ w with session := s }, .ok ())
  | .error e => (w, .error e)

def abort (w : World ω) : World ω := (w.run Session.abort).1

def free (w : World ω) : World ω × Nat := w.run Session.free

def view (position : Nat) (w : World ω) : World ω × Except Error Buffer :=
  let (s, answer) := w.session.view position
  ({ w with session := s }, answer)

def dropView (w : World ω) : World ω := (w.run Session.dropView).1

def decode (out : Outside ω) (recreate : Bool) (w : World ω) : World ω × Except Error Bool :=
  match w.run fun s pool => s.beginDecode pool recreate with
  | (w, .inl answer) => (w, answer)
  | (w, .inr call) =>
    let (w, attempt) := out.repair call w
    w.run fun s pool => s.finishDecode pool attempt

/-- Routes the answer of a read into the session. A stale chunk is reported for repair while
    that is of use, and counts as failed. -/
def deliver (out : Outside ω) (start position : Nat) (answer : Answer) (w : World ω) :
    World ω × Effect :=
  let (w, outcome) :=
    match answer with
    | .payload buffer => w.receive out position buffer
    | .stale buffer =>
      let w := { w with pool := w.pool.release buffer }
      let w := if w.session.wantsRepair then w.raise out (.repair position) else w
      w.fail out position
    | .failure _ => (w.account start Tally.error).fail out position
  (w.respond start, outcome)

def requestFor (s : Session) (position : Nat) : Except Error ReadRequest :=
  (s.layout.seenFrom position).map fun layout =>
    ⟨s.target.file, layout, s.layout.objectAt s.stripe position, 0, s.layout.chunkSize,
      s.target.committed⟩

def sendRead (out : Outside ω) (start position : Nat) (w : World ω) : World ω × Option Error :=
  match requestFor w.session position with
  | .error e => (w, some e)
  | .ok request =>
    if position = w.session.layout.home then out.send start .local request w
    else
      match w.session.target.peers.get? position with
      | some address => out.send start (.peer address) request w
      | none => (w, some (.dispatch position .unknownNode))

def sendReads (out : Outside ω) (start : Nat) : List Nat → World ω → World ω
  | [], w => w
  | position :: rest, w =>
    match w.sendRead out start position with
    | (w, none) => sendReads out start rest w
    | (w, some e) =>
      let w := w.account start Tally.quickFail
      let (w, outcome) := w.deliver out start position (.failure e)
      if outcome.shouldStop then w.abandon start rest.length
      else sendReads out start rest w

/-- Starts reading every chunk about which nothing is known. The answer is the number of this
    start, under which its reads report. -/
def start (out : Outside ω) (w : World ω) : World ω × Nat :=
  let (s, positions) := w.session.request
  let number := w.tallies.length
  let w := { w with session := s, tallies := w.tallies ++ [Tally.make positions.length] }
  (w.sendReads out number positions, number)

end World
end StripeRecovery
