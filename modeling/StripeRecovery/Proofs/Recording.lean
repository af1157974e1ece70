import StripeRecovery.Proofs.Sound

/-!
The reads that a session asks for, recorded on their way out. Recording stands between the
session and its outside, so it sees every read that an operation sends, and nothing else of
the run changes.
-/
namespace StripeRecovery

structure ReadCall where
  start : Nat
  route : Route
  request : ReadRequest
  fault : Option Error
deriving DecidableEq, Repr

/-- The position that is read: the layout of the request is the one seen from there. -/
def ReadCall.position (c : ReadCall) : Nat := c.request.layout.home

variable {ω α : Type}

def World.beside (w : World ω) (aside : α) : World α :=
  ⟨w.session, w.pool, w.tallies, w.notices, aside⟩

def World.bare (w : World (ω × List ReadCall)) : World ω := w.beside w.aside.1

def World.reads (w : World (ω × List ReadCall)) : List ReadCall := w.aside.2

def Outside.recording (out : Outside ω) : Outside (ω × List ReadCall) where
  notify n w :=
    let after := out.notify n w.bare
    after.beside (after.aside, w.reads)
  send start route request w :=
    let (after, fault) := out.send start route request w.bare
    (after.beside (after.aside, w.reads ++ [⟨start, route, request, fault⟩]), fault)
  repair call w :=
    let (after, attempt) := out.repair call w.bare
    (after.beside (after.aside, w.reads), attempt)

theorem Outside.Confined.recording {out : Outside ω} {P : Session → Prop}
    {allowed : Session.Section → Prop} (confined : out.Confined P allowed) :
    out.recording.Confined P allowed where
  notify n w holds := by
    obtain ⟨history, may, session, pool, notices⟩ := confined.notify n w.bare holds
    exact ⟨history, may, session, pool, notices⟩
  send start route request w holds := by
    obtain ⟨history, may, session, pool, notices⟩ := confined.send start route request w.bare holds
    exact ⟨history, may, session, pool, notices⟩
  repair call w holds := by
    obtain ⟨history, may, session, pool, notices⟩ := confined.repair call w.bare holds
    exact ⟨history, may, session, pool, notices⟩

def Session.routeOf (s : Session) (position : Nat) : Option Route :=
  if position = s.layout.home then some .local else (s.target.peers.get? position).map .peer

theorem World.sendRead_eq (out : Outside ω) (start position : Nat) (w : World ω) :
    w.sendRead out start position =
      match requestFor w.session position, w.session.routeOf position with
      | .error e, _ => (w, some e)
      | .ok _, none => (w, some (.dispatch position .unknownNode))
      | .ok request, some route => out.send start route request w := by
  unfold sendRead Session.routeOf
  cases requestFor w.session position with
  | error e => rfl
  | ok request =>
    by_cases home : position = w.session.layout.home
    · simp [home]
    · simp only [home, ↓reduceIte]
      cases w.session.target.peers.get? position <;> rfl

namespace World
variable (out : Outside ω) (w : World (ω × List ReadCall))

/-! Recording changes nothing but the record. -/

theorem raise?_bare (n : Option Notice) :
    (w.raise? out.recording n).bare = w.bare.raise? out n := by
  cases n <;> rfl

theorem fail_bare (position : Nat) :
    (w.fail out.recording position).1.bare = (w.bare.fail out position).1 ∧
      (w.fail out.recording position).2 = (w.bare.fail out position).2 :=
  ⟨raise?_bare out _ _, rfl⟩

theorem receive_bare (position : Nat) (payload : Buffer) :
    (w.receive out.recording position payload).1.bare = (w.bare.receive out position payload).1 ∧
      (w.receive out.recording position payload).2 = (w.bare.receive out position payload).2 :=
  ⟨raise?_bare out _ _, rfl⟩

theorem deliver_bare (start position : Nat) (answer : Answer) :
    (w.deliver out.recording start position answer).1.bare =
        (w.bare.deliver out start position answer).1 ∧
      (w.deliver out.recording start position answer).2 =
        (w.bare.deliver out start position answer).2 := by
  cases answer with
  | payload buffer =>
    obtain ⟨world, effect⟩ := receive_bare out w position buffer
    exact ⟨congrArg (respond start) world, effect⟩
  | failure error =>
    obtain ⟨world, effect⟩ := fail_bare out (w.account start Tally.error) position
    exact ⟨congrArg (respond start) world, effect⟩
  | stale buffer =>
    let dropped : World (ω × List ReadCall) := { w with pool := w.pool.release buffer }
    let told := if dropped.session.wantsRepair then dropped.raise out.recording (.repair position)
      else dropped
    have same : told.bare = if dropped.bare.session.wantsRepair then
        dropped.bare.raise out (.repair position) else dropped.bare := by
      simp only [told]
      split <;> simp_all [raise, Outside.recording, bare, beside]
    obtain ⟨world, effect⟩ := fail_bare out told position
    rw [same] at world effect
    exact ⟨congrArg (respond start) world, effect⟩

theorem sendRead_bare (start position : Nat) :
    (w.sendRead out.recording start position).1.bare = (w.bare.sendRead out start position).1 ∧
      (w.sendRead out.recording start position).2 = (w.bare.sendRead out start position).2 := by
  have same : w.bare.session = w.session := rfl
  rw [sendRead_eq, sendRead_eq, same]
  cases requestFor w.session position with
  | error e => exact ⟨rfl, rfl⟩
  | ok request =>
    cases w.session.routeOf position with
    | none => exact ⟨rfl, rfl⟩
    | some route => exact ⟨rfl, rfl⟩

theorem sendReads_bare (start : Nat) (positions : List Nat) :
    (w.sendReads out.recording start positions).bare = w.bare.sendReads out start positions := by
  induction positions generalizing w with
  | nil => rfl
  | cons position rest ih =>
    obtain ⟨sent, fault⟩ := sendRead_bare out w start position
    simp only [sendReads]
    rw [← Prod.eta (w.bare.sendRead out start position), ← sent, ← fault]
    cases w.sendRead out.recording start position with
    | mk v refused =>
      cases refused with
      | none => exact ih v
      | some e =>
        obtain ⟨world, effect⟩ :=
          deliver_bare out (v.account start Tally.quickFail) start position (.failure e)
        have counted : (v.account start Tally.quickFail).bare =
          v.bare.account start Tally.quickFail := rfl
        rw [counted] at world effect
        dsimp only
        rw [← effect, ← world]
        split
        · rfl
        · exact ih _

theorem decode_bare (recreate : Bool) :
    (w.decode out.recording recreate).1.bare = (w.bare.decode out recreate).1 ∧
      (w.decode out.recording recreate).2 = (w.bare.decode out recreate).2 := by
  have same : w.bare.run (fun s pool => s.beginDecode pool recreate) =
      ((w.run fun s pool => s.beginDecode pool recreate).1.bare,
        (w.run fun s pool => s.beginDecode pool recreate).2) := rfl
  simp only [decode, same]
  cases w.run fun s pool => s.beginDecode pool recreate with
  | mk v turn =>
    cases turn with
    | inl answer => exact ⟨rfl, rfl⟩
    | inr call => exact ⟨rfl, rfl⟩

theorem perform_bare (op : Operation) :
    (w.perform out.recording op).bare = w.bare.perform out op := by
  cases op with
  | start => exact sendReads_bare out w.requested.1 w.tallies.length w.requested.2
  | deliver start position answer => exact (deliver_bare out w start position answer).1
  | receive position payload => exact (receive_bare out w position payload).1
  | fail position => exact (fail_bare out w position).1
  | external position =>
    have same : w.bare.session = w.session := rfl
    simp only [perform, external, same]
    cases w.session.external position <;> rfl
  | abort => rfl
  | free => rfl
  | decode recreate => exact (decode_bare out w recreate).1
  | view position => rfl
  | dropView => rfl

theorem performAll_bare (ops : List Operation) :
    (performAll out.recording ops w).bare = performAll out ops w.bare := by
  induction ops generalizing w with
  | nil => rfl
  | cons op rest ih =>
    rw [performAll, performAll, ih, perform_bare]

/-! Only a start adds to the record, and only while it sends its reads. -/

theorem raise?_reads (n : Option Notice) : (w.raise? out.recording n).reads = w.reads := by
  cases n <;> rfl

theorem fail_reads (position : Nat) : (w.fail out.recording position).1.reads = w.reads :=
  raise?_reads out _ _

theorem deliver_reads (start position : Nat) (answer : Answer) :
    (w.deliver out.recording start position answer).1.reads = w.reads := by
  cases answer with
  | payload buffer => exact raise?_reads out _ _
  | failure error => exact fail_reads out (w.account start Tally.error) position
  | stale buffer =>
    refine (fail_reads out _ position).trans ?_
    split <;> rfl

theorem sendRead_reads (start position : Nat) :
    (w.sendRead out.recording start position).1.reads = w.reads ++
      match requestFor w.session position, w.session.routeOf position with
      | .ok request, some route =>
        [⟨start, route, request, (w.sendRead out.recording start position).2⟩]
      | _, _ => [] := by
  rw [sendRead_eq]
  cases requestFor w.session position with
  | error e => exact (List.append_nil _).symm
  | ok request =>
    cases w.session.routeOf position with
    | none => exact (List.append_nil _).symm
    | some route => rfl

theorem perform_reads {op : Operation} (other : op ≠ .start) :
    (w.perform out.recording op).reads = w.reads := by
  cases op with
  | start => contradiction
  | deliver start position answer => exact deliver_reads out w start position answer
  | receive position payload => exact raise?_reads out _ _
  | fail position => exact fail_reads out w position
  | external position =>
    simp only [perform, external]
    cases w.session.external position <;> rfl
  | abort => rfl
  | free => rfl
  | decode recreate =>
    have same : (w.run fun s pool => s.beginDecode pool recreate).1.reads = w.reads := rfl
    simp only [perform, decode]
    rw [← same]
    cases w.run fun s pool => s.beginDecode pool recreate with
    | mk v turn => cases turn <;> rfl
  | view position => rfl
  | dropView => rfl

end World
end StripeRecovery
