import StripeRecovery.Proofs.Balance
import StripeRecovery.Proofs.Recording

/-!
Answers that come too late. Once a session is decided, its reports, its starts and the
answers of its reads find every door closed: the session stays as it is, no read is sent and
what is handed over goes back to the pool. Only a stale chunk may still be of interest, while
the stripe waits for its decode.
-/
namespace StripeRecovery

namespace Session
variable {s : Session} (decided : s.phase ≠ .pending)

def lateEffect (s : Session) : Effect := if s.phase = .aborted then .aborted else .ignored

include decided

theorem fail_late (pool : Pool) (position : Nat) :
    s.fail pool position = ⟨s, pool, ⟨s.lateEffect, none⟩⟩ := by
  unfold fail lateEffect
  cases phase : s.phase with
  | pending => contradiction
  | completed => rfl
  | decoding => rfl
  | decoded => rfl
  | aborted => rfl

theorem receive_late (pool : Pool) (position : Nat) (payload : Buffer) :
    s.receive pool position payload = ⟨s, pool.release payload, ⟨.ignored, none⟩⟩ := by
  simp [receive, decided]

theorem external_late (position : Nat) :
    s.external position = if s.roster.width ≤ position then
      .error (.outOfRange position s.roster.width) else .ok s := by
  simp [external, decided]

theorem request_late : s.request = (s, []) := by
  simp [request, decided]

end Session

variable {ω : Type}

/-- Nothing happened to the session of a world but late answers: the buffers `given` went back
    to the pool, and notices to repair the positions `told` were raised, if any were due. -/
structure World.Frozen (w : World ω) (given : List Buffer) (told : List Nat) (after : World ω) :
    Prop where
  session : after.session = w.session
  pool : after.pool = w.pool.releaseAll given
  notices : after.notices = w.notices ++ told.map .repair
  timely : told ≠ [] → w.session.phase = .completed

/-- Who is told to repair a chunk of a completed stripe may hand in answers as well, but does
    nothing else with the session. -/
def Outside.Patient (out : Outside ω) : Prop :=
  ∀ position (w : World ω), w.session.phase = .completed →
    ∃ given told, w.Frozen given told (out.notify (.repair position) w)

theorem Outside.Patient.recording {out : Outside ω} (patient : out.Patient) :
    out.recording.Patient := by
  intro position w completed
  obtain ⟨given, told, session, pool, notices, timely⟩ := patient position w.bare completed
  exact ⟨given, told, session, pool, notices, timely⟩

namespace World

/-- What each late call does to a world, and what it answers. -/
structure Closed (out : Outside ω) (w : World ω) : Prop where
  fail : ∀ position, w.fail out position = (w, w.session.lateEffect)
  receive : ∀ position payload,
    w.receive out position payload = ({ w with pool := w.pool.release payload }, .ignored)
  external : ∀ position, w.external position =
    (w, if w.session.roster.width ≤ position then
      .error (.outOfRange position w.session.roster.width) else .ok ())
  start : w.start out = ({ w with tallies := w.tallies ++ [Tally.make 0] }, w.tallies.length)
  payload : ∀ start position buffer, w.deliver out start position (.payload buffer) =
    (({ w with pool := w.pool.release buffer } : World ω).respond start, .ignored)
  failure : ∀ start position error, w.deliver out start position (.failure error) =
    ((w.account start Tally.error).respond start, w.session.lateEffect)
  stale : ∀ start position buffer, w.deliver out start position (.stale buffer) =
    let dropped : World ω := { w with pool := w.pool.release buffer }
    ((if w.session.phase = .completed then dropped.raise out (.repair position)
      else dropped).respond start, w.session.lateEffect)

variable {out : Outside ω} {w v u : World ω} {given given' : List Buffer} {told told' : List Nat}

theorem fail_late (decided : w.session.phase ≠ .pending) (position : Nat) :
    w.fail out position = (w, w.session.lateEffect) := by
  simp [fail, run, Session.fail_late decided, raise?]

theorem receive_late (decided : w.session.phase ≠ .pending) (position : Nat) (payload : Buffer) :
    w.receive out position payload = ({ w with pool := w.pool.release payload }, .ignored) := by
  simp [receive, run, Session.receive_late decided, raise?]

theorem deliver_stale_late (patient : out.Patient) (decided : w.session.phase ≠ .pending)
    (start position : Nat) (buffer : Buffer) :
    w.deliver out start position (.stale buffer) =
      let dropped : World ω := { w with pool := w.pool.release buffer }
      ((if w.session.phase = .completed then dropped.raise out (.repair position) else
        dropped).respond start, w.session.lateEffect) := by
  let dropped : World ω := { w with pool := w.pool.release buffer }
  let told := if w.session.phase = .completed then dropped.raise out (.repair position) else dropped
  have same : told.session = w.session := by
    simp only [told]
    split
    · rename_i completed
      obtain ⟨given, repairs, frozen⟩ := patient position
        { dropped with notices := dropped.notices ++ [.repair position] } completed
      exact frozen.session
    · rfl
  have failed : told.fail out position = (told, w.session.lateEffect) := by
    rw [fail_late (same ▸ decided), same]
  have wanted : w.session.wantsRepair = true ↔ w.session.phase = .completed := by
    simp [Session.wantsRepair, decided]
  simp only [deliver, wanted]
  exact congrArg (fun step : World ω × Effect =>
    (step.1.respond start, step.2)) failed

theorem closed_of_decided (patient : out.Patient) (decided : w.session.phase ≠ .pending) :
    w.Closed out where
  fail := fail_late decided
  receive := receive_late decided
  external position := by
    by_cases outside : w.session.roster.width ≤ position
    · simp [World.external, Session.external_late decided, outside]
    · simp [World.external, Session.external_late decided, outside]
  start := by simp [World.start, Session.request_late decided, sendReads]
  payload start position buffer := by simp [deliver, receive_late decided]
  failure start position error := by
    have noted : (w.account start Tally.error).session.phase ≠ .pending := decided
    simp only [deliver, fail_late noted]
    rfl
  stale := deliver_stale_late patient decided

theorem Frozen.refl (w : World ω) : w.Frozen [] [] w :=
  ⟨rfl, rfl, (List.append_nil _).symm, by simp⟩

theorem Frozen.trans (first : w.Frozen given told v) (second : v.Frozen given' told' u) :
    w.Frozen (given ++ given') (told ++ told') u := by
  refine ⟨second.session.trans first.session, ?_, ?_, fun some => ?_⟩
  · rw [second.pool, first.pool, Pool.releaseAll, Pool.releaseAll, Pool.releaseAll,
      List.foldl_append]
  · rw [second.notices, first.notices, List.map_append, List.append_assoc]
  · by_cases early : told = []
    · have late : told' ≠ [] := by simpa [early] using some
      exact first.session ▸ second.timely late
    · exact first.timely early

def Operation.IsReport : Operation → Prop
  | .start | .deliver .. | .receive .. | .fail .. | .external .. => True
  | .abort | .free | .decode .. | .view .. | .dropView => False

theorem perform_late (patient : out.Patient) (decided : w.session.phase ≠ .pending)
    {op : Operation} (late : op.IsReport) :
    ∃ given told, op.given.Sublist given ∧ w.Frozen given told (w.perform out op) := by
  have closed := closed_of_decided patient decided
  have unchanged : w.Frozen [] [] w := .refl w
  have released : ∀ b : Buffer, w.Frozen [b] [] { w with pool := w.pool.release b } := fun b =>
    ⟨rfl, rfl, (List.append_nil _).symm, by simp⟩
  cases op with
  | start =>
    refine ⟨[], [], .slnil, ?_⟩
    rw [perform, closed.start]
    exact ⟨rfl, rfl, unchanged.notices, by simp⟩
  | receive position payload =>
    refine ⟨[payload], [], .refl _, ?_⟩
    rw [perform, closed.receive]
    exact released payload
  | fail position =>
    refine ⟨[], [], .slnil, ?_⟩
    rw [perform, closed.fail]
    exact unchanged
  | external position =>
    refine ⟨[], [], .slnil, ?_⟩
    rw [perform, closed.external]
    exact unchanged
  | deliver start position answer =>
    cases answer with
    | payload buffer =>
      refine ⟨[buffer], [], .refl _, ?_⟩
      rw [perform, closed.payload]
      exact ⟨rfl, rfl, (released buffer).notices, by simp⟩
    | failure error =>
      refine ⟨[], [], .slnil, ?_⟩
      rw [perform, closed.failure]
      exact ⟨rfl, rfl, unchanged.notices, by simp⟩
    | stale buffer =>
      rw [perform, closed.stale]
      by_cases completed : w.session.phase = .completed
      · let raised : World ω :=
          { w with pool := w.pool.release buffer, notices := w.notices ++ [.repair position] }
        obtain ⟨more, repairs, answered⟩ := patient position raised completed
        have first : w.Frozen [buffer] [position] raised := ⟨rfl, rfl, rfl, fun _ => completed⟩
        have whole := first.trans answered
        refine ⟨[buffer] ++ more, [position] ++ repairs, List.sublist_append_left _ _, ?_⟩
        simp only [completed, ↓reduceIte]
        exact ⟨whole.session, whole.pool, whole.notices, whole.timely⟩
      · refine ⟨[buffer], [], .refl _, ?_⟩
        simp only [completed, ↓reduceIte]
        exact ⟨rfl, rfl, (released buffer).notices, by simp⟩
  | abort | free | decode | view | dropView => exact late.elim

theorem performAll_late (patient : out.Patient) (decided : w.session.phase ≠ .pending)
    {ops : List Operation} (late : ∀ op ∈ ops, op.IsReport) :
    ∃ given told, (ops.flatMap Operation.given).Sublist given ∧
      w.Frozen given told (performAll out ops w) := by
  induction ops generalizing w with
  | nil => exact ⟨[], [], .slnil, .refl w⟩
  | cons op rest ih =>
    obtain ⟨given, told, own, first⟩ := perform_late patient decided (late op (by simp))
    obtain ⟨given', told', others, second⟩ :=
      ih (w := w.perform out op) (first.session ▸ decided) fun op there => late op (by simp [there])
    exact ⟨given ++ given', told ++ told', own.append others, first.trans second⟩

theorem performAll_late_reads {out : Outside ω} (patient : out.Patient)
    {w : World (ω × List ReadCall)} (decided : w.session.phase ≠ .pending)
    {ops : List Operation} (late : ∀ op ∈ ops, op.IsReport) :
    (performAll out.recording ops w).reads = w.reads := by
  induction ops generalizing w with
  | nil => rfl
  | cons op rest ih =>
    obtain ⟨given, told, own, first⟩ := perform_late patient.recording decided (late op (by simp))
    have others := ih (first.session ▸ decided) fun op there => late op (by simp [there])
    refine others.trans ?_
    by_cases starts : op = .start
    · rw [starts, perform, (closed_of_decided patient.recording decided).start]
      rfl
    · exact perform_reads out w starts

end World

/-- A decided session is frozen for late answers: over any calls of those that report to it the
    session stays what it was, every payload that is handed over is released, no read is sent,
    and no notice is raised but to repair a chunk of a completed stripe. Before and after any
    such calls, `Closed` says what each further one does and answers. -/
theorem late_answers_change_nothing {out : Outside ω} (patient : out.Patient)
    {w : World (ω × List ReadCall)} (decided : w.session.phase ≠ .pending)
    {ops : List World.Operation} (late : ∀ op ∈ ops, op.IsReport) :
    let after := World.performAll out.recording ops w
    after.Closed out.recording ∧ after.reads = w.reads ∧
      ∃ given told, (ops.flatMap World.Operation.given).Sublist given ∧
        w.Frozen given told after := by
  intro after
  obtain ⟨given, told, own, frozen⟩ := World.performAll_late patient.recording decided late
  have still : after.session.phase ≠ .pending := frozen.session ▸ decided
  have closed := World.closed_of_decided patient.recording still
  have unread := World.performAll_late_reads patient decided late
  exact ⟨closed, unread, given, told, own, frozen⟩

/-- Whoever is told about the stale chunk hands in one more payload. -/
theorem late_answers_change_nothing_stale :
    let target : Target := ⟨"vol:file", 7, ⟨2, 1, 1, 0⟩, .empty, ⟨[]⟩⟩
    let s : Session := ⟨target, none, .pending, .make target.layout 7, 0, 0, none, none⟩
    let payload : Buffer := ⟨[1, 2, 3], [], 8, true⟩
    let silent : Outside Unit :=
      { notify := fun _ w => w
        send := fun _ _ _ w => (w, none)
        repair := fun _ w => (w, ⟨[], .error (.tooFewShards 0 2)⟩) }
    let out : Outside Unit := { silent with notify := fun _ w => (w.receive silent 1 payload).1 }
    let w := World.performAll out.recording [.receive 0 payload, .receive 1 payload]
      ⟨s, .make .standard, [], [], ((), [])⟩
    let ops : List World.Operation :=
      [.deliver 0 2 (.stale payload), .receive 2 payload, .fail 0, .external 2, .start]
    let after := World.performAll out.recording ops w
    w.session.phase = .completed ∧ after.session = w.session ∧ after.reads = w.reads ∧
      after.notices = w.notices ++ [.repair 2] ∧
      after.pool.counts.released = w.pool.counts.released + 3 := by
  intro target s payload silent out w ops after
  have patient : out.Patient := by
    intro position v completed
    refine ⟨[payload], [], ?_⟩
    have received : v.receive silent 1 payload =
        ({ v with pool := v.pool.release payload }, .ignored) :=
      World.receive_late (by simp [completed]) 1 payload
    simp only [out, received]
    exact ⟨rfl, rfl, (List.append_nil _).symm, by simp⟩
  have completed : w.session.phase = .completed := by decide +kernel
  have decided : w.session.phase ≠ .pending := by simp [completed]
  have late : ∀ op ∈ ops, op.IsReport := by simp [ops, World.Operation.IsReport]
  obtain ⟨_, unread, given, told, _, frozen⟩ := late_answers_change_nothing patient decided late
  exact ⟨completed, frozen.session, unread, by decide +kernel, by decide +kernel⟩

end StripeRecovery
