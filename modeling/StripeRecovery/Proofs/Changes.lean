import StripeRecovery.Proofs.Roster
import StripeRecovery.Proofs.Sections

/-!
All that a section can do to a session, case by case. Whatever is to be shown of every
section is shown of these cases.
-/
namespace StripeRecovery
namespace Session

def reportedState : Bool → ChunkStatus
  | true => .complete
  | false => .failed

/-- The session itself no longer holds its stripe; views may still refer to it. -/
structure Released (before after : Option Lease) : Prop where
  unheld : ∀ l, after = some l → l.held = false
  none_stays : before = none → after = none

/-- What a section makes of a session, and the notices it makes due. -/
inductive Change (s : Session) : Section → Session → List Notice → Prop where
  | still {e : Section} {told : List Notice}
      (refused : ∀ position good, e.report? = some (position, good) → s.phase = .pending →
        ¬ s.roster.MayMove position (reportedState good))
      (repairs : told.filter (·.isTerminal) = []) : Change s e s told
  | requested (pending : s.phase = .pending) :
      Change s .request { s with roster := s.roster.requested } []
  | external {position : Nat} (pending : s.phase = .pending)
      (may : s.roster.MayMove position .external) :
      Change s (.external position) { s with roster := s.roster.moved position .external } []
  | failed {position : Nat} (pending : s.phase = .pending)
      (may : s.roster.MayMove position .failed) (few : s.failures + 1 ≤ s.layout.parity) :
      Change s (.fail position)
        { s with roster := s.roster.moved position .failed, failures := s.failures + 1 } []
  | lost {position : Nat} {lease : Option Lease} (pending : s.phase = .pending)
      (may : s.roster.MayMove position .failed) (many : s.layout.parity < s.failures + 1)
      (released : Released s.lease lease) :
      Change s (.fail position)
        { s with roster := (s.roster.moved position .failed).withoutBuffers,
                 failures := s.failures + 1, phase := .aborted, lease := lease }
        [.unrecoverable s.stripe]
  | received {position : Nat} {payload : Buffer} (pending : s.phase = .pending)
      (may : s.roster.MayMove position .complete) (more : s.successes + 1 < s.layout.data) :
      Change s (.receive position payload)
        { s with roster := s.roster.loaded position payload, successes := s.successes + 1 } []
  | completed {position : Nat} {payload : Buffer} (pending : s.phase = .pending)
      (may : s.roster.MayMove position .complete) (enough : s.layout.data ≤ s.successes + 1) :
      Change s (.receive position payload)
        { s with roster := s.roster.loaded position payload, successes := s.successes + 1,
                 phase := .completed }
        [.recoverable s.stripe]
  | aborted {lease : Option Lease} (released : Released s.lease lease) :
      Change s .abort
        { s with phase := .aborted, roster := s.roster.withoutBuffers, lease := lease } []
  | freed {lease : Option Lease} (released : Released s.lease lease) :
      Change s .free { s with roster := s.roster.withoutBuffers, lease := lease } []
  | viewed {position : Nat} {l : Lease} (found : s.lease = some l) :
      Change s (.view position) { s with lease := some { l with views := l.views + 1 } } []
  | unviewed {l : Lease} (found : s.lease = some l) :
      Change s .dropView { s with lease := some { l with views := l.views - 1 } } []
  | unleased {l : Lease} (found : s.lease = some l) (unheld : l.held = false) :
      Change s .dropView { s with lease := none } []
  | begun {recreate : Bool} {job : DecodeJob} (completed : s.phase = .completed) :
      Change s (.beginDecode recreate)
        { s with phase := .decoding, roster := s.roster.takePayloads.1, job := some job } []
  | stopped {attempt : Attempt RepairCount} (working : s.job ≠ none) :
      Change s (.finishDecode attempt) { s with job := none, phase := .aborted } []
  | stored {attempt : Attempt RepairCount} {stripe : RebuiltStripe} (working : s.job ≠ none)
      (lives : s.phase ≠ .aborted) :
      Change s (.finishDecode attempt)
        { s with job := none, phase := .decoded, lease := some ⟨stripe, true, 0⟩ } []

variable (s : Session) (pool : Pool)

theorem Change.silent {e : Section} (reports : e.report? = none) : Change s e s [] :=
  .still (fun position good reported => by simp [reports] at reported) rfl

theorem free_session : ∃ lease, Released s.lease lease ∧
    (s.free pool).session = { s with roster := s.roster.withoutBuffers, lease := lease } := by
  unfold free giveUpStripe
  cases found : s.lease with
  | none => exact ⟨none, ⟨by simp, by simp⟩, by simp [← found]⟩
  | some l =>
    by_cases held : l.held = true
    · by_cases viewless : l.views = 0
      · exact ⟨none, ⟨by simp, by simp⟩, by simp [held, viewless]⟩
      · exact ⟨some { l with held := false }, ⟨by simp, by simp⟩, by simp [held, viewless]⟩
    · exact ⟨some l, ⟨by simpa using held, by simp⟩, by simp [held, ← found]⟩

theorem fail_change (position : Nat) : Change s (.fail position) (s.fail pool position).session
    (s.fail pool position).answer.notice.toList := by
  -- Past the decision nothing moves, so only a pending session can count the report.
  have late : s.phase ≠ .pending → Change s (.fail position) s [] := fun past =>
    .still (fun _ _ _ pending => absurd pending past) rfl
  unfold fail
  cases phase : s.phase with
  | pending =>
    rcases s.roster.move_cases position .failed with ⟨c, found, can, done⟩ | ⟨cannot, e, failed⟩
    · have may : s.roster.MayMove position .failed := ⟨c, found, can⟩
      by_cases few : s.failures + 1 ≤ s.layout.parity
      · have change := Change.failed phase may few
        simp only [done, few, ↓reduceIte, Option.toList]
        rwa [phase] at change
      · obtain ⟨lease, released, freed⟩ := free_session { s with
          roster := s.roster.moved position .failed, failures := s.failures + 1,
          phase := .aborted } pool
        simp only [done, few, ↓reduceIte, Option.toList]
        rw [freed]
        exact .lost phase may (by omega) released
    · simp only [failed, Option.toList]
      refine .still (fun other good reported _ => ?_) rfl
      simp only [Section.report?, Option.some.injEq, Prod.mk.injEq] at reported
      rw [← reported.1, ← reported.2]
      exact cannot
  | completed => exact late (by simp [phase])
  | decoding => exact late (by simp [phase])
  | decoded => exact late (by simp [phase])
  | aborted => exact late (by simp [phase])

theorem receive_cases (position : Nat) (payload : Buffer) :
    (s.phase = .pending ∧ s.roster.MayMove position .complete ∧ s.successes + 1 < s.layout.data ∧
      s.receive pool position payload =
        ⟨{ s with roster := s.roster.loaded position payload, successes := s.successes + 1 }, pool,
          ⟨.pending, none⟩⟩) ∨
    (s.phase = .pending ∧ s.roster.MayMove position .complete ∧ s.layout.data ≤ s.successes + 1 ∧
      s.receive pool position payload =
        ⟨{ s with roster := s.roster.loaded position payload, successes := s.successes + 1,
                  phase := .completed }, pool,
          ⟨.completed, some (.recoverable s.stripe)⟩⟩) ∨
    ((s.phase = .pending → ¬ s.roster.MayMove position .complete) ∧
      s.receive pool position payload = ⟨s, pool.release payload, ⟨.ignored, none⟩⟩) := by
  unfold receive
  by_cases pending : s.phase = .pending
  · rcases s.roster.complete_cases position payload with ⟨c, found, can, done⟩ | ⟨cannot, e, failed⟩
    · have may : s.roster.MayMove position .complete := ⟨c, found, can⟩
      by_cases more : s.successes + 1 < s.layout.data
      · exact .inl ⟨pending, may, more, by simp [done, more, pending]⟩
      · exact .inr (.inl ⟨pending, may, by omega, by simp [done, more, pending]⟩)
    · exact .inr (.inr ⟨fun _ => cannot, by simp [failed, pending]⟩)
  · exact .inr (.inr ⟨fun h => absurd h pending, by simp [pending]⟩)

theorem receive_change (position : Nat) (payload : Buffer) :
    Change s (.receive position payload) (s.receive pool position payload).session
      (s.receive pool position payload).answer.notice.toList := by
  rcases s.receive_cases pool position payload with
    ⟨pending, may, more, done⟩ | ⟨pending, may, enough, done⟩ | ⟨cannot, done⟩
  · rw [done]
    exact .received pending may more
  · rw [done]
    exact .completed pending may enough
  · rw [done]
    refine .still (fun other good reported pending => ?_) rfl
    simp only [Section.report?, Option.some.injEq, Prod.mk.injEq] at reported
    rw [← reported.1, ← reported.2]
    exact cannot pending

theorem external_change (position : Nat) :
    Change s (.external position) ((Section.external position).step s pool).session
      ((Section.external position).step s pool).answer := by
  unfold Section.step external
  by_cases outside : s.roster.width ≤ position
  · simp only [outside, ↓reduceIte]
    exact .silent s rfl
  · by_cases pending : s.phase = .pending
    · rcases s.roster.move_cases position .external with ⟨c, found, can, done⟩ | ⟨_, e, failed⟩
      · simp only [outside, pending, done, ↓reduceIte]
        rw [← pending]
        exact .external pending ⟨c, found, can⟩
      · simp only [outside, pending, failed, ↓reduceIte]
        exact .silent s rfl
    · simp only [outside, pending, ↓reduceIte]
      exact .silent s rfl

theorem view_change (position : Nat) : Change s (.view position) (s.view position).1 [] := by
  have silent : Change s (.view position) s [] := .silent s rfl
  unfold view
  split
  · exact silent
  · split
    · exact silent
    · exact silent
    · exact silent
    · exact silent
    · split
      · rename_i l found
        split
        · split
          · exact .viewed found
          · exact silent
        · exact silent
      · exact silent

theorem dropView_change : Change s .dropView (s.dropView pool).session [] := by
  unfold dropView
  cases found : s.lease with
  | none => exact .silent s rfl
  | some l =>
    by_cases last : l.views ≤ 1 ∧ !l.held
    · simp only [last, and_self, ↓reduceIte]
      exact .unleased found (by simpa using last.2)
    · simp only [last, ↓reduceIte]
      exact .unviewed found

theorem beginDecode_change (recreate : Bool) :
    Change s (.beginDecode recreate) (s.beginDecode pool recreate).session [] := by
  unfold beginDecode
  cases phase : s.phase with
  | completed => exact .begun phase
  | pending => exact .silent s rfl
  | decoding => exact .silent s rfl
  | decoded => exact .silent s rfl
  | aborted => exact .silent s rfl

theorem finishDecode_change (attempt : Attempt RepairCount) :
    Change s (.finishDecode attempt) (s.finishDecode pool attempt).session [] := by
  unfold finishDecode
  cases found : s.job with
  | none => exact .silent s rfl
  | some job =>
    have working : s.job ≠ none := by simp [found]
    cases attempt.result with
    | error e => exact .stopped working
    | ok count =>
      by_cases aborted : s.phase = .aborted
      · have change : Change s (.finishDecode attempt) _ [] := .stopped working
        rw [← aborted] at change
        simpa only [aborted, ↓reduceIte] using change
      · simp only [aborted, ↓reduceIte]
        exact .stored working aborted

theorem step_change (e : Section) : Change s e (e.step s pool).session (e.step s pool).answer := by
  cases e with
  | request =>
    simp only [Section.step, request]
    split
    · exact .requested ‹_›
    · exact .silent s rfl
  | fail position => exact s.fail_change pool position
  | receive position payload => exact s.receive_change pool position payload
  | external position => exact s.external_change pool position
  | repair position =>
    refine .still (fun _ _ reported => by simp [Section.report?] at reported) ?_
    simp only [Section.step]
    split <;> simp [Notice.isTerminal]
  | abort =>
    obtain ⟨lease, released, freed⟩ := free_session { s with phase := .aborted } pool
    simp only [Section.step, abort, freed]
    exact .aborted released
  | free =>
    obtain ⟨lease, released, freed⟩ := s.free_session pool
    simp only [Section.step, freed]
    exact .freed released
  | view position => exact s.view_change position
  | dropView => exact s.dropView_change pool
  | beginDecode recreate => exact s.beginDecode_change pool recreate
  | finishDecode attempt => exact s.finishDecode_change pool attempt
  | elsewhere after => exact .silent s rfl

theorem Change.target {s after : Session} {e : Section} {told : List Notice}
    (change : Change s e after told) : after.target = s.target := by
  cases change <;> rfl

theorem play_target (history : List Section) : (play history s pool).session.target = s.target :=
  play_keeps (fun e s' pool' same => (step_change s' pool' e).target.trans same) history rfl pool

end Session
end StripeRecovery
