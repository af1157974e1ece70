import StripeRecovery.Proofs.Leases
import StripeRecovery.Proofs.Serving

/-!
A decode in its two sections, with the codec at work between them and anything else going on
meanwhile. The codec is called once at most, an abort or a failure of the codec leaves
nothing behind, and only a stripe that a decode stored is ever shown.
-/
namespace StripeRecovery
namespace Session

def Section.call? (e : Section) (s : Session) (pool : Pool) : Option DecodeCall :=
  match e with
  | .beginDecode recreate =>
    match (s.beginDecode pool recreate).answer with
    | .inr call => some call
    | .inl _ => none
  | _ => none

def calls : List Section → Session → Pool → List DecodeCall
  | [], _, _ => []
  | e :: rest, s, pool =>
    (e.call? s pool).toList ++ calls rest (e.step s pool).session (e.step s pool).pool

def Section.ends : Section → Bool
  | .finishDecode _ => true
  | _ => false

/-- Whoever ends a decode has called the codec for it: in no part of a run do more decodes end
    than calls were made. -/
def Paired (history : List Section) (s : Session) (pool : Pool) : Prop :=
  ∀ before after, history = before ++ after →
    before.countP Section.ends ≤ (calls before s pool).length

def Past (s : Session) : Prop := s.phase ≠ .pending ∧ s.phase ≠ .completed

variable {s : Session} {pool : Pool}

theorem Past.change {after : Session} {e : Section} {told : List Notice} (past : s.Past)
    (change : Change s e after told) : after.Past := by
  cases change with
  | requested pending => exact absurd pending past.1
  | external pending => exact absurd pending past.1
  | failed pending => exact absurd pending past.1
  | received pending => exact absurd pending past.1
  | completed pending => exact absurd pending past.1
  | lost pending => exact absurd pending past.1
  | begun completed => exact absurd completed past.2
  | aborted => exact ⟨by simp, by simp⟩
  | stopped => exact ⟨by simp, by simp⟩
  | stored => exact ⟨by simp, by simp⟩
  | _ => exact past

theorem call?_cases (e : Section) (s : Session) (pool : Pool) :
    e.call? s pool = none ∨ ∃ call recreate, e.call? s pool = some call ∧ e = .beginDecode recreate ∧
      s.phase = .completed ∧ (e.step s pool).session.phase = .decoding := by
  cases e with
  | beginDecode recreate =>
    cases answered : (s.beginDecode pool recreate).answer with
    | inl answer => exact .inl (by simp [Section.call?, answered])
    | inr call =>
      obtain ⟨completed, _, buffers, _, begun⟩ := beginDecode_call answered
      refine .inr ⟨call, recreate, by simp [Section.call?, answered], rfl, completed, ?_⟩
      simp only [Section.step, begun]
  | _ => exact .inl rfl

theorem calls_past (past : s.Past) (history : List Section) (pool : Pool) :
    calls history s pool = [] := by
  induction history generalizing s pool with
  | nil => rfl
  | cons e rest ih =>
    have others := ih (past.change (s.step_change pool e)) (e.step s pool).pool
    rcases call?_cases e s pool with none | ⟨_, _, _, _, completed, _⟩
    · rw [calls, none, others]
      rfl
    · exact absurd completed past.2

theorem calls_length_le (history : List Section) (s : Session) (pool : Pool) :
    (calls history s pool).length ≤ 1 := by
  induction history generalizing s pool with
  | nil => exact Nat.zero_le 1
  | cons e rest ih =>
    rcases call?_cases e s pool with none | ⟨call, _, called, _, _, decoding⟩
    · rw [calls, none]
      exact ih _ _
    · have past : (e.step s pool).session.Past := ⟨by simp [decoding], by simp [decoding]⟩
      rw [calls, called, calls_past past]
      exact Nat.le_refl 1

theorem Paired.ends_none {history : List Section} (paired : Paired history s pool)
    (past : s.Past) : ∀ e ∈ history, ∀ attempt, e ≠ .finishDecode attempt := by
  have ended := paired history [] (List.append_nil _).symm
  rw [calls_past past, List.length_nil, Nat.le_zero, List.countP_eq_zero] at ended
  rintro e member attempt rfl
  exact ended _ member rfl

theorem Paired.of_none {history : List Section}
    (others : ∀ e ∈ history, ∀ attempt, e ≠ .finishDecode attempt) : Paired history s pool := by
  rintro before after rfl
  have none : before.countP Section.ends = 0 := by
    refine List.countP_eq_zero.mpr fun e member => ?_
    have other := others e (List.mem_append_left after member)
    cases e with
    | finishDecode attempt => exact absurd rfl (other attempt)
    | _ => simp [Section.ends]
  omega

theorem Working.past {job : DecodeJob} {target : Target} (working : Working job target s) :
    s.Past := by
  rcases working.phase with h | h <;> simp [Past, h]

theorem Working.phase_same {job : DecodeJob} {target : Target} {after : Session} {e : Section}
    {told : List Notice} (working : Working job target s)
    (other : ∀ attempt, e ≠ .finishDecode attempt) (calm : e ≠ .abort) (change : Change s e after told) : after.phase = s.phase := by
  cases change with
  | lost pending => exact absurd pending working.past.1
  | completed pending => exact absurd pending working.past.1
  | begun completed => exact absurd completed working.past.2
  | aborted => exact absurd rfl calm
  | stopped => exact absurd rfl (other _)
  | stored => exact absurd rfl (other _)
  | _ => rfl

theorem Working.play {job : DecodeJob} {target : Target} (working : Working job target s)
    {between : List Section} (others : ∀ e ∈ between, ∀ attempt, e ≠ .finishDecode attempt) :
    Working job target (Session.play between s pool).session ∧
      ((Session.play between s pool).session.phase = .aborted ↔
        s.phase = .aborted ∨ .abort ∈ between) := by
  induction between generalizing s pool with
  | nil => exact ⟨working, by simp [Session.play]⟩
  | cons e rest ih =>
    have change := s.step_change pool e
    have other := others e (by simp)
    obtain ⟨still, aborts⟩ := ih (working.change other change)
      fun d there => others d (by simp [there])
    refine ⟨still, aborts.trans ?_⟩
    by_cases abort : e = .abort
    · subst abort
      have aborted : (Section.abort.step s pool).session.phase = .aborted := by
        obtain ⟨lease, _, freed⟩ := free_session { s with phase := .aborted } pool
        simp [Section.step, Session.abort, freed]
      simp [aborted]
    · rw [working.phase_same other abort change, List.mem_cons]
      simp [Ne.symm abort]

theorem beginDecode_completed (completed : s.phase = .completed) (pool : Pool) (recreate : Bool) :
    ∃ job, (s.beginDecode pool recreate).answer = .inr (s.callOf recreate) ∧
      (s.beginDecode pool recreate).session =
        { s with phase := .decoding, roster := s.roster.takePayloads.1, job := some job } := by
  have bytes := workingBuffers_bytes s.layout.chunkSize s.offered pool
  simp only [beginDecode, completed, callOf, ← bytes]
  exact ⟨_, rfl, rfl⟩

/-- How a decode ends that was begun with the buffers of `job`. -/
structure Ended (stripe : Nat) (job : DecodeJob) (aborted : Prop) (attempt : Attempt RepairCount)
    (pool : Pool) (done : Step (Except Error Bool)) : Prop where
  failed : ∀ e, attempt.result = .error e → done.answer = .error (nameStripe stripe e)
  stopped : ∀ count, attempt.result = .ok count → aborted → done.answer = .error (.aborted stripe)
  dropped : (∃ e, attempt.result = .error e) ∨ aborted →
    done.session.phase = .aborted ∧ done.session.lease = none ∧ done.session.possessed = [] ∧
      done.pool = pool.releaseAll (putBack job.buffers attempt.shards) ∧
      done.pool.counts.released = pool.counts.released + tied job.buffers
  stored : ∀ count, attempt.result = .ok count → ¬ aborted →
    done.answer = .ok true ∧ done.session.phase = .decoded ∧ done.pool = pool ∧
      ∃ filled, done.session.lease = some ⟨⟨putBack job.buffers attempt.shards, filled⟩, true, 0⟩

theorem Working.ends {job : DecodeJob} {target : Target} (working : Working job target s)
    (owned : s.Owned) (staged : s.Staged) (pool : Pool) (attempt : Attempt RepairCount) :
    Ended target.stripe job (s.phase = .aborted) attempt pool (s.finishDecode pool attempt) := by
  have stripe : s.stripe = target.stripe := congrArg Target.stripe working.target
  have lease : s.lease = none := staged.working (by simp [working.job])
  have bare : s.roster.buffers = [] :=
    buffers_bare (owned.past working.past.1 working.past.2)
  have returned : (pool.releaseAll (putBack job.buffers attempt.shards)).counts.released =
      pool.counts.released + tied job.buffers := by
    rw [Pool.releaseAll_counts, putBack_tied]
  have nothing : ∀ phase, possessed { s with job := none, phase := phase } = [] := by
    intro phase
    simp [possessed, inDecode, inStripe, bare, lease]
  rw [← stripe]
  cases result : attempt.result with
  | error e =>
    simp only [finishDecode, working.job, result]
    refine ⟨?_, by simp [result], fun _ => ⟨rfl, lease, nothing _, rfl, returned⟩, by simp [result]⟩
    rintro e' same
    obtain rfl := Except.error.inj (result.symm.trans same)
    rfl
  | ok count =>
    by_cases aborted : s.phase = .aborted
    · simp only [finishDecode, working.job, result, aborted, ↓reduceIte]
      exact ⟨by simp [result], fun _ _ _ => rfl,
        fun _ => ⟨rfl, lease, nothing _, rfl, returned⟩, by simp⟩
    · simp only [finishDecode, working.job, result, aborted, ↓reduceIte]
      exact ⟨by simp [result], by simp, by simp [result],
        fun _ _ _ => ⟨rfl, rfl, rfl, _, rfl⟩⟩

theorem view_held {position : Nat} {b : Buffer} (viewed : (s.view position).2 = .ok b) :
    s.phase = .decoded ∧ ∃ l, s.lease = some l ∧ l.held = true := by
  unfold view at viewed
  split at viewed
  · simp at viewed
  · split at viewed
    · simp at viewed
    · simp at viewed
    · simp at viewed
    · simp at viewed
    · rename_i decoded
      split at viewed
      · rename_i l found
        split at viewed
        · rename_i held
          exact ⟨decoded, l, found, held⟩
        · simp at viewed
      · simp at viewed

theorem Change.held_before {after : Session} {e : Section} {told : List Notice}
    (change : Change s e after told) (other : ∀ attempt, e ≠ .finishDecode attempt) {l : Lease}
    (lease : after.lease = some l) (held : l.held = true) :
    ∃ l₀, s.lease = some l₀ ∧ l₀.held = true := by
  have given {before now : Option Lease} (released : Released before now) (same : now = some l) :
      False := by
    simpa [held] using released.unheld l same
  cases change with
  | lost pending may many released => exact (given released lease).elim
  | aborted released => exact (given released lease).elim
  | freed released => exact (given released lease).elim
  | viewed found =>
    obtain rfl := Option.some.inj lease
    exact ⟨_, found, held⟩
  | unviewed found =>
    obtain rfl := Option.some.inj lease
    exact ⟨_, found, held⟩
  | unleased => simp at lease
  | stopped => exact absurd rfl (other _)
  | stored => exact absurd rfl (other _)
  | _ => exact ⟨l, lease, held⟩

theorem step_held {e : Section} {l : Lease} (lease : (e.step s pool).session.lease = some l)
    (held : l.held = true) :
    ((∃ l₀, s.lease = some l₀ ∧ l₀.held = true) ∧ e ≠ .abort ∧ e ≠ .free) ∨
      ∃ attempt, e = .finishDecode attempt ∧ (s.finishDecode pool attempt).answer = .ok true := by
  have change := s.step_change pool e
  cases e with
  | abort =>
    have gone := (Disowned.of_free { s with phase := .aborted } pool).unheld l lease
    simp [held] at gone
  | free =>
    have gone := (Disowned.of_free s pool).unheld l lease
    simp [held] at gone
  | finishDecode attempt =>
    have kept (same : s.lease = some l) : (∃ l₀, s.lease = some l₀ ∧ l₀.held = true) ∧
        Section.finishDecode attempt ≠ .abort ∧ Section.finishDecode attempt ≠ .free :=
      ⟨⟨l, same, held⟩, by simp, by simp⟩
    cases found : s.job with
    | none => exact .inl (kept (by simpa [Section.step, finishDecode, found] using lease))
    | some job =>
      cases result : attempt.result with
      | error e =>
        exact .inl (kept (by simpa [Section.step, finishDecode, found, result] using lease))
      | ok count =>
        by_cases aborted : s.phase = .aborted
        · refine .inl (kept ?_)
          simpa [Section.step, finishDecode, found, result, aborted] using lease
        · exact .inr ⟨attempt, rfl, by simp [finishDecode, found, result, aborted]⟩
  | _ => exact .inl ⟨change.held_before (by simp) lease held, by simp, by simp⟩

/-- What a session holds was stored by a decode, and it was neither aborted nor freed since. -/
theorem play_held (lease : s.lease = none) (history : List Section) (pool : Pool) {l : Lease}
    (found : (Session.play history s pool).session.lease = some l) (held : l.held = true) :
    ∃ before attempt after, history = before ++ .finishDecode attempt :: after ∧
      (let turn := Session.play before s pool
       (turn.session.finishDecode turn.pool attempt).answer = .ok true) ∧
      ∀ e ∈ after, e ≠ .abort ∧ e ≠ .free := by
  -- From the end of the run: its last section stored the stripe or left it alone.
  induction history using List.reverseRecOn generalizing l with
  | nil => simp [Session.play, lease] at found
  | append_singleton history e ih =>
    rw [play_append] at found
    rcases step_held found held with ⟨⟨l₀, found₀, held₀⟩, calm⟩ | ⟨attempt, rfl, did⟩
    · obtain ⟨before, attempt, after, rfl, did, quiet⟩ := ih found₀ held₀
      refine ⟨before, attempt, after ++ [e], by simp, did, fun d member => ?_⟩
      rcases List.mem_append.mp member with there | last
      · exact quiet d there
      · rw [List.mem_singleton.mp last]
        exact calm
    · exact ⟨history, attempt, [], rfl, did, by simp⟩

end Session

namespace World
variable {ω : Type}

theorem decode_late (out : Outside ω) (recreate : Bool) (w : World ω)
    (late : w.session.phase = .decoding ∨ w.session.phase = .decoded) :
    w.decode out recreate = (w, .ok false) := by
  rcases late with h | h <;> simp [decode, run, Session.beginDecode, h]

theorem decode_pending (out : Outside ω) (recreate : Bool) (w : World ω)
    (pending : w.session.phase = .pending) :
    w.decode out recreate =
      (w, .error (.tooFewShards w.session.successes w.session.layout.data)) := by
  simp [decode, run, Session.beginDecode, pending]

theorem decode_aborted (out : Outside ω) (recreate : Bool) (w : World ω)
    (aborted : w.session.phase = .aborted) :
    w.decode out recreate = (w, .error (.aborted w.session.stripe)) := by
  simp [decode, run, Session.beginDecode, aborted]

def begun (w : World ω) (recreate : Bool) : World ω :=
  (w.run fun s pool => s.beginDecode pool recreate).1

theorem decode_completed (out : Outside ω) (recreate : Bool) (w : World ω)
    (completed : w.session.phase = .completed) :
    let worked := out.repair (w.session.callOf recreate) (w.begun recreate)
    w.decode out recreate = worked.1.run fun s pool => s.finishDecode pool worked.2 := by
  intro worked
  obtain ⟨job, answer, _⟩ := Session.beginDecode_completed completed w.pool recreate
  simp only [decode, run, answer]
  rfl

theorem decode_ended (out : Outside ω) (recreate : Bool) (w : World ω) (owned : w.session.Owned)
    (staged : w.session.Staged) (completed : w.session.phase = .completed)
    {between : List Session.Section} :
    let v := w.begun recreate
    let worked := out.repair (w.session.callOf recreate) v
    v.Evolves between worked.1 → Session.Paired between v.session v.pool →
    let ended := w.decode out recreate
    ∃ job, v.session.job = some job ∧ v.session.possessed = job.buffers ∧
      Session.Ended w.session.stripe job (.abort ∈ between) worked.2 worked.1.pool
        ⟨ended.1.session, ended.1.pool, ended.2⟩ := by
  intro v worked evolves paired ended
  obtain ⟨job, _, began⟩ := Session.beginDecode_completed completed w.pool recreate
  have began : v.session = _ := began
  have working : Session.Working job w.session.target v.session := by
    rw [began]
    exact ⟨rfl, rfl, .inl rfl⟩
  have notYet : v.session.phase ≠ .aborted := by
    rw [began]
    simp
  have takes : v.session.possessed = job.buffers := by
    have lease := (staged.early (.inr completed)).2
    rw [began]
    simp [Session.possessed, Session.inDecode, Session.inStripe, lease,
      Roster.buffers_takePayloads]
  -- The job of this decode is still there when the codec is done, whatever others did.
  obtain ⟨still, aborts⟩ := working.play (paired.ends_none working.past)
  obtain ⟨ownedThen, stagedThen⟩ := evolves.keeps Session.orderly_step
    (Session.orderly_step (.beginDecode recreate) w.session w.pool ⟨owned, staged⟩)
  rw [← evolves.session, or_iff_right notYet] at aborts
  rw [← evolves.session] at still
  have done := still.ends ownedThen stagedThen worked.1.pool worked.2
  rw [propext aborts] at done
  have same : ended = worked.1.run fun s pool => s.finishDecode pool worked.2 :=
    w.decode_completed out recreate completed
  rw [same]
  exact ⟨job, working.job, takes, done⟩

end World

/-- The codec is called once at most in the life of a session. A decode that finds the session
    undecided, given up, or decoded by another says so and changes nothing. One that calls the
    codec takes every buffer of the session for it; while the codec works, others may do anything,
    also try to decode. If they abort the session or the codec fails, the decode fails too and
    returns all its buffers; otherwise it stores the stripe. A chunk is shown only of a stripe
    that a decode stored, with neither an abort nor a release since. -/
theorem decode_runs_once {target : Target} {data parity : Nat} {settings : Settings} {s : Session}
    (made : Session.make target data parity settings = .ok s) :
    (∀ (history : List Session.Section) (pool : Pool),
      (Session.calls history s pool).length ≤ 1) ∧
    (∀ {ω : Type} (out : Outside ω) (recreate : Bool) (w : World ω),
      (w.session.phase = .decoding ∨ w.session.phase = .decoded →
        w.decode out recreate = (w, .ok false)) ∧
      (w.session.phase = .pending → w.decode out recreate =
        (w, .error (.tooFewShards w.session.successes w.session.layout.data))) ∧
      (w.session.phase = .aborted →
        w.decode out recreate = (w, .error (.aborted w.session.stripe)))) ∧
    (∀ {ω : Type} (out : Outside ω) (recreate : Bool) (w₀ w : World ω)
      (history between : List Session.Section), w₀.session = s → w₀.Evolves history w →
      w.session.phase = .completed →
      let v := w.begun recreate
      let worked := out.repair (w.session.callOf recreate) v
      v.Evolves between worked.1 → Session.Paired between v.session v.pool →
      let ended := w.decode out recreate
      ∃ job, v.session.job = some job ∧ v.session.possessed = job.buffers ∧
        Session.Ended target.stripe job (.abort ∈ between) worked.2 worked.1.pool
          ⟨ended.1.session, ended.1.pool, ended.2⟩) ∧
    ∀ (history : List Session.Section) (pool : Pool) (position : Nat) (b : Buffer),
      let now := (Session.play history s pool).session
      (now.view position).2 = .ok b → now.phase = .decoded ∧ now.job = none ∧
        ∃ before attempt after, history = before ++ .finishDecode attempt :: after ∧
          (let turn := Session.play before s pool
           (turn.session.finishDecode turn.pool attempt).answer = .ok true) ∧
          ∀ e ∈ after, e ≠ .abort ∧ e ≠ .free := by
  obtain ⟨_, _, fresh⟩ := Session.make_ok made
  have start := Session.orderly_make made
  refine ⟨fun history pool => Session.calls_length_le history s pool, ?_, ?_, ?_⟩
  · intro ω out recreate w
    exact ⟨w.decode_late out recreate, w.decode_pending out recreate, w.decode_aborted out recreate⟩
  · intro ω out recreate w₀ w history between same ran completed v worked evolves paired ended
    obtain ⟨owned, staged⟩ := ran.keeps Session.orderly_step (same ▸ start)
    have recovers : w.session.target = target := by rw [ran.target, same, fresh]
    rw [← recovers]
    exact World.decode_ended out recreate w owned staged completed evolves paired
  · intro history pool position b now viewed
    obtain ⟨decoded, l, lease, held⟩ := Session.view_held viewed
    obtain ⟨_, staged⟩ := Session.play_keeps Session.orderly_step history start pool
    have noLease : s.lease = none := by rw [fresh]
    exact ⟨decoded, (staged.lease (by simp [now, lease])).1,
      Session.play_held noLease history pool lease held⟩

/-- While the codec works another decode is tried, and then the session is aborted. -/
theorem decode_runs_once_aborted :
    let target : Target := ⟨"vol:file", 42, ⟨1, 1, 1, 0⟩, .empty, ⟨[]⟩⟩
    let s : Session := ⟨target, none, .pending, .make target.layout 42, 0, 0, none, none⟩
    let idle : Outside Unit :=
      { notify := fun _ w => w
        send := fun _ _ _ w => (w, none)
        repair := fun call w => (w, ⟨call.shards, .ok ⟨0, 1⟩⟩) }
    let out : Outside Unit :=
      { idle with
        repair := fun call w => ((w.decode idle false).1.abort, ⟨call.shards, .ok ⟨0, 1⟩⟩) }
    let w₀ : World Unit := ⟨s, .make .standard, [], [], ()⟩
    let w := (w₀.receive out 0 (.unpooled [7] 1)).1
    let ended := w.decode out true
    w₀.Evolves [.receive 0 (.unpooled [7] 1)] w ∧ ended.2 = .error (.aborted 42) ∧
      ended.1.session.phase = .aborted ∧ ended.1.session.possessed = [] := by
  intro target s idle out w₀ w ended
  have made : Session.make target 1 1 .standard = .ok s := by decide +kernel
  have ran : w₀.Evolves [.receive 0 (.unpooled [7] 1)] w :=
    .one (.receive 0 (.unpooled [7] 1)) rfl rfl rfl
  have completed : w.session.phase = .completed := by decide +kernel
  obtain ⟨job, _, began⟩ := Session.beginDecode_completed completed w.pool true
  clear_value w
  have decoding : (w.begun true).session.phase = .decoding := by
    rw [show (w.begun true).session = _ from began]
  have between : (w.begun true).Evolves [.beginDecode false, .abort]
      ((w.begun true).decode idle false).1.abort := by
    rw [World.decode_late idle false (w.begun true) (.inl decoding)]
    have other : (w.begun true).Evolves [.beginDecode false] (w.begun true) := by
      refine .one (.beginDecode false) ?_ ?_ ?_
      all_goals simp [Session.Section.step, Session.beginDecode, decoding]
    exact other.trans (.one .abort rfl rfl (List.append_nil _).symm)
  have paired : Session.Paired [.beginDecode false, .abort] (w.begun true).session
      (w.begun true).pool := .of_none (by simp)
  obtain ⟨job, _, _, outcome⟩ := (decode_runs_once made).2.2.1 out true w₀ w _ _ rfl ran completed
    between paired
  have aborted : Session.Section.abort ∈ [Session.Section.beginDecode false, .abort] := by simp
  obtain ⟨phase, _, nothing, _, _⟩ := outcome.dropped (.inr aborted)
  exact ⟨ran, outcome.stopped _ rfl aborted, phase, nothing⟩

end StripeRecovery
