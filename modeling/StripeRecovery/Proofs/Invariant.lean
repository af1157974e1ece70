import StripeRecovery.Proofs.Changes

/-!
What holds of a session in every state: its counters are those of its chunks, the phase
follows from the counters, and buffers are owned only where they may be.
-/
namespace StripeRecovery
namespace Session

/-- The counters, the chunks and the phase agree. -/
structure Counted (s : Session) : Prop where
  data_pos : 0 < s.layout.data
  width : s.roster.chunks.length = s.layout.width
  successes_eq : s.successes = s.roster.countOf .complete
  failures_eq : s.phase = .pending ∨ s.phase = .completed → s.failures = s.roster.countOf .failed
  undecided : s.phase = .pending → s.successes < s.layout.data ∧ s.failures ≤ s.layout.parity
  decided : s.phase = .completed ∨ s.phase = .decoding ∨ s.phase = .decoded →
    s.successes = s.layout.data ∧ s.failures ≤ s.layout.parity
  given_up : s.phase = .aborted → s.successes ≤ s.layout.data ∧
    s.failures ≤ s.layout.parity + 1 ∧ s.successes + s.failures ≤ s.layout.width
  not_rebuilt : s.phase = .pending ∨ s.phase = .completed →
    ∀ c ∈ s.roster.chunks, c.state ≠ .rebuilt

/-- Only complete chunks own buffers, and only before a decode. -/
structure Owned (s : Session) : Prop where
  complete : ∀ c ∈ s.roster.chunks, c.buffer ≠ none → c.state = .complete
  phase : ∀ c ∈ s.roster.chunks, c.buffer ≠ none → s.phase = .pending ∨ s.phase = .completed

/-- A decode is under way only in its phase or after an abort, and its stripe comes after. -/
structure Staged (s : Session) : Prop where
  job : s.job ≠ none → s.phase = .decoding ∨ s.phase = .aborted
  lease : s.lease ≠ none → s.job = none ∧ (s.phase = .decoded ∨ s.phase = .aborted)
  held : ∀ l, s.lease = some l → l.held = true → s.phase = .decoded

structure Invariant (s : Session) : Prop where
  counted : s.Counted
  owned : s.Owned
  staged : s.Staged

variable {s : Session}

theorem Counted.bounds (counted : s.Counted) : s.successes ≤ s.layout.data ∧
    s.failures ≤ s.layout.parity + 1 ∧ s.successes + s.failures ≤ s.layout.width := by
  have width : s.layout.width = s.layout.data + s.layout.parity := rfl
  cases phase : s.phase with
  | pending => have := counted.undecided phase; omega
  | completed => have := counted.decided (.inl phase); omega
  | decoding => have := counted.decided (.inr (.inl phase)); omega
  | decoded => have := counted.decided (.inr (.inr phase)); omega
  | aborted => exact counted.given_up phase

theorem Counted.same_counts (counted : s.Counted) {after : Session}
    (target : after.target = s.target) (phase : after.phase = s.phase)
    (successes : after.successes = s.successes) (failures : after.failures = s.failures)
    (width : after.roster.chunks.length = s.roster.chunks.length)
    (complete : after.roster.countOf .complete = s.roster.countOf .complete)
    (failed : after.roster.countOf .failed = s.roster.countOf .failed)
    (rebuilt : ∀ c ∈ after.roster.chunks, c.state = .rebuilt → ∃ d ∈ s.roster.chunks,
      d.state = .rebuilt) : after.Counted := by
  have layout : after.layout = s.layout := by simp only [Session.layout, target]
  refine ⟨?_, ?_, ?_, ?_, ?_, ?_, ?_, ?_⟩
  · rw [layout]
    exact counted.data_pos
  · rw [layout, width]
    exact counted.width
  · rw [successes, complete]
    exact counted.successes_eq
  · rw [phase, failures, failed]
    exact counted.failures_eq
  · rw [phase, layout, successes, failures]
    exact counted.undecided
  · rw [phase, layout, successes, failures]
    exact counted.decided
  · rw [phase, layout, successes, failures]
    exact counted.given_up
  · rw [phase]
    intro open_ c member isRebuilt
    obtain ⟨d, there, also⟩ := rebuilt c member isRebuilt
    exact counted.not_rebuilt open_ d there also

theorem Counted.freed (counted : s.Counted) (lease : Option Lease) :
    Counted { s with roster := s.roster.withoutBuffers, lease := lease } := by
  refine counted.same_counts rfl rfl rfl rfl (List.length_map _) ?_ ?_ ?_
  · exact Roster.countOf_map fun c => Iff.rfl
  · exact Roster.countOf_map fun c => Iff.rfl
  · intro c member isRebuilt
    obtain ⟨d, there, rfl⟩ := List.mem_map.mp member
    exact ⟨d, there, isRebuilt⟩

theorem Counted.given (counted : s.Counted) : Counted { s with phase := .aborted } where
  data_pos := counted.data_pos
  width := counted.width
  successes_eq := counted.successes_eq
  failures_eq := by simp
  undecided := by simp
  decided := by simp
  given_up := fun _ => counted.bounds
  not_rebuilt := by simp

theorem Counted.failed (counted : s.Counted) (pending : s.phase = .pending) {position : Nat}
    (may : s.roster.MayMove position .failed) {phase : Phase}
    (decides : phase = .pending ∧ s.failures + 1 ≤ s.layout.parity ∨ phase = .aborted) :
    Counted { s with roster := s.roster.moved position .failed, failures := s.failures + 1,
                     phase := phase } := by
  have complete :
      (s.roster.moved position .failed).countOf .complete = s.roster.countOf .complete :=
    Roster.countOf_after may (fun _ => rfl) (.inl rfl)
  have failed : (s.roster.moved position .failed).countOf .failed = s.roster.countOf .failed + 1 :=
    Roster.countOf_after may (fun _ => rfl) (.inr rfl)
  have few := counted.undecided pending
  have width : s.layout.width = s.layout.data + s.layout.parity := rfl
  refine ⟨counted.data_pos, ?_, ?_, ?_, ?_, ?_, ?_, ?_⟩
  · exact (Roster.length_update _ _ _).trans counted.width
  · exact counted.successes_eq.trans complete.symm
  · intro _
    show s.failures + 1 = _
    rw [failed, counted.failures_eq (.inl pending)]
  · intro still
    rcases decides with ⟨_, within⟩ | aborted
    · exact ⟨few.1, within⟩
    · rw [aborted] at still
      contradiction
  · intro decided
    rcases decides with ⟨still, _⟩ | aborted
    · simp [still] at decided
    · simp [aborted] at decided
  · intro _
    show s.successes ≤ s.layout.data ∧ s.failures + 1 ≤ s.layout.parity + 1 ∧
      s.successes + (s.failures + 1) ≤ s.layout.width
    omega
  · intro _
    exact Roster.update_not_rebuilt (counted.not_rebuilt (.inl pending)) (fun _ => rfl) (by simp)

theorem Counted.received (counted : s.Counted) (pending : s.phase = .pending) {position : Nat}
    (may : s.roster.MayMove position .complete) (payload : Buffer) {phase : Phase}
    (decides : phase = .pending ∧ s.successes + 1 < s.layout.data ∨
      phase = .completed ∧ s.layout.data ≤ s.successes + 1) :
    Counted { s with roster := s.roster.loaded position payload, successes := s.successes + 1,
                     phase := phase } := by
  have complete :
      (s.roster.loaded position payload).countOf .complete = s.roster.countOf .complete + 1 :=
    Roster.countOf_after may (fun _ => rfl) (.inl rfl)
  have failed : (s.roster.loaded position payload).countOf .failed = s.roster.countOf .failed :=
    Roster.countOf_after may (fun _ => rfl) (.inr rfl)
  have few := counted.undecided pending
  refine ⟨counted.data_pos, ?_, ?_, ?_, ?_, ?_, ?_, ?_⟩
  · exact (Roster.length_update _ _ _).trans counted.width
  · show s.successes + 1 = _
    rw [complete, counted.successes_eq]
  · intro _
    exact (counted.failures_eq (.inl pending)).trans failed.symm
  · intro still
    rcases decides with ⟨_, more⟩ | ⟨completed, _⟩
    · exact ⟨more, few.2⟩
    · rw [completed] at still
      contradiction
  · intro decided
    show s.successes + 1 = s.layout.data ∧ s.failures ≤ s.layout.parity
    rcases decides with ⟨still, _⟩ | ⟨_, enough⟩
    · simp [still] at decided
    · omega
  · intro aborted
    rcases decides with ⟨still, _⟩ | ⟨completed, _⟩
    · simp [still] at aborted
    · simp [completed] at aborted
  · intro _
    exact Roster.update_not_rebuilt (counted.not_rebuilt (.inl pending)) (fun _ => rfl) (by simp)

theorem Counted.external (counted : s.Counted) (pending : s.phase = .pending) {position : Nat}
    (may : s.roster.MayMove position .external) :
    Counted { s with roster := s.roster.moved position .external } := by
  have notRebuilt : ∀ c ∈ (s.roster.moved position .external).chunks, c.state ≠ .rebuilt :=
    Roster.update_not_rebuilt (counted.not_rebuilt (.inl pending)) (fun _ => rfl) (by simp)
  refine counted.same_counts rfl rfl rfl rfl (Roster.length_update _ _ _) ?_ ?_ ?_
  · exact Roster.countOf_after may (fun _ => rfl) (.inl rfl)
  · exact Roster.countOf_after may (fun _ => rfl) (.inr rfl)
  · intro c member isRebuilt
    exact absurd isRebuilt (notRebuilt c member)

theorem Counted.requested (counted : s.Counted) :
    Counted { s with roster := s.roster.requested } := by
  refine counted.same_counts rfl rfl rfl rfl (List.length_map _) ?_ ?_ ?_
  · refine Roster.countOf_map fun c => ?_
    split <;> simp_all
  · refine Roster.countOf_map fun c => ?_
    split <;> simp_all
  · intro c member isRebuilt
    obtain ⟨d, there, rfl⟩ := List.mem_map.mp member
    refine ⟨d, there, ?_⟩
    split at isRebuilt
    · simp at isRebuilt
    · exact isRebuilt

theorem Counted.decoding (counted : s.Counted) (completed : s.phase = .completed)
    (job : DecodeJob) :
    Counted { s with phase := .decoding, roster := s.roster.takePayloads.1, job := some job } where
  data_pos := counted.data_pos
  width := (List.length_map _).trans counted.width
  successes_eq := by
    refine counted.successes_eq.trans (Eq.symm (Roster.countOf_map fun c => ?_))
    cases c.state <;> simp [ChunkStatus.canRebuild]
  failures_eq := by simp
  undecided := by simp
  decided := fun _ => counted.decided (.inl completed)
  given_up := by simp
  not_rebuilt := by simp

theorem Counted.change {after : Session} {e : Section} {told : List Notice} (counted : s.Counted)
    (staged : s.Staged) (change : Change s e after told) : after.Counted := by
  have leased : ∀ lease, Counted { s with lease := lease } := fun lease =>
    counted.same_counts rfl rfl rfl rfl rfl rfl rfl fun c member isRebuilt => ⟨c, member, isRebuilt⟩
  cases change with
  | still => exact counted
  | requested => exact counted.requested
  | external pending may => exact counted.external pending may
  | failed pending may few => exact pending ▸ counted.failed pending may (.inl ⟨rfl, few⟩)
  | lost pending may => exact (counted.failed pending may (.inr rfl)).freed _
  | received pending may more =>
    exact pending ▸ counted.received pending may _ (.inl ⟨rfl, more⟩)
  | completed pending may enough => exact counted.received pending may _ (.inr ⟨rfl, enough⟩)
  | aborted => exact counted.given.freed _
  | freed => exact counted.freed _
  | viewed => exact leased _
  | unviewed => exact leased _
  | unleased => exact leased _
  | begun completed => exact counted.decoding completed _
  | stopped =>
    exact counted.given.same_counts rfl rfl rfl rfl rfl rfl rfl fun c member isRebuilt =>
      ⟨c, member, isRebuilt⟩
  | stored working lives =>
    have decoding : s.phase = .decoding := (staged.job working).resolve_right lives
    exact ⟨counted.data_pos, counted.width, counted.successes_eq, by simp, by simp,
      fun _ => counted.decided (.inr (.inl decoding)), by simp, by simp⟩

theorem Owned.mover (owned : s.Owned) {position : Nat} {after : ChunkStatus} {c : Chunk}
    (may : s.roster.MayMove position after) (found : s.roster.chunks[position]? = some c) :
    c.buffer = none := by
  obtain ⟨d, there, can⟩ := may
  obtain rfl : d = c := Option.some.inj (there.symm.trans found)
  by_contra owner
  have complete := owned.complete d (List.mem_of_getElem? found) owner
  rcases Roster.may_from can with h | h | h <;> simp [h] at complete

theorem Owned.past (owned : s.Owned) (pending : s.phase ≠ .pending)
    (completed : s.phase ≠ .completed) : ∀ c ∈ s.roster.chunks, c.buffer = none := by
  intro c member
  by_contra owner
  rcases owned.phase c member owner with h | h
  · exact pending h
  · exact completed h

theorem Owned.of_none (bare : ∀ c ∈ s.roster.chunks, c.buffer = none) : s.Owned where
  complete := fun c member owner => absurd (bare c member) owner
  phase := fun c member owner => absurd (bare c member) owner

theorem withoutBuffers_bare (t : Roster) : ∀ c ∈ t.withoutBuffers.chunks, c.buffer = none := by
  intro c member
  obtain ⟨d, _, rfl⟩ := List.mem_map.mp member
  rfl

theorem takePayloads_bare (t : Roster) : ∀ c ∈ t.takePayloads.1.chunks, c.buffer = none := by
  intro c member
  obtain ⟨d, _, rfl⟩ := List.mem_map.mp member
  rfl

theorem Owned.requested (owned : s.Owned) :
    ∀ c ∈ s.roster.requested.chunks, c.buffer ≠ none → c.state = .complete := by
  intro c member owner
  obtain ⟨d, there, rfl⟩ := List.mem_map.mp member
  by_cases absent : d.state = .absent
  · simp only [absent, ↓reduceIte] at owner
    have complete := owned.complete d there owner
    rw [absent] at complete
    contradiction
  · simp only [absent, ↓reduceIte] at owner ⊢
    exact owned.complete d there owner

theorem Owned.loaded (owned : s.Owned) (position : Nat) (payload : Buffer) :
    ∀ c ∈ (s.roster.loaded position payload).chunks, c.buffer ≠ none → c.state = .complete := by
  intro c member owner
  rcases Roster.mem_update member with there | ⟨old, _, rfl⟩
  · exact owned.complete c there owner
  · rfl

theorem Owned.moved (owned : s.Owned) {position : Nat} {after : ChunkStatus}
    (may : s.roster.MayMove position after) :
    ∀ c ∈ (s.roster.moved position after).chunks, c.buffer ≠ none → c ∈ s.roster.chunks := by
  intro c member owner
  rcases Roster.mem_update member with there | ⟨old, found, rfl⟩
  · exact there
  · exact absurd (owned.mover may found) owner

theorem Owned.change {after : Session} {e : Section} {told : List Notice} (owned : s.Owned)
    (staged : s.Staged) (change : Change s e after told) : after.Owned := by
  have working_bare : s.job ≠ none → ∀ c ∈ s.roster.chunks, c.buffer = none := fun working => by
    rcases staged.job working with decoding | aborted
    · exact owned.past (by simp [decoding]) (by simp [decoding])
    · exact owned.past (by simp [aborted]) (by simp [aborted])
  cases change with
  | still => exact owned
  | requested pending => exact ⟨owned.requested, fun _ _ _ => .inl pending⟩
  | external pending may =>
    exact ⟨fun c member owner => owned.complete c (owned.moved may c member owner) owner,
      fun _ _ _ => .inl pending⟩
  | failed pending may =>
    exact ⟨fun c member owner => owned.complete c (owned.moved may c member owner) owner,
      fun _ _ _ => .inl pending⟩
  | lost => exact .of_none (withoutBuffers_bare _)
  | received pending => exact ⟨owned.loaded _ _, fun _ _ _ => .inl pending⟩
  | completed => exact ⟨owned.loaded _ _, fun _ _ _ => .inr rfl⟩
  | aborted => exact .of_none (withoutBuffers_bare _)
  | freed => exact .of_none (withoutBuffers_bare _)
  | viewed => exact ⟨owned.complete, owned.phase⟩
  | unviewed => exact ⟨owned.complete, owned.phase⟩
  | unleased => exact ⟨owned.complete, owned.phase⟩
  | begun => exact .of_none (takePayloads_bare _)
  | stopped working => exact .of_none (working_bare working)
  | stored working => exact .of_none (working_bare working)

theorem Staged.early (staged : s.Staged) (early : s.phase = .pending ∨ s.phase = .completed) :
    s.job = none ∧ s.lease = none := by
  constructor
  · by_contra working
    have := staged.job working
    grind
  · by_contra decoded
    have := (staged.lease decoded).2
    grind

theorem Staged.working (staged : s.Staged) (working : s.job ≠ none) : s.lease = none := by
  by_contra decoded
  exact working (staged.lease decoded).1

theorem Staged.of_none (job : s.job = none) (lease : s.lease = none) : s.Staged where
  job := fun working => absurd job working
  lease := fun decoded => absurd lease decoded
  held := fun l found => by simp [lease] at found

theorem Staged.released {lease : Option Lease} (released : Released s.lease lease)
    (job : s.job ≠ none → s.phase = .decoding ∨ s.phase = .aborted)
    (order : s.lease ≠ none → s.job = none ∧ (s.phase = .decoded ∨ s.phase = .aborted)) :
    Staged { s with roster := s.roster.withoutBuffers, lease := lease } where
  job := job
  lease := fun decoded => order fun none => decoded (released.none_stays none)
  held := fun l found held => by simp [released.unheld l found] at held

theorem Staged.change {after : Session} {e : Section} {told : List Notice} (staged : s.Staged)
    (change : Change s e after told) : after.Staged := by
  cases change with
  | still => exact staged
  | requested => exact ⟨staged.job, staged.lease, staged.held⟩
  | external => exact ⟨staged.job, staged.lease, staged.held⟩
  | failed => exact ⟨staged.job, staged.lease, staged.held⟩
  | lost pending may many released =>
    obtain ⟨job, lease⟩ := staged.early (.inl pending)
    exact .of_none job (released.none_stays lease)
  | received => exact ⟨staged.job, staged.lease, staged.held⟩
  | completed pending =>
    obtain ⟨job, lease⟩ := staged.early (.inl pending)
    exact .of_none job lease
  | aborted released =>
    exact .released (s := { s with phase := .aborted }) released (fun _ => .inr rfl)
      fun decoded => ⟨(staged.lease decoded).1, .inr rfl⟩
  | freed released => exact .released released staged.job staged.lease
  | viewed found =>
    exact ⟨staged.job, fun _ => staged.lease (by simp [found]),
      fun l' found' held => staged.held _ found (by grind)⟩
  | unviewed found =>
    exact ⟨staged.job, fun _ => staged.lease (by simp [found]),
      fun l' found' held => staged.held _ found (by grind)⟩
  | unleased => exact ⟨staged.job, by simp, by simp⟩
  | begun completed =>
    have lease := (staged.early (.inr completed)).2
    exact ⟨fun _ => .inl rfl, fun decoded => absurd lease decoded,
      fun l found => by simp [lease] at found⟩
  | stopped working => exact .of_none rfl (staged.working working)
  | stored => exact ⟨by simp, fun _ => ⟨rfl, .inl rfl⟩, fun _ _ _ => rfl⟩

theorem Invariant.step (invariant : s.Invariant) (e : Section) (pool : Pool) :
    (e.step s pool).session.Invariant where
  counted := invariant.counted.change invariant.staged (s.step_change pool e)
  owned := invariant.owned.change invariant.staged (s.step_change pool e)
  staged := invariant.staged.change (s.step_change pool e)

theorem Invariant.play (invariant : s.Invariant) (history : List Section) (pool : Pool) :
    (Session.play history s pool).session.Invariant :=
  play_keeps (fun e _ pool held => held.step e pool) history invariant pool

theorem make_absent (layout : Layout) (stripe : Nat) :
    ∀ c ∈ (Roster.make layout stripe).chunks, c.state = .absent ∧ c.buffer = none := by
  intro c member
  obtain ⟨i, _, rfl⟩ := List.mem_map.mp member
  exact ⟨rfl, rfl⟩

theorem countOf_make (layout : Layout) (stripe : Nat) {state : ChunkStatus}
    (other : state ≠ .absent) :
    (Roster.make layout stripe).countOf state = 0 := by
  refine List.countP_eq_zero.mpr fun c member => ?_
  simpa [(make_absent layout stripe c member).1] using Ne.symm other

theorem Invariant.make {target : Target} {data parity : Nat} {settings : Settings}
    (positive : 0 < target.layout.data) (made : Session.make target data parity settings = .ok s) :
    s.Invariant := by
  obtain ⟨_, _, rfl⟩ := make_ok made
  have absent := make_absent target.layout target.stripe
  refine ⟨⟨positive, ?_, ?_, ?_, ?_, ?_, ?_, ?_⟩, Owned.of_none fun c member => (absent c member).2,
    Staged.of_none rfl rfl⟩
  · simp [Roster.make, Session.layout]
  · exact (countOf_make _ _ (by simp)).symm
  · exact fun _ => (countOf_make _ _ (by simp)).symm
  · exact fun _ => ⟨positive, Nat.zero_le _⟩
  · simp
  · simp
  · intro _ c member
    simp [(absent c member).1]

/-- Who has the buffers and what stage a session is in can be told without its counters. -/
theorem orderly_step (e : Section) (s : Session) (pool : Pool) (held : s.Owned ∧ s.Staged) :
    (e.step s pool).session.Owned ∧ (e.step s pool).session.Staged :=
  ⟨held.1.change held.2 (s.step_change pool e), held.2.change (s.step_change pool e)⟩

theorem orderly_make {target : Target} {data parity : Nat} {settings : Settings}
    (made : Session.make target data parity settings = .ok s) : s.Owned ∧ s.Staged := by
  obtain ⟨_, _, rfl⟩ := make_ok made
  exact ⟨.of_none fun c member => (make_absent _ _ c member).2, .of_none rfl rfl⟩

end Session
end StripeRecovery
