import StripeRecovery.Proofs.Decision

/-!
The life of a session: which moves its phase makes, and that a decision is told once, when it
falls, and by nothing else.
-/
namespace StripeRecovery

inductive Phase.Edge : Phase → Phase → Prop where
  | completes : Edge .pending .completed
  | begins : Edge .completed .decoding
  | finishes : Edge .decoding .decoded
  | givesUp (p : Phase) : Edge p .aborted

theorem Phase.Edge.leaves_pending {p q : Phase} (edge : p.Edge q) : q ≠ .pending := by
  cases edge <;> simp

theorem Phase.Edge.stays_aborted {p q : Phase} (edge : p.Edge q) (aborted : p = .aborted) :
    q = .aborted := by
  cases edge <;> simp at aborted ⊢

namespace Session

/-- The terminal notice that the counters of a session call for. -/
def verdict (s : Session) : List Notice :=
  if s.successes = s.layout.data then [.recoverable s.stripe]
  else if s.failures = s.layout.parity + 1 then [.unrecoverable s.stripe]
  else []

/-- What a section may do to the phase and which notices it may make due, after the given
    reports. -/
structure Lawful (reported : List (Nat × Bool)) (e : Section) (s after : Session)
    (told : List Notice) : Prop where
  phase : after.phase = s.phase ∨ s.phase.Edge after.phase
  recoverable : told.filter (·.isTerminal) = [.recoverable s.stripe] ↔
    s.phase = .pending ∧ after.phase = .completed
  unrecoverable : told.filter (·.isTerminal) = [.unrecoverable s.stripe] ↔
    s.phase = .pending ∧ after.phase = .aborted ∧
      s.failures = s.layout.parity ∧ after.failures = s.failures + 1
  terminal : told.filter (·.isTerminal) = [] ∨
    told.filter (·.isTerminal) = [.recoverable s.stripe] ∨
    told.filter (·.isTerminal) = [.unrecoverable s.stripe]
  /-- Neither an abort nor a section of a decode is a report. -/
  unreported : e.report? = none → told.filter (·.isTerminal) = []
  late : s.phase ≠ .pending → told.filter (·.isTerminal) = []
  repeated : ∀ position good, e.report? = some (position, good) → reported.lookup position ≠ none →
    told.filter (·.isTerminal) = []

variable {reports : List (Nat × Bool)} {s after : Session} {e : Section} {told : List Notice}

theorem Lawful.quiet (phase : after.phase = s.phase ∨ s.phase.Edge after.phase)
    (silent : told.filter (·.isTerminal) = [])
    (undecided : s.phase = .pending → after.phase ≠ .completed)
    (uncounted : s.phase = .pending → after.phase = .aborted → after.failures ≠ s.failures + 1) :
    Lawful reports e s after told where
  phase := phase
  recoverable := by
    rw [silent]
    exact ⟨by simp, fun ⟨pending, completed⟩ => absurd completed (undecided pending)⟩
  unrecoverable := by
    rw [silent]
    refine ⟨by simp, fun ⟨pending, aborted, _, counted⟩ => ?_⟩
    exact absurd counted (uncounted pending aborted)
  terminal := .inl silent
  unreported := fun _ => silent
  late := fun _ => silent
  repeated := fun _ _ _ _ => silent

theorem Follows.unreported_mover {t : Roster} (follows : Follows t reports) {position : Nat}
    {after : ChunkStatus} (may : t.MayMove position after) : reports.lookup position = none := by
  obtain ⟨c, found, can⟩ := may
  exact (follows position c found).unreported (Roster.may_from can)

theorem Lawful.change (counted : s.Counted) (staged : s.Staged)
    (follows : s.phase = .pending → Follows s.roster reports) (change : Change s e after told) :
    Lawful reports e s after told := by
  cases change with
  | still refused repairs =>
    refine .quiet (.inl rfl) repairs (fun pending completed => ?_) (fun pending aborted => ?_)
    · simp [pending] at completed
    · simp [pending] at aborted
  | requested pending => exact .quiet (.inl rfl) rfl (by simp [pending]) (by simp [pending])
  | external pending => exact .quiet (.inl rfl) rfl (by simp [pending]) (by simp [pending])
  | failed pending => exact .quiet (.inl rfl) rfl (by simp [pending]) (by simp [pending])
  | received pending => exact .quiet (.inl rfl) rfl (by simp [pending]) (by simp [pending])
  | @lost position lease pending may many =>
    have few := (counted.undecided pending).2
    refine ⟨.inr (.givesUp _), by simp [Notice.isTerminal], ?_, .inr (.inr rfl),
      by simp [Section.report?], fun late => absurd pending late, ?_⟩
    · refine ⟨fun _ => ⟨pending, rfl, by omega, rfl⟩, fun _ => rfl⟩
    · intro other good reported again
      obtain ⟨rfl, _⟩ : position = other ∧ false = good := by simpa [Section.report?] using reported
      exact absurd ((follows pending).unreported_mover may) again
  | @completed position payload pending may enough =>
    refine ⟨.inr (pending ▸ .completes), ?_, by simp [Notice.isTerminal], .inr (.inl rfl),
      by simp [Section.report?], fun late => absurd pending late, ?_⟩
    · exact ⟨fun _ => ⟨pending, rfl⟩, fun _ => rfl⟩
    · intro other good reported again
      obtain ⟨rfl, _⟩ : position = other ∧ true = good := by simpa [Section.report?] using reported
      exact absurd ((follows pending).unreported_mover may) again
  | aborted => exact .quiet (.inr (.givesUp _)) rfl (by simp) (by simp)
  | freed => exact .quiet (.inl rfl) rfl (by simp_all) (by simp_all)
  | viewed => exact .quiet (.inl rfl) rfl (by simp_all) (by simp_all)
  | unviewed => exact .quiet (.inl rfl) rfl (by simp_all) (by simp_all)
  | unleased => exact .quiet (.inl rfl) rfl (by simp_all) (by simp_all)
  | begun completed => exact .quiet (.inr (completed ▸ .begins)) rfl (by simp) (by simp)
  | stopped => exact .quiet (.inr (.givesUp _)) rfl (by simp) (by simp)
  | stored working lives =>
    have decoding : s.phase = .decoding := (staged.job working).resolve_right lives
    exact .quiet (.inr (decoding ▸ .finishes)) rfl (by simp) (by simp)

/-- While a session is undecided, every chunk is as its first report left it, whatever else was
    done. -/
theorem Follows.change (invariant : s.Invariant)
    (follows : s.phase = .pending → Follows s.roster reports) (change : Change s e after told) :
    after.phase = .pending → Follows after.roster (reports ++ e.report?.toList) := by
  intro undecided
  have pending : s.phase = .pending := by
    rcases (Lawful.change invariant.counted invariant.staged follows change).phase with same | edge
    · exact same.symm.trans undecided
    · exact absurd undecided edge.leaves_pending
  by_cases calm : e.Calm
  · have tracked : Tracked reports [] s :=
      ⟨.inl pending, fun _ => ⟨follows pending, rfl⟩, by simp [pending], by simp [pending]⟩
    exact ((tracked.change invariant.counted calm change).pending undecided).1
  · have quiet : e.report? = none := by cases e <;> simp_all [Section.Calm, Section.report?]
    rw [quiet, Option.toList, List.append_nil]
    cases change with
    | still => exact follows pending
    | aborted => simp at undecided
    | begun => simp at undecided
    | stopped => simp at undecided
    | stored => simp at undecided
    | _ => exact absurd trivial calm

theorem Follows.play (invariant : s.Invariant)
    (follows : s.phase = .pending → Follows s.roster reports) (history : List Section)
    (pool : Pool) :
    (Session.play history s pool).session.phase = .pending →
      Follows (Session.play history s pool).session.roster
        (reports ++ history.filterMap Section.report?) := by
  induction history generalizing s pool reports with
  | nil => simpa [Session.play] using follows
  | cons e rest ih =>
    have first := Follows.change invariant follows (s.step_change pool e)
    have others := ih (invariant.step e pool) first (e.step s pool).pool
    have reported : (e :: rest).filterMap Section.report? =
        e.report?.toList ++ rest.filterMap Section.report? := by
      cases found : e.report? <;> simp [found]
    rwa [reported, ← List.append_assoc]

theorem verdict_undecided (counted : s.Counted) (pending : s.phase = .pending) :
    s.verdict = [] := by
  have few := counted.undecided pending
  have notEnough : s.successes ≠ s.layout.data := by omega
  have notTooMany : s.failures ≠ s.layout.parity + 1 := by omega
  simp [verdict, notEnough, notTooMany]

theorem verdict_same (target : after.target = s.target) (successes : after.successes = s.successes)
    (failures : after.failures = s.failures) : after.verdict = s.verdict := by
  unfold verdict layout stripe
  rw [target, successes, failures]

theorem verdict_change (counted : s.Counted) (change : Change s e after told) :
    s.verdict ++ told.filter (·.isTerminal) = after.verdict := by
  cases change with
  | still refused repairs => rw [repairs, List.append_nil]
  | failed pending may few =>
    have still := counted.failed pending may (.inl ⟨rfl, few⟩)
    rw [← pending] at still
    rw [verdict_undecided counted pending]
    exact (verdict_undecided still pending).symm
  | @received position payload pending may more =>
    have still := counted.received pending may payload (.inl ⟨rfl, more⟩)
    rw [← pending] at still
    rw [verdict_undecided counted pending]
    exact (verdict_undecided still pending).symm
  | lost pending may many =>
    have few := counted.undecided pending
    have counts : s.failures = s.layout.parity := by omega
    have notEnough : s.successes ≠ s.layout.data := by omega
    rw [verdict_undecided counted pending]
    simp only [verdict, layout, stripe] at counts notEnough ⊢
    simp [notEnough, counts, Notice.isTerminal]
  | completed pending may enough =>
    have few := counted.undecided pending
    have counts : s.successes + 1 = s.layout.data := by omega
    rw [verdict_undecided counted pending]
    simp only [verdict, layout, stripe] at counts ⊢
    simp [counts, Notice.isTerminal]
  | _ =>
    rw [List.filter_nil, List.append_nil]
    exact (verdict_same rfl rfl rfl).symm

theorem verdict_play (invariant : s.Invariant) (history : List Section) (pool : Pool) :
    s.verdict ++ (Session.play history s pool).answer.filter (·.isTerminal) =
      (Session.play history s pool).session.verdict := by
  induction history generalizing s pool with
  | nil => simp [Session.play]
  | cons e rest ih =>
    have first := verdict_change invariant.counted (s.step_change pool e)
    have others := ih (invariant.step e pool) (e.step s pool).pool
    rw [← first, List.append_assoc, ← List.filter_append] at others
    exact others

theorem verdict_length_le (s : Session) : s.verdict.length ≤ 1 := by
  unfold verdict
  split
  · simp
  · split <;> simp

theorem verdict_make {target : Target} {data parity : Nat} {settings : Settings}
    (positive : 0 < target.layout.data) (made : Session.make target data parity settings = .ok s) :
    s.verdict = [] := by
  have pending : s.phase = .pending := by
    obtain ⟨_, _, rfl⟩ := make_ok made
    rfl
  exact verdict_undecided (Invariant.make positive made).counted pending

theorem Follows.make {target : Target} {data parity : Nat} {settings : Settings}
    (made : Session.make target data parity settings = .ok s) : Follows s.roster [] := by
  obtain ⟨_, _, rfl⟩ := make_ok made
  exact fun _ c found => .inl (make_absent _ _ c (List.mem_of_getElem? found)).1

theorem aborted_step (invariant : s.Invariant) (aborted : s.phase = .aborted) (e : Section)
    (pool : Pool) : (e.step s pool).session.phase = .aborted := by
  have lawful : Lawful [] e s (e.step s pool).session (e.step s pool).answer :=
    .change invariant.counted invariant.staged (fun pending => by simp [aborted] at pending)
      (s.step_change pool e)
  rcases lawful.phase with same | edge
  · exact same.trans aborted
  · exact edge.stays_aborted aborted

end Session

/-- The phase of a session makes only the moves of its edges and never leaves `aborted`. A decision
    is told by the section that makes it: `recoverable` when a payload completes the session,
    `unrecoverable` when a failure is one too many. Nothing else tells of it, so what was told in
    all is what the counters call for, which is one notice at most. This holds of every run of
    sections, and of operations whose callbacks, reads and codec use the session as well. -/
theorem decision_told_once {target : Target} {data parity : Nat} {settings : Settings}
    {s : Session} (positive : 0 < target.layout.data)
    (made : Session.make target data parity settings = .ok s) :
    (∀ (before : List Session.Section) (e : Session.Section) (pool : Pool),
      let now := Session.play before s pool
      let next := e.step now.session now.pool
      now.session.target = target ∧
        Session.Lawful (before.filterMap Session.Section.report?) e now.session next.session
          next.answer) ∧
    (∀ (before later : List Session.Section) (pool : Pool),
      (Session.play before s pool).session.phase = .aborted →
      (Session.play (before ++ later) s pool).session.phase = .aborted) ∧
    (∀ (history : List Session.Section) (pool : Pool),
      let now := Session.play history s pool
      now.answer.filter (·.isTerminal) = now.session.verdict ∧
        (now.answer.filter (·.isTerminal)).length ≤ 1) ∧
    ∀ {ω : Type} (out : Outside ω), out.Confined Session.Sound (fun _ => True) →
      ∀ (ops : List World.Operation) (w : World ω), w.session = s →
        ∃ history told, w.Evolves history (World.performAll out ops w) ∧
          (World.performAll out ops w).notices = w.notices ++ told ∧
          told.filter (·.isTerminal) = (World.performAll out ops w).session.verdict ∧
          (told.filter (·.isTerminal)).length ≤ 1 := by
  have start : s.Invariant := Session.Invariant.make positive made
  have fresh := Session.Follows.make made
  have recovers : s.target = target := by
    obtain ⟨_, _, rfl⟩ := Session.make_ok made
    rfl
  have told : ∀ (history : List Session.Section) (pool : Pool),
      (Session.play history s pool).answer.filter (·.isTerminal) =
        (Session.play history s pool).session.verdict := by
    intro history pool
    have all := Session.verdict_play start history pool
    rwa [Session.verdict_make positive made, List.nil_append] at all
  refine ⟨?_, ?_, ?_, ?_⟩
  · intro before e pool now next
    have invariant := start.play before pool
    have follows := Session.Follows.play start (fun _ => fresh) before pool
    exact ⟨(Session.play_target s pool before).trans recovers,
      Session.Lawful.change invariant.counted invariant.staged follows
        (now.session.step_change now.pool e)⟩
  · intro before later pool aborted
    rw [Session.play_append]
    have stays := Session.play_keeps
      (P := fun s => s.Invariant ∧ s.phase = .aborted)
      (fun e s pool held => ⟨held.1.step e pool, Session.aborted_step held.1 held.2 e pool⟩)
      later ⟨start.play before pool, aborted⟩ (Session.play before s pool).pool
    exact stays.2
  · intro history pool now
    exact ⟨told history pool, told history pool ▸ now.session.verdict_length_le⟩
  · intro ω out confined ops w same
    subst same
    have kept : World.Kept Session.Invariant := fun e _ pool held => held.step e pool
    obtain ⟨history, _, evolves⟩ := World.performAll_works confined.of_sound kept ops start
    have all := told history w.pool
    rw [← evolves.session] at all
    exact ⟨history, _, evolves, evolves.notices, all, all ▸ Session.verdict_length_le _⟩

/-- Told of the decision, the callback decodes, and meanwhile the session is given up. -/
theorem decision_told_once_decoding_callback :
    let target : Target := ⟨"vol:file", 42, ⟨1, 1, 1, 0⟩, .empty, ⟨[]⟩⟩
    let s : Session := ⟨target, none, .pending, .make target.layout 42, 0, 0, none, none⟩
    let codec : Outside Unit :=
      { notify := fun _ w => w
        send := fun _ _ _ w => (w, none)
        repair := fun call w => (w.abort, ⟨call.shards, .ok ⟨0, 1⟩⟩) }
    let out : Outside Unit := { codec with notify := fun _ w => (w.decode codec true).1 }
    let w : World Unit := ⟨s, .make .standard, [], [], ()⟩
    let payload : Buffer := .unpooled [7] 1
    let after := World.performAll out [.receive 0 payload, .fail 1, .receive 1 payload] w
    Session.make target 1 1 .standard = .ok s ∧
      ∃ told, after.notices = told ∧ told.filter (·.isTerminal) = [.recoverable 42] ∧
        after.session.phase = .aborted := by
  intro target s codec out w payload after
  have made : Session.make target 1 1 .standard = .ok s := by decide +kernel
  have repair : ∀ call (w : World Unit), ∃ history : List Session.Section,
      (∀ e ∈ history, True) ∧ w.Evolves history (codec.repair call w).1 := by
    intro call w
    exact ⟨[.abort], by simp, .one .abort rfl rfl (List.append_nil _).symm⟩
  have confined : out.Confined Session.Sound fun _ => True := by
    refine ⟨?_, ?_, ?_⟩
    · intro n w _
      have works : World.Works (fun _ => True) w (World.decodeSections codec true w)
          (w.decode codec true).1 :=
        World.decode_works (P := fun _ => True) (fun _ _ _ _ => trivial)
          (fun call w _ => repair call w) true trivial
      obtain ⟨history, _, evolves⟩ := works
      exact ⟨history, by simp, evolves⟩
    · intro start route request w _
      exact ⟨[], by simp, .refl w⟩
    · intro call w _
      exact repair call w
  have ended : after.session.verdict = [.recoverable 42] ∧ after.session.phase = .aborted := by
    decide +kernel
  obtain ⟨_, told, _, notices, verdict, _⟩ :=
    (decision_told_once (by decide) made).2.2.2 out confined _ w rfl
  exact ⟨made, told, notices, verdict.trans ended.1, ended.2⟩

end StripeRecovery
