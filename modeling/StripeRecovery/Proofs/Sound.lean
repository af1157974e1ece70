import StripeRecovery.Proofs.Invariant
import StripeRecovery.Proofs.Operations

/-!
What whoever meets a session may rely on, in every state and also in the middle of an
operation: the invariant without what only its proof needs.
-/
namespace StripeRecovery
namespace Session

structure Sound (s : Session) : Prop where
  successes_eq : s.successes = s.roster.countOf .complete
  successes_le : s.successes ≤ s.layout.data
  failures_le : s.failures ≤ s.layout.parity + 1
  reports_le : s.successes + s.failures ≤ s.layout.data + s.layout.parity
  failures_eq : s.phase = .pending ∨ s.phase = .completed → s.failures = s.roster.countOf .failed
  undecided : s.phase = .pending → s.successes < s.layout.data ∧ s.failures ≤ s.layout.parity
  decided : s.phase = .completed ∨ s.phase = .decoding ∨ s.phase = .decoded →
    s.successes = s.layout.data ∧ s.failures ≤ s.layout.parity
  owner_complete : ∀ c ∈ s.roster.chunks, c.buffer ≠ none → c.state = .complete
  owner_phase : ∀ c ∈ s.roster.chunks, c.buffer ≠ none → s.phase = .pending ∨ s.phase = .completed
  stored : ∀ l, s.lease = some l → l.held = true → s.phase = .decoded

theorem Invariant.sound {s : Session} (invariant : s.Invariant) : s.Sound where
  successes_eq := invariant.counted.successes_eq
  successes_le := invariant.counted.bounds.1
  failures_le := invariant.counted.bounds.2.1
  reports_le := invariant.counted.bounds.2.2
  failures_eq := invariant.counted.failures_eq
  undecided := invariant.counted.undecided
  decided := invariant.counted.decided
  owner_complete := invariant.owned.complete
  owner_phase := invariant.owned.phase
  stored := invariant.staged.held

end Session

theorem Outside.Confined.of_sound {ω : Type} {out : Outside ω} {allowed : Session.Section → Prop}
    (confined : out.Confined Session.Sound allowed) : out.Confined Session.Invariant allowed where
  notify := fun n w invariant => confined.notify n w invariant.sound
  send := fun start route request w invariant => confined.send start route request w invariant.sound
  repair := fun call w invariant => confined.repair call w invariant.sound

/-- A session over a checked layout is sound after any run of sections, so also between any two
    of them; and it is sound after any operations, if callbacks, reads and the codec keep to
    sections. They are held to this only where they are called in a sound state, since they
    never meet another one. -/
theorem session_always_sound {target : Target} {data parity : Nat} {settings : Settings}
    {s : Session} (positive : 0 < target.layout.data)
    (made : Session.make target data parity settings = .ok s) :
    (∀ (history : List Session.Section) (pool : Pool), (Session.play history s pool).session.Sound) ∧
      ∀ {ω : Type} (out : Outside ω), out.Confined Session.Sound (fun _ => True) →
        ∀ (ops : List World.Operation) (w : World ω), w.session = s →
          (World.performAll out ops w).session.Sound := by
  have start : s.Invariant := Session.Invariant.make positive made
  constructor
  · intro history pool
    exact (start.play history pool).sound
  · intro ω out confined ops w fresh
    have kept : World.Kept Session.Invariant := fun e _ pool held => held.step e pool
    have works := World.performAll_works confined.of_sound kept ops (fresh ▸ start)
    exact (works.keeps kept (fresh ▸ start)).sound

/-- The reads of a start are all refused; each time the session is told to abort, it is freed. -/
theorem session_always_sound_refused :
    let target : Target := ⟨"vol:file", 42, ⟨2, 1, 1, 0⟩, .empty, ⟨[]⟩⟩
    let s : Session := ⟨target, none, .pending, .make target.layout 42, 0, 0, none, none⟩
    let out : Outside Unit :=
      { notify := fun _ w => w.free.1
        send := fun _ _ _ w => (w, some (.dispatch 0 .unknownNode))
        repair := fun _ w => (w.abort, ⟨[], .error (.tooFewShards 0 2)⟩) }
    let w : World Unit := ⟨s, .make .standard, [], [], ()⟩
    Session.make target 2 1 .standard = .ok s ∧
      (World.performAll out [.start, .fail 2, .decode true] w).session.Sound ∧
      (World.performAll out [.start, .fail 2, .decode true] w).session.phase = .aborted := by
  intro target s out w
  have made : Session.make target 2 1 .standard = .ok s := by decide +kernel
  have confined : out.Confined Session.Sound fun _ => True := by
    refine ⟨?_, ?_, ?_⟩
    · intro n w _
      exact ⟨[.free], by simp, .one .free rfl rfl (List.append_nil _).symm⟩
    · intro start route request w _
      exact ⟨[], by simp, .refl w⟩
    · intro call w _
      exact ⟨[.abort], by simp, .one .abort rfl rfl (List.append_nil _).symm⟩
  refine ⟨made, ?_, ?_⟩
  · exact (session_always_sound (by decide) made).2 out confined _ w rfl
  · decide +kernel

end StripeRecovery
