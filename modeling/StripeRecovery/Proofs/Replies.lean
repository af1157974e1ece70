import StripeRecovery.Proofs.Changes
import StripeRecovery.Proofs.Seen

/-!
All that a section answers, and two sections side by side: on sessions that look the same they
answer the same and leave the same to be seen. A payload that is refused may be any payload.
-/
namespace StripeRecovery

theorem Buffer.bytes_of_visible (answer : Except Error Buffer) :
    (answer.map visible).map (·.bytes) = answer.map (·.bytes) := by
  cases answer <;> rfl

theorem found_alike {α β : Type} {f : α → β} {a b : Option α} (same : a.map f = b.map f) :
    (a = none ∧ b = none) ∨ ∃ x y, a = some x ∧ b = some y ∧ f x = f y := by
  cases a with
  | none => exact .inl ⟨rfl, Option.map_eq_none_iff.mp same.symm⟩
  | some x =>
    obtain ⟨y, found, alike⟩ := Option.map_eq_some_iff.mp same.symm
    exact .inr ⟨x, y, rfl, found, alike.symm⟩

theorem told_alike {α β : Type} {f : α → β} {a b : Except Error α} (same : a.map f = b.map f) :
    (∃ e, a = .error e ∧ b = .error e) ∨ ∃ x y, a = .ok x ∧ b = .ok y ∧ f x = f y := by
  cases a with
  | error e =>
    cases b with
    | error e' => exact .inl ⟨e, rfl, by rw [Except.error.inj same]⟩
    | ok y => simp [Except.map] at same
  | ok x =>
    cases b with
    | error e => simp [Except.map] at same
    | ok y => exact .inr ⟨x, y, rfl, rfl, Except.ok.inj same⟩

namespace Session

inductive Reply where
  | reserved (positions : List Nat)
  | reported (verdict : Verdict)
  | marked (answer : Except Error Unit)
  | noticed (due : List Notice)
  | freed (buffers : Nat)
  | viewed (answer : Except Error (List UInt8))
  | begun (answer : Except Error Bool ⊕ DecodeCall)
  | finished (answer : Except Error Bool)
  | done

def Section.carry (e : Section) (s : Session) (pool : Pool) : Step Reply :=
  let step := e.step s pool
  ⟨step.session, step.pool,
    match e with
    | .request => .reserved s.request.2
    | .fail position => .reported (s.fail pool position).answer
    | .receive position payload => .reported (s.receive pool position payload).answer
    | .external position => .marked ((s.external position).map fun _ => ())
    | .repair _ => .noticed step.answer
    | .free => .freed (s.free pool).answer
    | .view position => .viewed ((s.view position).2.map (·.bytes))
    | .beginDecode recreate => .begun (s.beginDecode pool recreate).answer
    | .finishDecode attempt => .finished (s.finishDecode pool attempt).answer
    | .abort | .dropView | .elsewhere _ => .done⟩

/-- A payload for this position is not taken: the session is decided, or there is no such chunk,
    or it has been reported already. -/
def Refuses (s : Session) (position : Nat) : Prop :=
  s.phase = .pending → ¬ s.roster.MayMove position .complete

theorem receive_refused {s : Session} {position : Nat} (refuses : s.Refuses position) (pool : Pool)
    (payload : Buffer) :
    s.receive pool position payload = ⟨s, pool.release payload, ⟨.ignored, none⟩⟩ := by
  rcases s.receive_cases pool position payload with
    ⟨pending, may, _⟩ | ⟨pending, may, _⟩ | ⟨_, done⟩
  · exact absurd may (refuses pending)
  · exact absurd may (refuses pending)
  · exact done

/-- Two payloads that a session cannot tell apart: they show the same, or it takes neither. -/
def Exchangeable (s : Session) (position : Nat) (b c : Buffer) : Prop :=
  b.visible = c.visible ∨ s.Refuses position ∧ b.pooled = c.pooled

variable {s t : Session} {p q : Pool}

theorem Refuses.of_visible {position : Nat} (refuses : s.Refuses position)
    (same : s.visible = t.visible) : t.Refuses position := by
  have phase : s.visible.phase = t.visible.phase := by rw [same]
  have chunks : s.roster.visible.chunks[position]? = t.roster.visible.chunks[position]? :=
    congrArg (fun u : Session => u.roster.chunks[position]?) same
  simp only [Roster.visible, List.getElem?_map] at chunks
  intro pending
  rintro ⟨d, found, can⟩
  obtain ⟨c, found', eq⟩ : ∃ c, s.roster.chunks[position]? = some c ∧ c.visible = d.visible := by
    simpa [found] using chunks
  have state : c.visible.state = d.visible.state := by rw [eq]
  exact refuses (phase.trans pending) ⟨c, found', state ▸ can⟩

theorem receive_like (same : s.visible = t.visible) (like : p.Like q) {position : Nat}
    {b c : Buffer} (payload : s.Exchangeable position b c) :
    (s.receive p position b).Like (t.receive q position c) := by
  rcases payload with shown | ⟨refuses, pooled⟩
  · have first := s.receive_visible position b (.refl like.shelved)
    have second := t.receive_visible position c like.symm
    rw [same, shown] at first
    exact first.trans second.symm
  · have refuses' := refuses.of_visible same
    rw [receive_refused refuses, receive_refused refuses']
    exact ⟨same, like.release pooled, rfl⟩

def Section.plain : Section → Bool
  | .receive .. | .elsewhere _ => false
  | _ => true

theorem carry_visible {e : Section} (plain : e.plain = true) (s : Session) (p q : Pool)
    (like : p.Like q) : (e.carry s p).Like (e.carry s.visible q) := by
  have still : s.visible = s.visible.visible := s.visible_visible.symm
  cases e with
  | request =>
    have seen := s.request_visible
    refine ⟨?_, like, ?_⟩
    · simp [Section.carry, Section.step, seen]
    · simp [Section.carry, seen]
  | fail position => exact (s.fail_visible position like).map Reply.reported
  | receive position b => simp [Section.plain] at plain
  | external position =>
    have seen := s.external_visible position
    simp only [Section.carry, Section.step, seen]
    cases s.external position with
    | ok after => exact ⟨after.visible_visible.symm, like, rfl⟩
    | error e => exact ⟨still, like, rfl⟩
  | repair position => exact ⟨still, like, rfl⟩
  | abort => exact (s.abort_visible like).map fun _ => Reply.done
  | free => exact (s.free_visible like).map Reply.freed
  | view position =>
    have seen := s.view_visible position
    refine ⟨?_, like, ?_⟩
    · simp [Section.carry, Section.step, seen]
    · simp only [Section.carry, seen, Buffer.bytes_of_visible]
  | dropView => exact (s.dropView_visible like).map fun _ => Reply.done
  | beginDecode recreate => exact (s.beginDecode_visible recreate like).map Reply.begun
  | finishDecode attempt => exact (s.finishDecode_visible attempt like).map Reply.finished
  | elsewhere pool => simp [Section.plain] at plain

theorem carry_like {e : Section} (plain : e.plain = true) (same : s.visible = t.visible)
    (like : p.Like q) : (e.carry s p).Like (e.carry t q) :=
  s.like_of_visible (carry_visible plain) same like

end Session
end StripeRecovery
