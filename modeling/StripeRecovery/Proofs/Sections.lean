import StripeRecovery.Session.Decode

/-!
A run of a session is a list of its sections, in the order in which they get hold of it. Any
operation is made of sections, and what lies between two of them may be anything else:
callbacks, reads and the codec see the session there, and so do other threads.
-/
namespace StripeRecovery
namespace Session

inductive Section where
  | request
  | fail (position : Nat)
  | receive (position : Nat) (payload : Buffer)
  | external (position : Nat)
  | repair (position : Nat)
  | abort
  | free
  | view (position : Nat)
  | dropView
  | beginDecode (recreate : Bool)
  | finishDecode (attempt : Attempt RepairCount)
  | elsewhere (pool : Pool)

def Section.report? : Section → Option (Nat × Bool)
  | .fail position => some (position, false)
  | .receive position _ => some (position, true)
  | _ => none

def Section.step (e : Section) (s : Session) (pool : Pool) : Step (List Notice) :=
  match e with
  | .request => ⟨s.request.1, pool, []⟩
  | .fail position =>
    let done := s.fail pool position
    ⟨done.session, done.pool, done.answer.notice.toList⟩
  | .receive position payload =>
    let done := s.receive pool position payload
    ⟨done.session, done.pool, done.answer.notice.toList⟩
  | .external position =>
    match s.external position with
    | .ok after => ⟨after, pool, []⟩
    | .error _ => ⟨s, pool, []⟩
  | .repair position => ⟨s, pool, if s.wantsRepair then [.repair position] else []⟩
  | .abort => ⟨(s.abort pool).session, (s.abort pool).pool, []⟩
  | .free => ⟨(s.free pool).session, (s.free pool).pool, []⟩
  | .view position => ⟨(s.view position).1, pool, []⟩
  | .dropView => ⟨(s.dropView pool).session, (s.dropView pool).pool, []⟩
  | .beginDecode recreate =>
    ⟨(s.beginDecode pool recreate).session, (s.beginDecode pool recreate).pool, []⟩
  | .finishDecode attempt =>
    ⟨(s.finishDecode pool attempt).session, (s.finishDecode pool attempt).pool, []⟩
  | .elsewhere after => ⟨s, after, []⟩

def play : List Section → Session → Pool → Step (List Notice)
  | [], s, pool => ⟨s, pool, []⟩
  | e :: rest, s, pool =>
    let first := e.step s pool
    let others := play rest first.session first.pool
    ⟨others.session, others.pool, first.answer ++ others.answer⟩

theorem play_append (before after : List Section) (s : Session) (pool : Pool) :
    play (before ++ after) s pool =
      ⟨(play after (play before s pool).session (play before s pool).pool).session,
        (play after (play before s pool).session (play before s pool).pool).pool,
        (play before s pool).answer ++
          (play after (play before s pool).session (play before s pool).pool).answer⟩ := by
  induction before generalizing s pool with
  | nil => simp [play]
  | cons e rest ih => simp [play, ih]

/-- What every allowed section keeps, a run of them keeps. -/
theorem play_keeps_among {P : Session → Prop} {allowed : Section → Prop}
    (keeps : ∀ (e : Section) s pool, allowed e → P s → P (e.step s pool).session)
    {history : List Section} (may : ∀ e ∈ history, allowed e) {s : Session} (start : P s)
    (pool : Pool) : P (play history s pool).session := by
  induction history generalizing s pool with
  | nil => exact start
  | cons e rest ih =>
    exact ih (fun d there => may d (by simp [there])) (keeps e s pool (may e (by simp)) start) _

theorem play_keeps {P : Session → Prop}
    (keeps : ∀ (e : Section) s pool, P s → P (e.step s pool).session)
    (history : List Section) {s : Session} (start : P s) (pool : Pool) :
    P (play history s pool).session :=
  play_keeps_among (fun e s pool (_ : True) => keeps e s pool) (fun _ _ => trivial) start pool

theorem make_ok {target : Target} {data parity : Nat} {settings : Settings} {s : Session}
    (made : make target data parity settings = .ok s) :
    data = target.layout.data ∧ parity = target.layout.parity ∧
      s = ⟨target, settings.timeLimit, .pending, .make target.layout target.stripe, 0, 0, none,
        none⟩ := by
  by_cases fits : data = target.layout.data ∧ parity = target.layout.parity
  · cases checked : settings.check with
    | error e => simp [make, fits, checked] at made
    | ok _ =>
      simp only [make, fits, checked, and_self, ↓reduceIte, Except.ok.injEq] at made
      exact ⟨fits.1, fits.2, made.symm⟩
  · simp [make, fits] at made

end Session
end StripeRecovery
