import StripeRecovery.Proofs.DecodeOnce

/-!
What a completed session has for its decode: the payloads that it took and that were not
freed since. Enough chunks arrived, but a decode succeeds only if none of them was freed.
-/
namespace StripeRecovery

theorem Code.repair_accepted {c : Code} {shards : List Shard} {present : List Bool}
    {offset length : Nat} (recreate : Bool)
    (accepted : c.refusal? shards present (offset + length) = none) :
    ∃ count, (c.repair shards present offset length recreate).result = .ok count := by
  simp only [Code.repair, accepted]
  split
  · exact ⟨_, rfl⟩
  · exact ⟨_, rfl⟩

namespace Session

def Section.frees : Section → Bool
  | .free => true
  | _ => false

/-- The payloads that a run takes and does not free. -/
def kept : List Section → Session → Pool → List (Nat × Buffer)
  | [], _, _ => []
  | e :: rest, s, pool =>
    let others := kept rest (e.step s pool).session (e.step s pool).pool
    if rest.any Section.frees then others else e.taken s pool ++ others

variable {s : Session} {pool : Pool}

theorem taken_append (before after : List Section) (s : Session) (pool : Pool) :
    taken (before ++ after) s pool = taken before s pool ++
      taken after (Session.play before s pool).session (Session.play before s pool).pool := by
  induction before generalizing s pool with
  | nil => rfl
  | cons e rest ih => simp only [List.cons_append, taken, ih, Session.play, List.append_assoc]

theorem kept_append_free (before after : List Section) (s : Session) (pool : Pool) :
    kept (before ++ .free :: after) s pool =
      kept (.free :: after) (Session.play before s pool).session
        (Session.play before s pool).pool := by
  induction before generalizing s pool with
  | nil => rfl
  | cons e rest ih =>
    have frees : (rest ++ Section.free :: after).any Section.frees = true := by
      simp [Section.frees]
    simp only [List.cons_append, kept, frees, ↓reduceIte, ih, Session.play]

theorem kept_length_le (history : List Section) (s : Session) (pool : Pool) :
    (kept history s pool).length ≤ (taken history s pool).length := by
  induction history generalizing s pool with
  | nil => exact Nat.le_refl 0
  | cons e rest ih =>
    have others := ih (e.step s pool).session (e.step s pool).pool
    simp only [kept, taken, List.length_append]
    split
    · omega
    · rw [List.length_append]
      omega

def Freed (history : List Section) (s : Session) (pool : Pool) : Prop :=
  ∃ before after, history = before ++ .free :: after ∧ taken before s pool ≠ []

theorem kept_of_unfreed {history : List Section} (unfreed : ¬ Freed history s pool) :
    kept history s pool = taken history s pool := by
  induction history generalizing s pool with
  | nil => rfl
  | cons e rest ih =>
    have others : ¬ Freed rest (e.step s pool).session (e.step s pool).pool := by
      rintro ⟨before, after, rfl, some⟩
      exact unfreed ⟨e :: before, after, rfl, by simp [taken, some]⟩
    rw [kept, taken, ih others]
    split
    · -- Nothing was taken before a release, so the release takes nothing away.
      rename_i frees
      obtain ⟨d, there, isFree⟩ := List.any_eq_true.mp frees
      obtain ⟨before, after, rfl⟩ := List.append_of_mem there
      have free : d = .free := by cases d <;> simp_all [Section.frees]
      have none : taken (e :: before) s pool = [] := by
        by_contra some
        exact unfreed ⟨e :: before, after, by rw [free]; rfl, some⟩
      rw [(List.append_eq_nil_iff.mp none).1, List.nil_append]
    · rfl

theorem kept_lt_of_freed {history : List Section} (freed : Freed history s pool) :
    (kept history s pool).length < (taken history s pool).length := by
  obtain ⟨before, after, rfl, some⟩ := freed
  have first : 0 < (taken before s pool).length := List.length_pos_iff.mpr some
  have rest := kept_length_le (.free :: after) (Session.play before s pool).session
    (Session.play before s pool).pool
  rw [kept_append_free, taken_append, List.length_append]
  omega

theorem Past.play (past : s.Past) (history : List Section) (pool : Pool) :
    (Session.play history s pool).session.Past :=
  play_keeps (fun e s pool held => held.change (s.step_change pool e)) history past pool

theorem Change.buffers {after : Session} {e : Section} {told : List Notice} (owned : s.Owned)
    (change : Change s e after told) (opened : ¬ after.Past) (other : e.frees = false)
    (pool : Pool) :
    after.roster.buffers.Perm ((e.taken s pool).map (·.2) ++ s.roster.buffers) := by
  have loaded {position : Nat} {payload : Buffer} (pending : s.phase = .pending)
      (may : s.roster.MayMove position .complete) :
      (s.roster.loaded position payload).buffers.Perm
        (((Section.receive position payload).taken s pool).map (·.2) ++ s.roster.buffers) := by
    obtain ⟨c, found, can⟩ := may
    rw [taken_of_loaded pending ⟨c, found, can⟩]
    exact Roster.buffers_loaded found (owned.mover ⟨c, found, can⟩ found) payload
  cases change with
  | still refused =>
    rw [taken_of_refused refused]
    exact .refl _
  | requested =>
    rw [Roster.requested, Roster.buffers_map]
    · exact .refl _
    · intro c
      split <;> rfl
  | external => exact .of_eq (Roster.buffers_moved _ _ _)
  | failed => exact .of_eq (Roster.buffers_moved _ _ _)
  | received pending may => exact loaded pending may
  | completed pending may => exact loaded pending may
  | lost => exact absurd ⟨by simp, by simp⟩ opened
  | aborted => exact absurd ⟨by simp, by simp⟩ opened
  | freed => simp [Section.frees] at other
  | begun => exact absurd ⟨by simp, by simp⟩ opened
  | stopped => exact absurd ⟨by simp, by simp⟩ opened
  | stored => exact absurd ⟨by simp, by simp⟩ opened
  | _ => exact .refl _

theorem step_buffers (owned : s.Owned) (e : Section) (opened : ¬ (e.step s pool).session.Past) :
    (e.step s pool).session.roster.buffers.Perm
      ((e.taken s pool).map (·.2) ++ if e.frees then [] else s.roster.buffers) := by
  by_cases frees : e.frees = true
  · obtain rfl : e = .free := by cases e <;> simp_all [Section.frees]
    obtain ⟨lease, _, freed⟩ := s.free_session pool
    simp only [Section.step, freed, Roster.buffers_withoutBuffers]
    exact .refl _
  · simp only [frees]
    exact (s.step_change pool e).buffers owned opened (by simpa using frees) pool

theorem play_buffers (orderly : s.Owned ∧ s.Staged) (history : List Section)
    (opened : ¬ (Session.play history s pool).session.Past) :
    (Session.play history s pool).session.roster.buffers.Perm
      ((kept history s pool).map (·.2) ++
        if history.any Section.frees then [] else s.roster.buffers) := by
  induction history generalizing s pool with
  | nil => exact .refl _
  | cons e rest ih =>
    -- No way leads back from a decode or an abort, so the session was open all along.
    have before : ¬ (e.step s pool).session.Past := fun past => opened (past.play rest _)
    have first := step_buffers orderly.1 e before
    have others := ih (orderly_step e s pool orderly) opened
    simp only [Session.play, kept, List.any_cons]
    by_cases later : rest.any Section.frees = true
    · simpa [later] using others
    · simp only [later, Bool.false_eq_true, ↓reduceIte, Bool.or_false] at others ⊢
      rw [List.map_append, List.append_assoc]
      exact others.trans ((first.append_left _).trans (List.perm_append_comm_assoc _ _ _))

theorem Change.successes {after : Session} {e : Section} {told : List Notice}
    (change : Change s e after told) (pool : Pool) :
    after.successes = s.successes + (e.taken s pool).length := by
  cases change with
  | still refused => rw [taken_of_refused refused, List.length_nil, Nat.add_zero]
  | received pending may => rw [taken_of_loaded pending may, List.length_singleton]
  | completed pending may => rw [taken_of_loaded pending may, List.length_singleton]
  | _ => rfl

theorem play_successes (history : List Section) (s : Session) (pool : Pool) :
    (Session.play history s pool).session.successes =
      s.successes + (taken history s pool).length := by
  induction history generalizing s pool with
  | nil => rfl
  | cons e rest ih =>
    have first := (s.step_change pool e).successes pool
    have others := ih (e.step s pool).session (e.step s pool).pool
    simp only [Session.play, taken, List.length_append]
    omega

variable {code : Code}

theorem offered_count (owned : s.Owned) :
    (s.offered.map Option.isSome).count true = s.roster.buffered := by
  rw [Roster.buffered, ← Roster.payloads_buffers owned.complete, List.length_filterMap_eq_countP,
    List.count, List.countP_map]
  congr 1
  funext payload
  simp

theorem call_widths (counted : s.Counted) (data : code.data = s.layout.data)
    (parity : code.parity = s.layout.parity) (recreate : Bool) :
    (s.callOf recreate).shards.length = code.width ∧
      (s.callOf recreate).present.length = code.width := by
  have width : s.offered.length = code.width := by
    rw [offered_length counted, Layout.width, Code.width, data, parity]
  simp [callOf, width]

theorem answer_enough (counted : s.Counted) (owned : s.Owned) (data : code.data = s.layout.data)
    (parity : code.parity = s.layout.parity) (recreate : Bool)
    (enough : s.layout.data ≤ s.roster.buffered) :
    ∃ count, (code.answer (s.callOf recreate)).result = .ok count := by
  obtain ⟨shards, present⟩ := call_widths counted data parity recreate
  have there : code.data ≤ (s.callOf recreate).present.count true := by
    rw [data]
    exact Nat.le_trans enough (Nat.le_of_eq (offered_count owned).symm)
  have long : ∀ t ∈ (s.callOf recreate).shards, 0 + s.layout.chunkSize ≤ t.length := fun t member =>
    by rw [s.callOf_even recreate t member, Nat.zero_add]
  exact Code.repair_accepted recreate (Code.refusal_none shards present there long)

theorem answer_few (counted : s.Counted) (owned : s.Owned) (data : code.data = s.layout.data)
    (parity : code.parity = s.layout.parity) (recreate : Bool)
    (few : s.roster.buffered < s.layout.data) :
    (code.answer (s.callOf recreate)).result =
      .error (.tooFewShards s.roster.buffered s.layout.data) := by
  obtain ⟨shards, present⟩ := call_widths counted data parity recreate
  have there : (s.callOf recreate).present.count true = s.roster.buffered := offered_count owned
  simp [Code.answer, Code.repair, Code.refusal?, shards, present, there, data, few]

end Session

/-- The codec is the adapter of a code, and while it works nobody aborts the session. -/
structure World.Undisturbed {ω : Type} (out : Outside ω) (code : Code) : Prop where
  answer : ∀ call (w : World ω), (out.repair call w).2 = code.answer call
  others : ∀ call (w : World ω), ∃ history : List Session.Section,
    (∀ e ∈ history, e ≠ .abort ∧ ∀ attempt, e ≠ .finishDecode attempt) ∧
      w.Evolves history (out.repair call w).1

theorem World.decode_answer {ω : Type} {out : Outside ω} {code : Code}
    (undisturbed : World.Undisturbed out code) {w : World ω} (invariant : w.session.Invariant)
    (data : code.data = w.session.layout.data) (parity : code.parity = w.session.layout.parity)
    (completed : w.session.phase = .completed) (recreate : Bool) :
    (w.session.layout.data ≤ w.session.roster.buffered → (w.decode out recreate).2 = .ok true) ∧
      (w.session.roster.buffered < w.session.layout.data → (w.decode out recreate).2 =
        .error (.tooFewShards w.session.roster.buffered w.session.layout.data)) := by
  obtain ⟨between, others, evolves⟩ :=
    undisturbed.others (w.session.callOf recreate) (w.begun recreate)
  have paired : Session.Paired between (w.begun recreate).session (w.begun recreate).pool :=
    .of_none fun e member => (others e member).2
  have calm : .abort ∉ between := fun member => (others _ member).1 rfl
  obtain ⟨job, _, _, ended⟩ := World.decode_ended out recreate w invariant.owned invariant.staged
    completed evolves paired
  rw [undisturbed.answer] at ended
  constructor
  · intro enough
    obtain ⟨count, done⟩ :=
      Session.answer_enough invariant.counted invariant.owned data parity recreate enough
    exact (ended.stored count done calm).1
  · intro few
    exact ended.failed _
      (Session.answer_few invariant.counted invariant.owned data parity recreate few)

/-- A completed session took as many payloads as there are data chunks, and has those of them
    that were not freed since. It can be decoded just when it has all of them; if some payload was
    taken and then freed, the decode finds too few. -/
theorem completed_decodes_unless_freed {target : Target} {settings : Settings} {s : Session}
    {code : Code} (made : Session.make target code.data code.parity settings = .ok s)
    {ω : Type} {w₀ w : World ω} (fresh : w₀.session = s) {history : List Session.Section}
    (ran : w₀.Evolves history w) (completed : w.session.phase = .completed) :
    (Session.taken history s w₀.pool).length = target.layout.data ∧
      w.session.roster.buffers.Perm ((Session.kept history s w₀.pool).map (·.2)) ∧
      (w.session.roster.buffered = target.layout.data ↔ ¬ Session.Freed history s w₀.pool) ∧
      w.session.roster.buffered ≤ target.layout.data ∧
      ∀ (out : Outside ω) (recreate : Bool), World.Undisturbed out code →
        (w.decode out recreate).2 =
          if w.session.roster.buffered = target.layout.data then .ok true
          else .error (.tooFewShards w.session.roster.buffered target.layout.data) := by
  obtain ⟨data, parity, newSession⟩ := Session.make_ok made
  subst fresh
  have start : w₀.session.Invariant :=
    Session.Invariant.make (by have := code.data_pos; omega) made
  have invariant : w.session.Invariant :=
    ran.keeps (fun e _ pool held => held.step e pool) start
  have layout : w.session.layout = target.layout := by rw [Session.layout, ran.target, newSession]
  have all : (Session.taken history w₀.session w₀.pool).length = target.layout.data := by
    have counts := Session.play_successes history w₀.session w₀.pool
    have none : w₀.session.successes = 0 := by rw [newSession]
    have enough := (invariant.counted.decided (.inl completed)).1
    rw [← ran.session, enough, layout, none] at counts
    omega
  have buffers : w.session.roster.buffers.Perm
      ((Session.kept history w₀.session w₀.pool).map (·.2)) := by
    have opened : ¬ w.session.Past := fun past => past.2 completed
    have bare : w₀.session.roster.buffers = [] := by
      rw [newSession]
      exact Session.buffers_bare fun c member => (Session.make_absent _ _ c member).2
    rw [ran.session] at opened ⊢
    simpa [bare] using Session.play_buffers ⟨start.owned, start.staged⟩ history opened
  have size : w.session.roster.buffered = (Session.kept history w₀.session w₀.pool).length := by
    rw [Roster.buffered, buffers.length_eq, List.length_map]
  have few := Session.kept_length_le history w₀.session w₀.pool
  refine ⟨all, buffers, ?_, by omega, ?_⟩
  · constructor
    · intro full freed
      have fewer := Session.kept_lt_of_freed freed
      omega
    · intro unfreed
      rw [size, Session.kept_of_unfreed unfreed, all]
  · intro out recreate undisturbed
    obtain ⟨decodes, fails⟩ := World.decode_answer undisturbed invariant
      (by rw [data, layout]) (by rw [parity, layout]) completed recreate
    rw [layout] at decodes fails
    split
    · exact decodes (by omega)
    · exact fails (by omega)

/-- A data chunk fails, another is late; the two payloads that arrived are enough. -/
theorem completed_decodes_unless_freed_lost_data :
    let code : Code := ⟨2, 1, by decide, by decide, by decide⟩
    let target : Target := ⟨"vol:file", 42, ⟨2, 1, 1, 0⟩, .empty, ⟨[]⟩⟩
    let out : Outside Unit :=
      { notify := fun _ w => w
        send := fun _ _ _ w => (w, none)
        repair := fun call w => (w, code.answer call) }
    let s : Session := ⟨target, none, .pending, .make target.layout 42, 0, 0, none, none⟩
    let w₀ : World Unit := ⟨s, .make .standard, [], [], ()⟩
    let b : Buffer := .unpooled [7] 1
    let w := World.performAll out [.free, .fail 0, .receive 1 b, .receive 2 b] w₀
    w.session.phase = .completed ∧ w.session.roster.buffered = 2 ∧
      (w.decode out false).2 = .ok true ∧ (w.decode out true).2 = .ok true := by
  intro code target out s w₀ b w
  have made : Session.make target code.data code.parity .standard = .ok s := by decide +kernel
  have completed : w.session.phase = .completed := by decide +kernel
  have two : w.session.roster.buffered = 2 := by decide +kernel
  have ran : w₀.Evolves [.free, .fail 0, .receive 1 b, .receive 2 b] w :=
    ⟨by decide +kernel, by decide +kernel, by decide +kernel⟩
  have undisturbed : World.Undisturbed out code :=
    ⟨fun _ _ => rfl, fun _ w => ⟨[], by simp, .refl w⟩⟩
  obtain ⟨_, _, _, _, decodes⟩ := completed_decodes_unless_freed made rfl ran completed
  have full : w.session.roster.buffered = target.layout.data := two
  have decoded := fun recreate => (decodes out recreate undisturbed).trans (if_pos full)
  exact ⟨completed, two, decoded false, decoded true⟩

/-- A payload is freed before the last one arrives: the session completes and says so, but it has
    one payload where two are needed, and no decode can succeed. -/
theorem completed_with_too_few_payloads :
    let code : Code := ⟨2, 1, by decide, by decide, by decide⟩
    let target : Target := ⟨"vol:file", 42, ⟨2, 1, 1, 0⟩, .empty, ⟨[]⟩⟩
    let out : Outside Unit :=
      { notify := fun _ w => w
        send := fun _ _ _ w => (w, none)
        repair := fun call w => (w, code.answer call) }
    let s : Session := ⟨target, none, .pending, .make target.layout 42, 0, 0, none, none⟩
    let b : Buffer := .unpooled [7] 1
    let w := World.performAll out [.receive 0 b, .free, .receive 1 b]
      (⟨s, .make .standard, [], [], ()⟩ : World Unit)
    Session.make target 2 1 .standard = .ok s ∧ w.session.phase = .completed ∧
      w.notices = [.recoverable 42] ∧ w.session.roster.buffered = 1 ∧
      ∀ recreate, (w.decode out recreate).2 = .error (.tooFewShards 1 2) := by
  decide +kernel

end StripeRecovery
