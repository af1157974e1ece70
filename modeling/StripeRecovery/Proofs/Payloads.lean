import StripeRecovery.Proofs.Invariant

/-!
The payloads that a run of a session takes. Exactly their chunks are complete, and what a
chunk owns was taken for it.
-/
namespace StripeRecovery
namespace Session

def Section.taken (e : Section) (s : Session) (pool : Pool) : List (Nat × Buffer) :=
  match e with
  | .receive position payload =>
    if (s.receive pool position payload).answer.outcome = .ignored then []
    else [(position, payload)]
  | _ => []

def taken : List Section → Session → Pool → List (Nat × Buffer)
  | [], _, _ => []
  | e :: rest, s, pool =>
    e.taken s pool ++ taken rest (e.step s pool).session (e.step s pool).pool

/-- The complete chunks are those with a payload, and own it or nothing. -/
structure Holds (t : Roster) (payloads : List (Nat × Buffer)) : Prop where
  complete : ∀ i c, t.chunks[i]? = some c → (c.state = .complete ↔ ∃ b, (i, b) ∈ payloads)
  buffer : ∀ i c b, t.chunks[i]? = some c → c.buffer = some b → (i, b) ∈ payloads

variable {t : Roster} {payloads : List (Nat × Buffer)}

theorem Holds.map (holds : Holds t payloads) {f : Chunk → Chunk}
    (complete : ∀ c, (f c).state = .complete ↔ c.state = .complete)
    (buffer : ∀ c, (f c).buffer = none ∨ (f c).buffer = c.buffer) :
    Holds ⟨t.chunks.map f⟩ payloads := by
  constructor
  · intro i c found
    rw [List.getElem?_map] at found
    obtain ⟨old, was, rfl⟩ := Option.map_eq_some_iff.mp found
    rw [complete old]
    exact holds.complete i old was
  · intro i c b found owns
    rw [List.getElem?_map] at found
    obtain ⟨old, was, rfl⟩ := Option.map_eq_some_iff.mp found
    rcases buffer old with none | same
    · simp [none] at owns
    · exact holds.buffer i old b was (same ▸ owns)

theorem Holds.moved (holds : Holds t payloads) {position : Nat} {after : ChunkStatus}
    (may : t.MayMove position after) (other : after ≠ .complete) :
    Holds (t.moved position after) payloads := by
  obtain ⟨c, found, can⟩ := may
  have incomplete : c.state ≠ .complete := by
    rcases Roster.may_from can with h | h | h <;> simp [h]
  constructor
  · intro i d there
    rw [Roster.moved, Roster.update, List.getElem?_modify] at there
    obtain ⟨old, was, rfl⟩ := Option.map_eq_some_iff.mp there
    by_cases here : position = i
    · subst here
      obtain rfl : c = old := Option.some.inj (found.symm.trans was)
      simpa [other, incomplete] using holds.complete position c was
    · simpa [here] using holds.complete i old was
  · intro i d b there owns
    rw [Roster.moved, Roster.update, List.getElem?_modify] at there
    obtain ⟨old, was, rfl⟩ := Option.map_eq_some_iff.mp there
    refine holds.buffer i old b was ?_
    split at owns <;> exact owns

theorem Holds.loaded (holds : Holds t payloads) (position : Nat) (payload : Buffer) :
    Holds (t.loaded position payload) (payloads ++ [(position, payload)]) := by
  constructor
  · intro i d there
    rw [Roster.loaded, Roster.update, List.getElem?_modify] at there
    obtain ⟨old, was, rfl⟩ := Option.map_eq_some_iff.mp there
    by_cases here : position = i
    · subst here
      simp
    · simpa [here, Ne.symm here] using holds.complete i old was
  · intro i d b there owns
    rw [Roster.loaded, Roster.update, List.getElem?_modify] at there
    obtain ⟨old, was, rfl⟩ := Option.map_eq_some_iff.mp there
    by_cases here : position = i
    · subst here
      simp at owns
      simp [owns]
    · simp only [here, ↓reduceIte] at owns
      exact List.mem_append_left _ (holds.buffer i old b was owns)

theorem taken_of_loaded {s : Session} {position : Nat} (pending : s.phase = .pending)
    (may : s.roster.MayMove position .complete) (payload : Buffer) (pool : Pool) :
    (Section.receive position payload).taken s pool = [(position, payload)] := by
  rcases s.receive_cases pool position payload with ⟨_, _, _, done⟩ | ⟨_, _, _, done⟩ | ⟨cannot, _⟩
  · simp [Section.taken, done]
  · simp [Section.taken, done]
  · exact absurd may (cannot pending)

theorem taken_of_refused {s : Session} {e : Section}
    (refused : ∀ position good, e.report? = some (position, good) → s.phase = .pending →
      ¬ s.roster.MayMove position (reportedState good)) (pool : Pool) : e.taken s pool = [] := by
  cases e with
  | receive position payload =>
    have cannot := refused position true rfl
    rcases s.receive_cases pool position payload with
      ⟨pending, may, _⟩ | ⟨pending, may, _⟩ | ⟨_, done⟩
    · exact absurd may (cannot pending)
    · exact absurd may (cannot pending)
    · simp [Section.taken, done]
  | _ => rfl

theorem Holds.change {s after : Session} {e : Section} {told : List Notice}
    (holds : Holds s.roster payloads) (change : Change s e after told) (pool : Pool) :
    Holds after.roster (payloads ++ e.taken s pool) := by
  have bare : Holds s.roster.withoutBuffers payloads :=
    holds.map (fun _ => Iff.rfl) fun _ => .inl rfl
  cases change with
  | still refused => simpa [taken_of_refused refused pool] using holds
  | requested =>
    simp only [Section.taken, List.append_nil]
    refine holds.map (fun c => ?_) fun c => ?_
    · split <;> simp_all
    · split <;> exact .inr rfl
  | external pending may =>
    simp only [Section.taken, List.append_nil]
    exact holds.moved may (by simp)
  | failed pending may =>
    simp only [Section.taken, List.append_nil]
    exact holds.moved may (by simp)
  | lost pending may =>
    simp only [Section.taken, List.append_nil]
    exact (holds.moved may (by simp)).map (fun _ => Iff.rfl) fun _ => .inl rfl
  | received pending may =>
    rw [taken_of_loaded pending may]
    exact holds.loaded _ _
  | completed pending may =>
    rw [taken_of_loaded pending may]
    exact holds.loaded _ _
  | aborted => simpa only [Section.taken, List.append_nil] using bare
  | freed => simpa only [Section.taken, List.append_nil] using bare
  | begun =>
    simp only [Section.taken, List.append_nil]
    refine holds.map (fun c => ?_) fun _ => .inl rfl
    cases c.state <;> simp [ChunkStatus.canRebuild]
  | viewed => simpa only [Section.taken, List.append_nil] using holds
  | unviewed => simpa only [Section.taken, List.append_nil] using holds
  | unleased => simpa only [Section.taken, List.append_nil] using holds
  | stopped => simpa only [Section.taken, List.append_nil] using holds
  | stored => simpa only [Section.taken, List.append_nil] using holds

theorem Holds.play {s : Session} (holds : Holds s.roster payloads) (history : List Section)
    (pool : Pool) :
    Holds (Session.play history s pool).session.roster (payloads ++ taken history s pool) := by
  induction history generalizing s pool payloads with
  | nil => simpa [Session.play, taken] using holds
  | cons e rest ih =>
    simpa [Session.play, taken] using
      ih (holds.change (s.step_change pool e) pool) (e.step s pool).pool

theorem Holds.make (layout : Layout) (stripe : Nat) : Holds (.make layout stripe) [] := by
  constructor
  · intro i c found
    simp [(make_absent layout stripe c (List.mem_of_getElem? found)).1]
  · intro i c b found owns
    simp [(make_absent layout stripe c (List.mem_of_getElem? found)).2] at owns

end Session
end StripeRecovery
