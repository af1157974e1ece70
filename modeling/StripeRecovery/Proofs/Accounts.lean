import StripeRecovery.Proofs.DecodeBuffers
import StripeRecovery.Proofs.Invariant

/-!
The books of a pool. What it handed out and did not get back is with its users; so each use
of the pool, and each section of a session, is judged by the buffers its user has before and
after.
-/
namespace StripeRecovery

def Buffer.Outgrown (b : Buffer) (size : Nat) : Prop := b.length < size ∧ b.capacity < size

instance (b : Buffer) (size : Nat) : Decidable (b.Outgrown size) :=
  inferInstanceAs (Decidable (_ ∧ _))

def tied (bs : List Buffer) : Nat := bs.countP (·.pooled)

@[simp] theorem tied_nil : tied [] = 0 := rfl

theorem tied_cons (b : Buffer) (bs : List Buffer) : tied (b :: bs) = tied [b] + tied bs := by
  simp only [tied, List.countP_cons, List.countP_nil]
  omega

theorem tied_append (bs cs : List Buffer) : tied (bs ++ cs) = tied bs + tied cs :=
  List.countP_append

theorem Buffer.shorten_pooled (b : Buffer) (length : Nat) :
    (b.shorten length).pooled = b.pooled := by
  unfold Buffer.shorten
  split <;> rfl

theorem Buffer.shorten_capacity (b : Buffer) (length : Nat) :
    (b.shorten length).capacity = b.capacity := by
  unfold Buffer.shorten
  split <;> rfl

theorem tied_same {b c : Buffer} (same : b.pooled = c.pooled) : tied [b] = tied [c] := by
  simp [tied, same]

namespace Pool

/-- The users of the pool have `n` of its buffers. -/
def Lent (p : Pool) (n : Nat) : Prop := p.counts.allocated = p.counts.released + n

instance (p : Pool) (n : Nat) : Decidable (p.Lent n) :=
  inferInstanceAs (Decidable (p.counts.allocated = p.counts.released + n))

variable {p : Pool} {n : Nat}

theorem store_counts (p : Pool) (s : Storage) : (p.store s).counts = p.counts := by
  unfold store
  split
  · split
    · rfl
    · simp only
      split <;> rfl
  · rfl

theorem release_counts (p : Pool) (b : Buffer) :
    (p.release b).counts = { p.counts with released := p.counts.released + tied [b] } := by
  by_cases pooled : b.pooled = true
  · simp [release, store_counts, tied, pooled]
  · simp [release, tied, pooled]

theorem releaseAll_counts (p : Pool) (bs : List Buffer) :
    (p.releaseAll bs).counts = { p.counts with released := p.counts.released + tied bs } := by
  induction bs generalizing p with
  | nil => rfl
  | cons b rest ih =>
    have others := ih (p.release b)
    rw [release_counts, Nat.add_assoc, ← tied_cons] at others
    exact others

theorem Lent.release {b : Buffer} (lent : p.Lent (n + tied [b])) : (p.release b).Lent n := by
  simp only [Lent, release_counts] at lent ⊢
  omega

theorem Lent.releaseAll {bs : List Buffer} (lent : p.Lent (n + tied bs)) :
    (p.releaseAll bs).Lent n := by
  simp only [Lent, releaseAll_counts] at lent ⊢
  omega

theorem Lent.detach {b : Buffer} (lent : p.Lent (n + tied [b])) : (p.detach b).Lent n := by
  by_cases pooled : b.pooled = true
  · simp only [Lent, Pool.detach, tied, pooled, ↓reduceIte, List.countP_singleton] at lent ⊢
    omega
  · simpa [Lent, Pool.detach, tied, pooled] using lent

theorem allocate_pooled (p : Pool) (size : Nat) : (p.allocate size).2.pooled = true := rfl

def Ready (p : Pool) (size : Nat) : Prop := ∃ c, p.settings.classFor? size = some c ∧ p.shelf c ≠ []

theorem take_cases (p : Pool) (size : Nat) :
    (∃ c s rest, p.settings.classFor? size = some c ∧ p.shelf c = s :: rest ∧
      p.take size = (claim { p with
          shelves := setShelf c rest p.shelves
          counts := { p.counts with
            allocated := p.counts.allocated + 1
            hits := p.counts.hits + 1 } } (grownTo s.capacity size),
        ⟨s.cells, grownTo s.capacity size⟩)) ∨
    (¬ p.Ready size ∧ p.take size = (claim { p with
          counts := { p.counts with
            allocated := p.counts.allocated + 1
            misses := p.counts.misses + 1 } } (p.settings.roomFor size),
        ⟨[], p.settings.roomFor size⟩)) := by
  unfold take Ready
  cases p.settings.classFor? size with
  | none => exact .inr ⟨by simp, rfl⟩
  | some c =>
    cases idle : p.shelf c with
    | nil => exact .inr ⟨by simp [idle], by simp only [idle]⟩
    | cons s rest => exact .inl ⟨c, s, rest, rfl, idle, by simp only [idle]⟩

theorem allocate_eq (p : Pool) (size : Nat) : p.allocate size =
    ((p.take size).1, blank size (p.take size).2.capacity (p.take size).2.cells) := rfl

theorem allocate_counts (p : Pool) (size : Nat) :
    (p.allocate size).1.counts.allocated = p.counts.allocated + 1 ∧
      (p.allocate size).1.counts.released = p.counts.released := by
  rw [allocate_eq]
  rcases p.take_cases size with ⟨_, _, _, _, _, taken⟩ | ⟨_, taken⟩
  · rw [taken]
    exact ⟨rfl, rfl⟩
  · rw [taken]
    exact ⟨rfl, rfl⟩

theorem Lent.allocate (lent : p.Lent n) (size : Nat) :
    (p.allocate size).1.Lent (n + tied [(p.allocate size).2]) := by
  have one : tied [(p.allocate size).2] = 1 := by simp [tied, allocate_pooled]
  have counts := p.allocate_counts size
  simp only [Lent] at lent ⊢
  omega

theorem Lent.adopt (lent : p.Lent n) (bytes : List UInt8) (capacity : Nat) :
    (p.adopt bytes capacity).1.Lent (n + tied [(p.adopt bytes capacity).2]) := by
  simp only [Lent, Pool.adopt, tied, List.countP_singleton, ↓reduceIte] at lent ⊢
  omega

theorem extend_cases (p : Pool) (b : Buffer) (size : Nat) :
    (¬ b.Outgrown size ∧ (p.extend b size).1 = p ∧ (p.extend b size).2.pooled = b.pooled ∧
      (p.extend b size).2.capacity = b.capacity) ∨
    (b.Outgrown size ∧ b.pooled = true ∧
      (p.extend b size).1 = (p.allocate size).1.release b ∧
      (p.extend b size).2.pooled = (p.allocate size).2.pooled ∧
      (p.extend b size).2.capacity = (p.allocate size).2.capacity) ∨
    (b.Outgrown size ∧ b.pooled = false ∧ (p.extend b size).1 = p.claim size ∧
      (p.extend b size).2.pooled = false ∧ size ≤ (p.extend b size).2.capacity) := by
  unfold extend Buffer.Outgrown
  split
  · exact .inl ⟨by omega, rfl, rfl, rfl⟩
  · split
    · exact .inl ⟨by omega, rfl, rfl, rfl⟩
    · have outgrown : b.length < size ∧ b.capacity < size := by omega
      by_cases pooled : b.pooled = true
      · rw [if_pos pooled]
        exact .inr (.inl ⟨outgrown, pooled, rfl, rfl, rfl⟩)
      · rw [if_neg pooled]
        exact .inr (.inr ⟨outgrown, by simpa using pooled, rfl, rfl, Nat.le_max_left size _⟩)

theorem extend_pooled (p : Pool) (b : Buffer) (size : Nat) :
    (p.extend b size).2.pooled = b.pooled := by
  rcases p.extend_cases b size with
    ⟨_, _, same, _⟩ | ⟨_, pooled, _, fresh, _⟩ | ⟨_, unpooled, _, outside, _⟩
  · exact same
  · rw [fresh, pooled]
    exact p.allocate_pooled size
  · rw [outside, unpooled]

theorem Lent.extend {b : Buffer} (lent : p.Lent (n + tied [b])) (size : Nat) :
    (p.extend b size).1.Lent (n + tied [(p.extend b size).2]) := by
  rw [tied_same (p.extend_pooled b size)]
  rcases p.extend_cases b size with ⟨_, pool, _⟩ | ⟨_, pooled, pool, _⟩ | ⟨_, _, pool, _⟩
  · rwa [pool]
  · have fresh := lent.allocate size
    rw [tied_same ((p.allocate_pooled size).trans pooled.symm)] at fresh
    rw [pool]
    exact fresh.release
  · rw [pool]
    exact lent

end Pool

namespace Session
variable {pool : Pool} {n : Nat}

theorem workingBuffer_lent (size : Nat) {payload : Option Buffer}
    (lent : pool.Lent (n + tied payload.toList)) :
    (workingBuffer size payload pool).1.Lent
      (n + tied [(workingBuffer size payload pool).2]) := by
  cases payload with
  | none => exact Pool.Lent.allocate lent size
  | some b =>
    have shortened : pool.Lent (n + tied [b.shorten size]) := by
      rw [tied_same (b.shorten_pooled size)]
      exact lent
    exact shortened.extend size

theorem workingBuffers_lent (size : Nat) {payloads : List (Option Buffer)}
    (lent : pool.Lent (n + tied (payloads.filterMap id))) :
    (workingBuffers size payloads pool).1.Lent
      (n + tied (workingBuffers size payloads pool).2) := by
  induction payloads generalizing pool n with
  | nil => exact lent
  | cons payload rest ih =>
    have split : tied ((payload :: rest).filterMap id) =
        tied payload.toList + tied (rest.filterMap id) := by
      cases payload with
      | none => simp
      | some b => exact tied_cons b _
    rw [split, Nat.add_comm (tied payload.toList), ← Nat.add_assoc] at lent
    have first := workingBuffer_lent size lent
    rw [Nat.add_right_comm] at first
    have others := ih first
    rwa [Nat.add_assoc, ← tied_cons] at others

theorem putBack_tied (buffers : List Buffer) (shards : List Shard) :
    tied (putBack buffers shards) = tied buffers := by
  induction buffers generalizing shards with
  | nil => rfl
  | cons b bs ih =>
    cases shards with
    | nil => rfl
    | cons shard rest =>
      have same : (b.withBytes shard).pooled = b.pooled := rfl
      rw [putBack, tied_cons, ih, tied_same same, ← tied_cons]

def inDecode (s : Session) : List Buffer :=
  match s.job with
  | some job => job.buffers
  | none => []

def inStripe (s : Session) : List Buffer :=
  match s.lease with
  | some lease => lease.stripe.buffers
  | none => []

def possessed (s : Session) : List Buffer := s.roster.buffers ++ s.inDecode ++ s.inStripe

def Section.given : Section → List Buffer
  | .receive _ payload => [payload]
  | _ => []

end Session

namespace Roster
variable {t : Roster}

theorem buffers_map {g : Chunk → Chunk} (same : ∀ c, (g c).buffer = c.buffer) :
    (Roster.mk (t.chunks.map g)).buffers = t.buffers := by
  simp only [buffers, List.filterMap_map]
  congr 1
  funext c
  exact same c

theorem buffers_withoutBuffers (t : Roster) : t.withoutBuffers.buffers = [] := by
  simp [buffers, withoutBuffers]

theorem buffers_takePayloads (t : Roster) : t.takePayloads.1.buffers = [] := by
  simp [buffers, takePayloads]

theorem buffers_moved (t : Roster) (position : Nat) (after : ChunkStatus) :
    (t.moved position after).buffers = t.buffers := by
  cases found : t.chunks[position]? with
  | none => rw [moved, update, List.modify_eq_self (List.getElem?_eq_none_iff.mp found)]
  | some c =>
    obtain ⟨before, rest, whole, updated⟩ := update_split found
    simp only [buffers, moved, updated, whole, List.filterMap_append, List.filterMap_cons]

theorem buffers_loaded {position : Nat} {c : Chunk} (found : t.chunks[position]? = some c)
    (bare : c.buffer = none) (payload : Buffer) :
    (t.loaded position payload).buffers.Perm (payload :: t.buffers) := by
  obtain ⟨before, rest, whole, updated⟩ := update_split found
  simp only [buffers, loaded, updated, whole, List.filterMap_append, List.filterMap_cons, bare]
  exact List.perm_middle

theorem payloads_buffers (complete : ∀ c ∈ t.chunks, c.buffer ≠ none → c.state = .complete) :
    t.takePayloads.2.filterMap id = t.buffers := by
  simp only [takePayloads, buffers, List.filterMap_map]
  refine List.filterMap_congr fun c member => ?_
  by_cases owner : c.buffer = none
  · simp [payload?, owner]
  · simp [payload?, complete c member owner]

end Roster

namespace Session
variable {s : Session} {pool : Pool} {n : Nat}

theorem possessed_tied (s : Session) :
    tied s.possessed = tied s.roster.buffers + tied s.inDecode + tied s.inStripe := by
  rw [possessed, tied_append, tied_append]

theorem giveUpStripe_lent (lent : pool.Lent (n + tied s.possessed)) :
    (s.giveUpStripe pool).pool.Lent (n + tied (s.giveUpStripe pool).session.possessed) := by
  rw [possessed_tied] at lent ⊢
  unfold giveUpStripe
  cases found : s.lease with
  | none => simpa only [found, inStripe] using lent
  | some l =>
    simp only [inStripe, found] at lent
    by_cases held : l.held = true
    · by_cases viewless : l.views = 0
      · simp only [held, viewless, ↓reduceIte, inStripe, tied_nil]
        rw [← Nat.add_assoc] at lent
        exact lent.releaseAll
      · simp only [held, viewless, ↓reduceIte, inStripe]
        exact lent
    · simpa only [held, Bool.false_eq_true, ↓reduceIte, found, inStripe] using lent

theorem free_lent (lent : pool.Lent (n + tied s.possessed)) :
    (s.free pool).pool.Lent (n + tied (s.free pool).session.possessed) := by
  have given := giveUpStripe_lent lent
  rw [possessed_tied] at given ⊢
  simp only [free, inDecode, inStripe, Roster.buffers_withoutBuffers, tied_nil] at given ⊢
  refine Pool.Lent.releaseAll ?_
  convert given using 1
  omega

theorem fail_lent (lent : pool.Lent (n + tied s.possessed)) (position : Nat) :
    (s.fail pool position).pool.Lent (n + tied (s.fail pool position).session.possessed) := by
  unfold fail
  cases phase : s.phase with
  | pending =>
    rcases s.roster.move_cases position .failed with ⟨c, found, can, done⟩ | ⟨cannot, e, failed⟩
    · have moved : ∀ failures phase, pool.Lent (n + tied (possessed { s with
          roster := s.roster.moved position .failed, failures := failures, phase := phase })) := by
        intro failures phase
        rw [possessed_tied] at lent ⊢
        rwa [Roster.buffers_moved]
      by_cases few : s.failures + 1 ≤ s.layout.parity
      · simp only [done, few, ↓reduceIte]
        exact moved _ _
      · simp only [done, few, ↓reduceIte]
        exact free_lent (moved _ _)
    · simpa only [failed] using lent
  | completed => exact lent
  | decoding => exact lent
  | decoded => exact lent
  | aborted => exact lent

theorem receive_lent (owned : s.Owned) {payload : Buffer}
    (lent : pool.Lent (n + tied s.possessed + tied [payload])) (position : Nat) :
    (s.receive pool position payload).pool.Lent
      (n + tied (s.receive pool position payload).session.possessed) := by
  have loaded (may : s.roster.MayMove position .complete) (phase : Phase) :
      pool.Lent (n + tied (possessed { s with
        roster := s.roster.loaded position payload, successes := s.successes + 1,
        phase := phase })) := by
    obtain ⟨c, found, can⟩ := may
    have loaded := Roster.buffers_loaded found (owned.mover ⟨c, found, can⟩ found) payload
    have more : tied (s.roster.loaded position payload).buffers =
        tied [payload] + tied s.roster.buffers :=
      (loaded.countP_eq _).trans (tied_cons payload _)
    rw [possessed_tied] at lent ⊢
    rw [more]
    convert lent using 1
    simp only [inDecode, inStripe]
    omega
  rcases s.receive_cases pool position payload with
    ⟨_, may, _, done⟩ | ⟨_, may, _, done⟩ | ⟨_, done⟩
  · rw [done]
    exact loaded may _
  · rw [done]
    exact loaded may _
  · rw [done]
    exact lent.release

theorem dropView_lent (lent : pool.Lent (n + tied s.possessed)) :
    (s.dropView pool).pool.Lent (n + tied (s.dropView pool).session.possessed) := by
  rw [possessed_tied] at lent ⊢
  unfold dropView
  cases found : s.lease with
  | none => simpa only [found, inStripe] using lent
  | some l =>
    simp only [inStripe, found] at lent
    by_cases last : l.views ≤ 1 ∧ !l.held
    · simp only [last, and_self, ↓reduceIte, inStripe, tied_nil]
      rw [← Nat.add_assoc] at lent
      exact lent.releaseAll
    · simp only [last, ↓reduceIte, inStripe]
      exact lent

theorem beginDecode_lent (owned : s.Owned) (staged : s.Staged)
    (lent : pool.Lent (n + tied s.possessed)) (recreate : Bool) :
    (s.beginDecode pool recreate).pool.Lent
      (n + tied (s.beginDecode pool recreate).session.possessed) := by
  unfold beginDecode
  cases phase : s.phase with
  | completed =>
    obtain ⟨job, lease⟩ := staged.early (.inr phase)
    rw [possessed_tied] at lent ⊢
    simp only [inDecode, inStripe, job, lease, tied_nil, Roster.buffers_takePayloads] at lent ⊢
    rw [← Roster.payloads_buffers owned.complete] at lent
    simpa using workingBuffers_lent s.layout.chunkSize lent
  | pending => exact lent
  | decoding => exact lent
  | decoded => exact lent
  | aborted => exact lent

theorem finishDecode_lent (staged : s.Staged) (lent : pool.Lent (n + tied s.possessed))
    (attempt : Attempt RepairCount) :
    (s.finishDecode pool attempt).pool.Lent
      (n + tied (s.finishDecode pool attempt).session.possessed) := by
  unfold finishDecode
  cases found : s.job with
  | none => simpa only [found] using lent
  | some job =>
    have lease : s.lease = none := staged.working (by simp [found])
    rw [possessed_tied] at lent
    simp only [inDecode, inStripe, found, lease, tied_nil] at lent
    rw [← putBack_tied job.buffers attempt.shards] at lent
    have stopped : ∀ phase, (pool.releaseAll (putBack job.buffers attempt.shards)).Lent
        (n + tied (possessed { s with job := none, phase := phase })) := by
      intro phase
      rw [possessed_tied]
      simp only [inDecode, inStripe, lease, tied_nil]
      exact Pool.Lent.releaseAll (by convert lent using 1; omega)
    cases attempt.result with
    | error e => exact stopped _
    | ok count =>
      by_cases aborted : s.phase = .aborted
      · simp only [aborted, ↓reduceIte]
        exact aborted ▸ stopped s.phase
      · simp only [aborted, ↓reduceIte]
        rw [possessed_tied]
        simp only [inDecode, inStripe, tied_nil]
        convert lent using 1
        omega

theorem quiet_possessed {after : Session} {e : Section} {told : List Notice}
    (change : Change s e after told)
    (quiet : e = .request ∨ (∃ position, e = .external position) ∨ ∃ position, e = .view position) :
    tied after.possessed = tied s.possessed := by
  rw [possessed_tied, possessed_tied]
  cases change with
  | still => rfl
  | requested =>
    rw [Roster.requested, Roster.buffers_map]
    · rfl
    · intro c
      split <;> rfl
  | external => exact congrArg (tied · + _ + _) (Roster.buffers_moved _ _ _)
  | viewed found => simp only [inDecode, inStripe, found]
  | _ => simp at quiet

theorem step_lent (owned : s.Owned) (staged : s.Staged) {e : Section}
    (own : ∀ after, e ≠ .elsewhere after)
    (lent : pool.Lent (n + tied s.possessed + tied e.given)) :
    (e.step s pool).pool.Lent (n + tied (e.step s pool).session.possessed) := by
  cases e with
  | request =>
    rw [quiet_possessed (s.step_change pool .request) (.inl rfl)]
    exact lent
  | fail position => exact fail_lent lent position
  | receive position payload => exact receive_lent owned lent position
  | external position =>
    have same := quiet_possessed (s.external_change pool position) (.inr (.inl ⟨_, rfl⟩))
    have pool_same : ((Section.external position).step s pool).pool = pool := by
      simp only [Section.step]
      split <;> rfl
    rw [same, pool_same]
    exact lent
  | repair position => exact lent
  | abort => exact free_lent (s := { s with phase := .aborted }) lent
  | free => exact free_lent lent
  | view position =>
    rw [quiet_possessed (s.step_change pool (.view position)) (.inr (.inr ⟨_, rfl⟩))]
    exact lent
  | dropView => exact dropView_lent lent
  | beginDecode recreate => exact beginDecode_lent owned staged lent recreate
  | finishDecode attempt => exact finishDecode_lent staged lent attempt
  | elsewhere after => exact absurd rfl (own after)

end Session
end StripeRecovery
