import StripeRecovery.Proofs.Accounts

/-!
What its users see of a buffer, and of the pool that it came from. Behind the bytes that a
buffer shows, its storage may hold those of an earlier user, and whether a buffer stands on used
storage at all depends on what lies idle. Nobody sees either of them.
-/
namespace StripeRecovery

namespace Buffer

/-- The buffer without what earlier use left in its storage. -/
def visible (b : Buffer) : Buffer := { b with stale := [] }

variable {b c : Buffer}

theorem visible_iff : b.visible = c.visible ↔
    b.bytes = c.bytes ∧ b.capacity = c.capacity ∧ b.pooled = c.pooled := by
  simp [visible]

theorem visible_shorten (same : b.visible = c.visible) (length : Nat) :
    (b.shorten length).visible = (c.shorten length).visible := by
  obtain ⟨bytes, capacity, pooled⟩ := visible_iff.mp same
  unfold shorten Buffer.length
  rw [bytes]
  split
  · exact visible_iff.mpr ⟨rfl, capacity, pooled⟩
  · exact same

theorem visible_withBytes (same : b.visible = c.visible) (bytes : List UInt8) :
    (b.withBytes bytes).visible = (c.withBytes bytes).visible := by
  obtain ⟨_, capacity, pooled⟩ := visible_iff.mp same
  exact visible_iff.mpr ⟨rfl, by simp only [withBytes, capacity], pooled⟩

theorem visible_fill (same : b.visible = c.visible) (byte : UInt8) :
    (b.fill byte).visible = (c.fill byte).visible := by
  obtain ⟨bytes, capacity, pooled⟩ := visible_iff.mp same
  exact visible_iff.mpr ⟨by simp only [fill, Buffer.length, bytes], capacity, pooled⟩

end Buffer

namespace Pool

def Shelved (p : Pool) : Prop := ∀ size, ∀ s ∈ p.shelf size, s.capacity = size

theorem shelf_setShelf (p : Pool) (size other : Nat) (idle : List Storage) :
    ({ p with shelves := setShelf size idle p.shelves } : Pool).shelf other =
      if other = size then idle else p.shelf other := by
  obtain ⟨settings, shelves, counts, fault⟩ := p
  induction shelves with
  | nil =>
    by_cases here : other = size
    · simp [shelf, setShelf, here]
    · simp [shelf, setShelf, here, Ne.symm here]
  | cons s rest ih =>
    simp only [shelf, setShelf] at ih ⊢
    by_cases first : s.size = size
    · by_cases here : other = size
      · simp [first, here]
      · simp [first, here, Ne.symm here]
    · by_cases here : s.size = other
      · have apart : other ≠ size := fun same => first (here.trans same)
        simp [here, apart]
      · simpa [first, here] using ih

theorem Shelved.setShelf {p : Pool} (shelved : p.Shelved) {size : Nat} {idle : List Storage}
    (fits : ∀ s ∈ idle, s.capacity = size) :
    ({ p with shelves := Pool.setShelf size idle p.shelves } : Pool).Shelved := by
  intro other s member
  rw [shelf_setShelf] at member
  split at member
  · rename_i here
    exact (fits s member).trans here.symm
  · exact shelved other s member

theorem Shelved.make (settings : PoolSettings) : (Pool.make settings).Shelved := by
  intro size s member
  simp [Pool.make, shelf] at member

theorem Shelved.store {p : Pool} (shelved : p.Shelved) (s : Storage) : (p.store s).Shelved := by
  unfold Pool.store
  split
  · split
    · exact shelved
    · dsimp only
      split
      · refine shelved.setShelf fun t member => ?_
        rcases List.mem_append.mp member with idle | new
        · exact shelved _ t idle
        · rw [List.mem_singleton.mp new]
      · exact shelved
  · exact shelved

theorem Shelved.counted {p : Pool} (shelved : p.Shelved) (counts : PoolCounts)
    (fault : Option PoolFault) : ({ p with counts := counts, fault := fault } : Pool).Shelved :=
  shelved

theorem Shelved.release {p : Pool} (shelved : p.Shelved) (b : Buffer) : (p.release b).Shelved := by
  unfold Pool.release
  split
  · exact (shelved.counted _ p.fault).store _
  · exact shelved

theorem allocate_visible {p : Pool} (shelved : p.Shelved) (size : Nat) :
    (p.allocate size).2.visible =
      ⟨List.replicate size 0, [], p.settings.roomFor size, true⟩ := by
  rw [allocate_eq]
  rcases p.take_cases size with ⟨c, s, rest, found, idle, taken⟩ | ⟨_, taken⟩
  · have capacity : s.capacity = c := shelved c s (by simp [idle])
    have room : p.settings.roomFor size = grownTo c size := by
      rw [PoolSettings.roomFor, found, Option.getD_some]
    rw [taken, room, ← capacity]
    rfl
  · rw [taken]
    rfl

theorem Shelved.allocate {p : Pool} (shelved : p.Shelved) (size : Nat) :
    (p.allocate size).1.Shelved := by
  rw [allocate_eq]
  rcases p.take_cases size with ⟨c, s, rest, _, idle, taken⟩ | ⟨_, taken⟩
  · rw [taken]
    exact (shelved.setShelf fun t member => shelved c t (by simp [idle, member])).counted _ _
  · rw [taken]
    exact shelved.counted _ _

theorem store_settings (p : Pool) (s : Storage) : (p.store s).settings = p.settings := by
  unfold store
  split
  · split
    · rfl
    · dsimp only
      split <;> rfl
  · rfl

theorem release_settings (p : Pool) (b : Buffer) : (p.release b).settings = p.settings := by
  unfold release
  split
  · exact store_settings _ _
  · rfl

theorem allocate_settings (p : Pool) (size : Nat) : (p.allocate size).1.settings = p.settings := by
  rw [allocate_eq]
  rcases p.take_cases size with ⟨_, _, _, _, _, taken⟩ | ⟨_, taken⟩
  · rw [taken]
    rfl
  · rw [taken]
    rfl

/-- Two pools differ at most in what lies idle, and in how often it was of use. -/
structure Like (p q : Pool) : Prop where
  settings : p.settings = q.settings
  allocated : p.counts.allocated = q.counts.allocated
  released : p.counts.released = q.counts.released
  shelved : p.Shelved
  shelved' : q.Shelved

namespace Like
variable {p q : Pool} {b c : Buffer}

theorem refl {p : Pool} (shelved : p.Shelved) : p.Like p :=
  ⟨rfl, rfl, rfl, shelved, shelved⟩

theorem release (like : p.Like q) (same : b.pooled = c.pooled) :
    (p.release b).Like (q.release c) where
  settings := by rw [release_settings, release_settings, like.settings]
  allocated := by
    rw [release_counts, release_counts]
    exact like.allocated
  released := by
    rw [release_counts, release_counts, tied_same same]
    exact congrArg (· + _) like.released
  shelved := like.shelved.release b
  shelved' := like.shelved'.release c

theorem releaseAll (like : p.Like q) {bs cs : List Buffer}
    (same : bs.map Buffer.visible = cs.map Buffer.visible) :
    (p.releaseAll bs).Like (q.releaseAll cs) := by
  induction bs generalizing p q cs with
  | nil =>
    obtain rfl : cs = [] := List.map_eq_nil_iff.mp same.symm
    exact like
  | cons b bs ih =>
    cases cs with
    | nil => simp at same
    | cons c cs =>
      obtain ⟨first, others⟩ := List.cons.inj same
      obtain ⟨_, _, pooled⟩ := Buffer.visible_iff.mp first
      exact ih (like.release pooled) others

theorem allocate (like : p.Like q) (size other : Nat) :
    (p.allocate size).1.Like (q.allocate other).1 := by
  obtain ⟨allocated, released⟩ := p.allocate_counts size
  obtain ⟨allocated', released'⟩ := q.allocate_counts other
  refine ⟨?_, ?_, ?_, like.shelved.allocate size, like.shelved'.allocate other⟩
  · rw [allocate_settings, allocate_settings, like.settings]
  · rw [allocated, allocated', like.allocated]
  · rw [released, released', like.released]

theorem allocate_visible (like : p.Like q) (size : Nat) :
    (p.allocate size).2.visible = (q.allocate size).2.visible := by
  rw [Pool.allocate_visible like.shelved, Pool.allocate_visible like.shelved', like.settings]

theorem adopt (like : p.Like q) (bytes bytes' : List UInt8) (capacity capacity' : Nat) :
    (p.adopt bytes capacity).1.Like (q.adopt bytes' capacity').1 :=
  ⟨like.settings, congrArg (· + 1) like.allocated, like.released, like.shelved.counted _ _,
    like.shelved'.counted _ _⟩

theorem detach (like : p.Like q) (same : b.pooled = c.pooled) :
    (p.detach b).Like (q.detach c) := by
  unfold Pool.detach
  rw [same]
  split
  · exact ⟨like.settings, like.allocated, congrArg (· + 1) like.released, like.shelved.counted _ _,
      like.shelved'.counted _ _⟩
  · exact like

theorem extend (like : p.Like q) (same : b.visible = c.visible) (size : Nat) :
    (p.extend b size).1.Like (q.extend c size).1 ∧
      (p.extend b size).2.visible = (q.extend c size).2.visible := by
  obtain ⟨bytes, capacity, pooled⟩ := Buffer.visible_iff.mp same
  unfold Pool.extend Buffer.length
  rw [bytes, capacity, pooled]
  split
  · exact ⟨like, same⟩
  · split
    · refine ⟨like, Buffer.visible_iff.mpr ⟨?_, capacity, pooled⟩⟩
      simp only [Buffer.growInPlace, Buffer.length, bytes]
    · dsimp only
      split
      · obtain ⟨_, room, flag⟩ := Buffer.visible_iff.mp (like.allocate_visible size)
        exact ⟨(like.allocate size size).release pooled, Buffer.visible_iff.mpr ⟨rfl, room, flag⟩⟩
      · exact ⟨⟨like.settings, like.allocated, like.released, like.shelved, like.shelved'⟩, rfl⟩

end Like

end Pool

namespace Session
variable {p q : Pool}

theorem workingBuffer_like (like : p.Like q) (size : Nat) {payload payload' : Option Buffer}
    (same : payload.map Buffer.visible = payload'.map Buffer.visible) :
    (workingBuffer size payload p).1.Like (workingBuffer size payload' q).1 ∧
      (workingBuffer size payload p).2.visible = (workingBuffer size payload' q).2.visible := by
  cases payload with
  | none =>
    obtain rfl : payload' = none := by simpa using same.symm
    exact ⟨like.allocate size size, like.allocate_visible size⟩
  | some b =>
    obtain ⟨c, rfl, seen⟩ : ∃ c, payload' = some c ∧ c.visible = b.visible := by
      simpa using same.symm
    exact like.extend (Buffer.visible_shorten seen.symm size) size

theorem workingBuffers_like (like : p.Like q) (size : Nat)
    {payloads payloads' : List (Option Buffer)}
    (same : payloads.map (Option.map Buffer.visible) = payloads'.map (Option.map Buffer.visible)) :
    (workingBuffers size payloads p).1.Like (workingBuffers size payloads' q).1 ∧
      (workingBuffers size payloads p).2.map Buffer.visible =
        (workingBuffers size payloads' q).2.map Buffer.visible := by
  induction payloads generalizing p q payloads' with
  | nil =>
    obtain rfl : payloads' = [] := List.map_eq_nil_iff.mp same.symm
    exact ⟨like, rfl⟩
  | cons payload rest ih =>
    cases payloads' with
    | nil => simp at same
    | cons payload' rest' =>
      obtain ⟨first, others⟩ := List.cons.inj same
      obtain ⟨like', seen⟩ := workingBuffer_like like size first
      obtain ⟨like'', seen'⟩ := ih like' others
      exact ⟨like'', by simp only [workingBuffers, List.map_cons, seen, seen']⟩

theorem putBack_visible {bs cs : List Buffer}
    (same : bs.map Buffer.visible = cs.map Buffer.visible) (shards : List Shard) :
    (putBack bs shards).map Buffer.visible = (putBack cs shards).map Buffer.visible := by
  induction bs generalizing cs shards with
  | nil =>
    obtain rfl : cs = [] := List.map_eq_nil_iff.mp same.symm
    rfl
  | cons b bs ih =>
    cases cs with
    | nil => simp at same
    | cons c cs =>
      obtain ⟨first, others⟩ := List.cons.inj same
      cases shards with
      | nil => exact same
      | cons shard shards =>
        simp only [putBack, List.map_cons, Buffer.visible_withBytes first, ih others shards]

end Session
end StripeRecovery
