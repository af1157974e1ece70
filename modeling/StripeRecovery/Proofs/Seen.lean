import StripeRecovery.Proofs.Visible

/-!
What is seen of a session. Every section goes by what it sees alone: it answers the same and
leaves the same to be seen, whatever lies unseen in the storage of buffers or idle in the pool.
-/
namespace StripeRecovery

namespace Buffer

@[simp]
theorem visible_visible (b : Buffer) : b.visible.visible = b.visible := rfl

@[simp]
theorem visible_comp : visible ∘ visible = visible := rfl

@[simp]
theorem map_visible_visible (bs : List Buffer) :
    (bs.map visible).map visible = bs.map visible := by
  simp

end Buffer

def Chunk.visible (c : Chunk) : Chunk := { c with buffer := c.buffer.map Buffer.visible }

namespace Roster

def visible (t : Roster) : Roster := ⟨t.chunks.map Chunk.visible⟩

variable (t : Roster) (position : Nat)

@[simp]
theorem visible_visible : t.visible.visible = t.visible := by
  simp [visible, Chunk.visible, Function.comp_def]

@[simp]
theorem visible_width : t.visible.width = t.width := by
  simp [visible, width]

theorem visible_positionsOf (state : ChunkStatus) :
    t.visible.positionsOf state = t.positionsOf state := by
  simp [visible, positionsOf, List.filter_map, Function.comp_def, Chunk.visible]

theorem visible_update {f g : Chunk → Chunk} (same : ∀ c, (f c).visible = g c.visible) :
    (t.update position f).visible = t.visible.update position g := by
  suffices same : ∀ i, (t.update position f).visible.chunks[i]? =
      (t.visible.update position g).chunks[i]? from
    congrArg Roster.mk (List.ext_getElem? same)
  intro i
  simp only [visible, update, List.getElem?_map, List.getElem?_modify]
  cases t.chunks[i]? with
  | none => rfl
  | some c => by_cases here : position = i <;> simp [here, same]

theorem visible_move (after : ChunkStatus) :
    t.visible.move position after =
      (t.move position after).map fun done => (done.1.visible, done.2) := by
  have updated : (t.update position fun c => { c with state := after }).visible =
      t.visible.update position fun c => { c with state := after } :=
    t.visible_update position fun _ => rfl
  unfold move get
  rw [visible_width, visible, List.getElem?_map]
  cases t.chunks[position]? with
  | none => rfl
  | some c =>
    have state : c.visible.state = c.state := rfl
    simp only [Option.map_some, state]
    split
    · exact congrArg (fun left => Except.ok (left, c.state)) updated.symm
    · rfl

theorem visible_complete (payload : Buffer) :
    t.visible.complete position payload.visible = (t.complete position payload).map visible := by
  unfold complete
  rw [visible_move]
  cases t.move position .complete with
  | error e => rfl
  | ok done =>
    have attached := done.1.visible_update position
      (f := fun c => { c with buffer := some payload })
      (g := fun c => { c with buffer := some payload.visible }) fun _ => rfl
    exact congrArg Except.ok attached.symm

theorem visible_buffers : t.visible.buffers = t.buffers.map Buffer.visible := by
  simp only [visible, buffers, List.filterMap_map, List.map_filterMap]
  rfl

theorem visible_withoutBuffers : t.visible.withoutBuffers = t.withoutBuffers := by
  simp [visible, withoutBuffers, Function.comp_def, Chunk.visible]

theorem visible_takePayloads : t.visible.takePayloads =
    (t.takePayloads.1, t.takePayloads.2.map (Option.map Buffer.visible)) := by
  have payload : ∀ c : Chunk, payload? c.visible = (payload? c).map Buffer.visible := by
    intro c
    by_cases complete : c.state = .complete <;> simp [payload?, Chunk.visible, complete]
  simp only [takePayloads, visible, List.map_map, Function.comp_def, payload]
  rfl

end Roster

def DecodeJob.visible (j : DecodeJob) : DecodeJob :=
  { j with buffers := j.buffers.map Buffer.visible }

def Lease.visible (l : Lease) : Lease :=
  { l with stripe := { l.stripe with buffers := l.stripe.buffers.map Buffer.visible } }

@[simp]
theorem DecodeJob.visible_comp : DecodeJob.visible ∘ DecodeJob.visible = DecodeJob.visible := by
  funext j
  simp [visible]

@[simp]
theorem Lease.visible_comp : Lease.visible ∘ Lease.visible = Lease.visible := by
  funext l
  simp [visible]

namespace Session

/-- All of a session but what lies unseen behind the bytes of its buffers. -/
def visible (s : Session) : Session :=
  { s with
    roster := s.roster.visible
    job := s.job.map DecodeJob.visible
    lease := s.lease.map Lease.visible }

@[simp]
theorem visible_visible (s : Session) : s.visible.visible = s.visible := by
  simp [visible]

end Session

structure Step.Like {α : Type} (a b : Step α) : Prop where
  session : a.session.visible = b.session.visible
  pool : a.pool.Like b.pool
  answer : a.answer = b.answer

namespace Pool.Like
variable {p q r : Pool}

theorem symm (like : p.Like q) : q.Like p :=
  ⟨like.settings.symm, like.allocated.symm, like.released.symm, like.shelved', like.shelved⟩

theorem trans (first : p.Like q) (second : q.Like r) : p.Like r :=
  ⟨first.settings.trans second.settings, first.allocated.trans second.allocated,
    first.released.trans second.released, first.shelved, second.shelved'⟩

end Pool.Like

namespace Step.Like
variable {α : Type} {a b c : Step α}

theorem symm (like : a.Like b) : b.Like a :=
  ⟨like.session.symm, like.pool.symm, like.answer.symm⟩

theorem trans (first : a.Like b) (second : b.Like c) : a.Like c :=
  ⟨first.session.trans second.session, first.pool.trans second.pool,
    first.answer.trans second.answer⟩

theorem map {β : Type} (like : a.Like b) (f : α → β) :
    (⟨a.session, a.pool, f a.answer⟩ : Step β).Like ⟨b.session, b.pool, f b.answer⟩ :=
  ⟨like.session, like.pool, congrArg f like.answer⟩

end Step.Like

namespace Session
variable (s : Session) {t : Session} {p q : Pool} {α : Type}

/-- What goes by what is seen does the same for sessions that look the same. -/
theorem like_of_visible {f : Session → Pool → Step α}
    (seen : ∀ s p q, p.Like q → (f s p).Like (f s.visible q)) (same : s.visible = t.visible)
    (like : p.Like q) : (f s p).Like (f t q) := by
  have first := seen s p p (.refl like.shelved)
  have second := seen t q p like.symm
  rw [same] at first
  exact first.trans second.symm

theorem giveUpStripe_visible (like : p.Like q) :
    (s.giveUpStripe p).Like (s.visible.giveUpStripe q) := by
  have seen : s.visible.lease = s.lease.map Lease.visible := rfl
  unfold giveUpStripe
  rw [seen]
  cases lease : s.lease with
  | none => exact ⟨s.visible_visible.symm, like, rfl⟩
  | some l =>
    have buffers : l.visible.stripe.buffers = l.stripe.buffers.map Buffer.visible := rfl
    have held : l.visible.held = l.held := rfl
    have views : l.visible.views = l.views := rfl
    simp only [Option.map_some, buffers, held, views, List.length_map]
    split
    · split
      · refine ⟨by simp [visible], ?_, rfl⟩
        exact like.releaseAll (Buffer.map_visible_visible _).symm
      · refine ⟨?_, like, rfl⟩
        simp [visible, Lease.visible]
    · exact ⟨s.visible_visible.symm, like, rfl⟩

theorem free_visible (like : p.Like q) : (s.free p).Like (s.visible.free q) := by
  have given := s.giveUpStripe_visible like
  have rosters : (s.giveUpStripe p).session.roster.visible =
      (s.visible.giveUpStripe q).session.roster.visible := congrArg (·.roster) given.session
  have buffers : (s.giveUpStripe p).session.roster.buffers.map Buffer.visible =
      (s.visible.giveUpStripe q).session.roster.buffers.map Buffer.visible := by
    rw [← Roster.visible_buffers, ← Roster.visible_buffers, rosters]
  have bare : (s.giveUpStripe p).session.roster.withoutBuffers =
      (s.visible.giveUpStripe q).session.roster.withoutBuffers := by
    rw [← Roster.visible_withoutBuffers, rosters, Roster.visible_withoutBuffers]
  refine ⟨?_, given.pool.releaseAll buffers, ?_⟩
  · have same := given.session
    simp only [visible, Session.mk.injEq] at same
    obtain ⟨target, limit, phase, _, successes, failures, job, lease⟩ := same
    simp only [free, visible, bare, target, limit, phase, successes, failures, job, lease]
  · have count := congrArg List.length buffers
    simp only [List.length_map] at count
    simp only [free, count, given.answer]

theorem request_visible : s.visible.request = (s.request.1.visible, s.request.2) := by
  have mark : ∀ c : Chunk, (if c.visible.state = .absent then
      { c.visible with state := ChunkStatus.requested } else c.visible) =
      Chunk.visible (if c.state = .absent then { c with state := .requested } else c) := by
    intro c
    have state : c.visible.state = c.state := rfl
    rw [state]
    split <;> rfl
  have phase : s.visible.phase = s.phase := rfl
  have positions : s.visible.roster.positionsOf .absent = s.roster.positionsOf .absent :=
    s.roster.visible_positionsOf .absent
  unfold request
  rw [phase, positions]
  split
  · simp only [visible, Roster.visible, List.map_map, Function.comp_def, mark]
  · rfl

theorem fail_visible (position : Nat) (like : p.Like q) :
    (s.fail p position).Like (s.visible.fail q position) := by
  have phase : s.visible.phase = s.phase := rfl
  have failures : s.visible.failures = s.failures := rfl
  have layout : s.visible.layout = s.layout := rfl
  have still : s.visible = s.visible.visible := s.visible_visible.symm
  have moved : s.visible.roster.move position .failed =
      (s.roster.move position .failed).map fun done => (done.1.visible, done.2) :=
    s.roster.visible_move position .failed
  unfold fail
  rw [phase, moved, failures, layout]
  cases s.phase with
  | pending =>
    cases s.roster.move position .failed with
    | error e => exact ⟨still, like, rfl⟩
    | ok done =>
      simp only [Except.map]
      split
      · exact ⟨by simp [visible], like, rfl⟩
      · let lost : Session :=
          { s with roster := done.1, failures := s.failures + 1, phase := .aborted }
        have freed := lost.free_visible like
        exact ⟨freed.session, freed.pool, rfl⟩
  | completed => exact ⟨still, like, rfl⟩
  | decoding => exact ⟨still, like, rfl⟩
  | decoded => exact ⟨still, like, rfl⟩
  | aborted => exact ⟨still, like, rfl⟩

theorem receive_visible (position : Nat) (payload : Buffer) (like : p.Like q) :
    (s.receive p position payload).Like (s.visible.receive q position payload.visible) := by
  have phase : s.visible.phase = s.phase := rfl
  have successes : s.visible.successes = s.successes := rfl
  have layout : s.visible.layout = s.layout := rfl
  have still : s.visible = s.visible.visible := s.visible_visible.symm
  have released := like.release (show payload.pooled = payload.visible.pooled from rfl)
  have loaded : s.visible.roster.complete position payload.visible =
      (s.roster.complete position payload).map Roster.visible :=
    s.roster.visible_complete position payload
  unfold receive
  rw [phase, loaded, successes, layout]
  split
  · cases s.roster.complete position payload with
    | error e => exact ⟨still, released, rfl⟩
    | ok roster =>
      simp only [Except.map]
      split
      · exact ⟨by simp [visible], like, rfl⟩
      · exact ⟨by simp [visible], like, rfl⟩
  · exact ⟨still, released, rfl⟩

theorem external_visible (position : Nat) :
    s.visible.external position = (s.external position).map visible := by
  have width : s.visible.roster.width = s.roster.width := s.roster.visible_width
  have phase : s.visible.phase = s.phase := rfl
  have moved : s.visible.roster.move position .external =
      (s.roster.move position .external).map fun done => (done.1.visible, done.2) :=
    s.roster.visible_move position .external
  unfold external
  rw [width, phase, moved]
  split
  · rfl
  · split
    · cases s.roster.move position .external <;> rfl
    · rfl

theorem abort_visible (like : p.Like q) : (s.abort p).Like (s.visible.abort q) := by
  let given : Session := { s with phase := .aborted }
  have freed := given.free_visible like
  exact ⟨freed.session, freed.pool, rfl⟩

theorem view_visible (position : Nat) :
    s.visible.view position =
      ((s.view position).1.visible, (s.view position).2.map Buffer.visible) := by
  have width : s.visible.roster.width = s.roster.width := s.roster.visible_width
  have phase : s.visible.phase = s.phase := rfl
  have seen : s.visible.lease = s.lease.map Lease.visible := rfl
  have stripe : s.visible.stripe = s.stripe := rfl
  unfold view
  rw [width, phase, seen, stripe]
  split
  · rfl
  · cases s.phase with
    | decoded =>
      cases s.lease with
      | none => rfl
      | some l =>
        have held : l.visible.held = l.held := rfl
        have views : l.visible.views = l.views := rfl
        have filled : l.visible.stripe.filled = l.stripe.filled := rfl
        have buffers : l.visible.stripe.buffers[position]? =
            l.stripe.buffers[position]?.map Buffer.visible := List.getElem?_map
        simp only [Option.map_some, held, views, filled, buffers]
        split
        · cases l.stripe.filled[position]? with
          | none => rfl
          | some there =>
            cases l.stripe.buffers[position]? <;> cases there <;> rfl
        · rfl
    | _ => rfl

theorem dropView_visible (like : p.Like q) : (s.dropView p).Like (s.visible.dropView q) := by
  have seen : s.visible.lease = s.lease.map Lease.visible := rfl
  unfold dropView
  rw [seen]
  cases lease : s.lease with
  | none => exact ⟨s.visible_visible.symm, like, rfl⟩
  | some l =>
    have buffers : l.visible.stripe.buffers = l.stripe.buffers.map Buffer.visible := rfl
    have held : l.visible.held = l.held := rfl
    have views : l.visible.views = l.views := rfl
    simp only [Option.map_some, buffers, held, views]
    split
    · refine ⟨by simp [visible], ?_, rfl⟩
      exact like.releaseAll (Buffer.map_visible_visible _).symm
    · exact ⟨by simp [visible, Lease.visible], like, rfl⟩

theorem beginDecode_visible (recreate : Bool) (like : p.Like q) :
    (s.beginDecode p recreate).Like (s.visible.beginDecode q recreate) := by
  have phase : s.visible.phase = s.phase := rfl
  have stripe : s.visible.stripe = s.stripe := rfl
  have successes : s.visible.successes = s.successes := rfl
  have layout : s.visible.layout = s.layout := rfl
  have still : s.visible = s.visible.visible := s.visible_visible.symm
  have payloads : s.visible.roster.takePayloads =
      (s.roster.takePayloads.1, s.roster.takePayloads.2.map (Option.map Buffer.visible)) :=
    s.roster.visible_takePayloads
  unfold beginDecode
  rw [phase, stripe, successes, layout, payloads]
  cases s.phase with
  | completed =>
    have same : s.roster.takePayloads.2.map (Option.map Buffer.visible) =
        (s.roster.takePayloads.2.map (Option.map Buffer.visible)).map
          (Option.map Buffer.visible) := by
      simp [Function.comp_def]
    obtain ⟨pool, buffers⟩ := workingBuffers_like like s.layout.chunkSize same
    have present : (s.roster.takePayloads.2.map (Option.map Buffer.visible)).map Option.isSome =
        s.roster.takePayloads.2.map Option.isSome := by
      simp [Function.comp_def]
    refine ⟨?_, pool, ?_⟩
    · simp [visible, DecodeJob.visible, buffers]
    · have bytes := congrArg (List.map (·.bytes)) buffers
      simp only [List.map_map, Function.comp_def, Buffer.visible] at bytes
      simp only [bytes, present]
  | pending => exact ⟨still, like, rfl⟩
  | decoding => exact ⟨still, like, rfl⟩
  | decoded => exact ⟨still, like, rfl⟩
  | aborted => exact ⟨still, like, rfl⟩

theorem finishDecode_visible (attempt : Attempt RepairCount) (like : p.Like q) :
    (s.finishDecode p attempt).Like (s.visible.finishDecode q attempt) := by
  have phase : s.visible.phase = s.phase := rfl
  have stripe : s.visible.stripe = s.stripe := rfl
  have layout : s.visible.layout = s.layout := rfl
  have seen : s.visible.job = s.job.map DecodeJob.visible := rfl
  unfold finishDecode
  rw [seen]
  cases s.job with
  | none => exact ⟨s.visible_visible.symm, like, rfl⟩
  | some under =>
    have present : under.visible.present = under.present := rfl
    have buffers : (putBack under.buffers attempt.shards).map Buffer.visible =
        (putBack under.visible.buffers attempt.shards).map Buffer.visible :=
      putBack_visible (Buffer.map_visible_visible _).symm attempt.shards
    have released := like.releaseAll buffers
    simp only [Option.map_some, phase, present]
    cases attempt.result with
    | error e => exact ⟨by simp [visible], released, rfl⟩
    | ok count =>
      dsimp only
      split
      · exact ⟨by simp [visible], released, rfl⟩
      · refine ⟨?_, like, rfl⟩
        simp only [visible, Option.map_none, Option.map_some, Lease.visible, buffers,
          Roster.visible_visible]
        rfl

end Session
end StripeRecovery
