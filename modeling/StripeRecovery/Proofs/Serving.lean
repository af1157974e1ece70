import StripeRecovery.Proofs.Operations
import StripeRecovery.Proofs.Restoring

/-!
From payloads to views: a completed session hands its payloads to the codec, takes back the
stripe they came from, and serves it until it is given up.
-/
namespace StripeRecovery
namespace Session

variable {s : Session}

theorem beginDecode_call {pool : Pool} {recreate : Bool} {call : DecodeCall}
    (called : (s.beginDecode pool recreate).answer = .inr call) :
    s.phase = .completed ∧ call = s.callOf recreate ∧
      ∃ buffers : List Buffer, buffers.length = s.offered.length ∧
        (s.beginDecode pool recreate).session =
          { s with phase := .decoding, roster := s.roster.takePayloads.1,
                   job := some ⟨buffers, call.present⟩ } := by
  unfold beginDecode at called ⊢
  cases phase : s.phase with
  | completed =>
    simp only [phase, Sum.inr.injEq] at called
    subst called
    have bytes := workingBuffers_bytes s.layout.chunkSize s.offered pool
    refine ⟨rfl, ?_, _, ?_, rfl⟩
    · rw [callOf, ← bytes]
      rfl
    · have lengths := congrArg List.length bytes
      rw [List.length_map, List.length_map] at lengths
      exact lengths
  | pending => simp [phase] at called
  | decoding => simp [phase] at called
  | decoded => simp [phase] at called
  | aborted => simp [phase] at called

theorem beginDecode_answer {pool : Pool} {recreate : Bool} {answer : Except Error Bool}
    (answered : (s.beginDecode pool recreate).answer = .inl answer) : answer ≠ .ok true := by
  unfold beginDecode at answered
  cases phase : s.phase <;> simp [phase] at answered <;> simp [← answered]

/-- A decode is under way, or was given up on the way. -/
structure Working (job : DecodeJob) (target : Target) (s : Session) : Prop where
  job : s.job = some job
  target : s.target = target
  phase : s.phase = .decoding ∨ s.phase = .aborted

theorem Working.change {job : DecodeJob} {target : Target} {after : Session} {e : Section}
    {told : List Notice} (working : Working job target s)
    (other : ∀ attempt, e ≠ .finishDecode attempt) (change : Change s e after told) :
    Working job target after := by
  have notPending : s.phase ≠ .pending := by rcases working.phase with h | h <;> simp [h]
  have notCompleted : s.phase ≠ .completed := by rcases working.phase with h | h <;> simp [h]
  cases change with
  | still => exact working
  | requested pending => exact absurd pending notPending
  | external pending => exact absurd pending notPending
  | failed pending => exact absurd pending notPending
  | lost pending => exact absurd pending notPending
  | received pending => exact absurd pending notPending
  | completed pending => exact absurd pending notPending
  | aborted => exact ⟨working.job, working.target, .inr rfl⟩
  | freed => exact ⟨working.job, working.target, working.phase⟩
  | viewed => exact ⟨working.job, working.target, working.phase⟩
  | unviewed => exact ⟨working.job, working.target, working.phase⟩
  | unleased => exact ⟨working.job, working.target, working.phase⟩
  | begun completed => exact absurd completed notCompleted
  | stopped => exact absurd rfl (other _)
  | stored => exact absurd rfl (other _)

structure Keeping (rebuilt : RebuiltStripe) (s : Session) : Prop where
  phase : s.phase = .decoded
  job : s.job = none
  lease : ∃ views, s.lease = some ⟨rebuilt, true, views⟩

theorem finishDecode_true {pool : Pool} {attempt : Attempt RepairCount}
    (did : (s.finishDecode pool attempt).answer = .ok true) :
    ∃ job count, s.job = some job ∧ attempt.result = .ok count ∧
      Keeping ⟨putBack job.buffers attempt.shards, filledAfter s.layout job.present count⟩
        (s.finishDecode pool attempt).session := by
  cases found : s.job with
  | none => simp [finishDecode, found] at did
  | some job =>
    cases result : attempt.result with
    | error e => simp [finishDecode, found, result] at did
    | ok count =>
      by_cases aborted : s.phase = .aborted
      · simp [finishDecode, found, result, aborted] at did
      · refine ⟨job, count, rfl, rfl, ?_⟩
        simp only [finishDecode, found, result, aborted, ↓reduceIte]
        exact ⟨rfl, rfl, 0, rfl⟩

theorem Keeping.change {rebuilt : RebuiltStripe} {after : Session} {e : Section}
    {told : List Notice} (keeping : Keeping rebuilt s) (other : e ≠ .abort ∧ e ≠ .free)
    (change : Change s e after told) :
    Keeping rebuilt after := by
  have decoded := keeping.phase
  have idle := keeping.job
  obtain ⟨views, lease⟩ := keeping.lease
  cases change with
  | still => exact keeping
  | requested pending => simp [decoded] at pending
  | external pending => simp [decoded] at pending
  | failed pending => simp [decoded] at pending
  | lost pending => simp [decoded] at pending
  | received pending => simp [decoded] at pending
  | completed pending => simp [decoded] at pending
  | aborted => exact absurd rfl other.1
  | freed => exact absurd rfl other.2
  | viewed found =>
    obtain rfl := Option.some.inj (found.symm.trans lease)
    exact ⟨decoded, idle, _, rfl⟩
  | unviewed found =>
    obtain rfl := Option.some.inj (found.symm.trans lease)
    exact ⟨decoded, idle, _, rfl⟩
  | unleased found unheld =>
    obtain rfl := Option.some.inj (found.symm.trans lease)
    simp at unheld
  | begun completed => simp [decoded] at completed
  | stopped working => exact absurd idle working
  | stored working => exact absurd idle working

theorem Keeping.view {rebuilt : RebuiltStripe} (keeping : Keeping rebuilt s) {position : Nat}
    (inside : position < s.roster.width) :
    (∀ b, rebuilt.filled[position]? = some true → rebuilt.buffers[position]? = some b →
      (s.view position).2 = .ok b) ∧
    (rebuilt.filled[position]? ≠ some true →
      (s.view position).2 = .error (.parityNotRebuilt position)) := by
  obtain ⟨views, lease⟩ := keeping.lease
  have within : ¬ s.roster.width ≤ position := Nat.not_le.mpr inside
  constructor
  · intro b filled buffer
    simp [Session.view, within, keeping.phase, lease, filled, buffer]
  · intro unfilled
    simp only [Session.view, within, ↓reduceIte, keeping.phase, lease]
    split
    · rename_i b filled buffer
      exact absurd filled unfilled
    · rfl

end Session
namespace World
variable {ω : Type} {out : Outside ω} {code : Code}

/-- The codec is the adapter of a code; while it works, others use the session, but the decode
    is not theirs to end. -/
structure Adapts (out : Outside ω) (code : Code) : Prop where
  answer : ∀ call (w : World ω), (out.repair call w).2 = code.answer call
  others : ∀ call (w : World ω), ∃ history : List Session.Section,
    (∀ e ∈ history, ∀ attempt, e ≠ .finishDecode attempt) ∧ w.Evolves history (out.repair call w).1

theorem decode_keeps (adapts : Adapts out code) {w : World ω} {recreate : Bool}
    (decoded : (w.decode out recreate).2 = .ok true) :
    w.session.phase = .completed ∧ ∃ count buffers,
      (code.answer (w.session.callOf recreate)).result = .ok count ∧
      buffers.length = w.session.offered.length ∧
      Session.Keeping ⟨Session.putBack buffers (code.answer (w.session.callOf recreate)).shards,
        Session.filledAfter w.session.layout (w.session.callOf recreate).present count⟩
        (w.decode out recreate).1.session := by
  simp only [decode] at decoded ⊢
  cases begun : w.run fun s pool => s.beginDecode pool recreate with
  | mk u turn =>
    have session : (w.session.beginDecode w.pool recreate).session = u.session :=
      congrArg (·.1.session) begun
    have answer : (w.session.beginDecode w.pool recreate).answer = turn := congrArg (·.2) begun
    cases turn with
    | inl result =>
      rw [begun] at decoded
      exact absurd decoded (Session.beginDecode_answer answer)
    | inr call =>
      rw [begun] at decoded
      obtain ⟨completed, rfl, buffers, length, working⟩ := Session.beginDecode_call answer
      obtain ⟨history, others, evolves⟩ := adapts.others (w.session.callOf recreate) u
      have start : Session.Working ⟨buffers, (w.session.callOf recreate).present⟩ w.session.target
          u.session := by
        rw [← session, working]
        exact ⟨rfl, rfl, .inl rfl⟩
      have still := Session.play_keeps_among
        (P := Session.Working ⟨buffers, (w.session.callOf recreate).present⟩ w.session.target)
        (fun e s pool may held => held.change may (s.step_change pool e)) others start u.pool
      rw [← evolves.session] at still
      obtain ⟨job, count, found, done, keeping⟩ := Session.finishDecode_true decoded
      obtain rfl := Option.some.inj (found.symm.trans still.job)
      rw [adapts.answer] at done keeping
      have layout :
          (out.repair (w.session.callOf recreate) u).1.session.layout = w.session.layout := by
        simp only [Session.layout, still.target]
      rw [layout] at keeping
      refine ⟨completed, count, buffers, done, length, ?_⟩
      simp only [run, adapts.answer]
      exact keeping

end World

/-- A decode that did its work serves the stripe whose shards the payloads carried: every data
    chunk, every chunk that arrived, and lost parity if it was asked for or no data was lost.
    This holds after any run of sections from a new session on, whatever others did to the
    session during the decode, and until it is given up or freed. -/
theorem decode_serves_stripe {target : Target} {settings : Settings} {s : Session} {code : Code}
    (positive : 0 < target.layout.chunkSize)
    (made : Session.make target code.data code.parity settings = .ok s)
    {chunks stripe : List Shard} (count : chunks.length = code.data)
    (even : ∀ t ∈ chunks, t.length = target.layout.chunkSize)
    (encoded : code.encode chunks = .ok stripe)
    {ω : Type} {out : Outside ω} (adapts : World.Adapts out code)
    {w₀ w v : World ω} (fresh : w₀.session = s)
    {history : List Session.Section} (ran : w₀.Evolves history w)
    (faithful : Session.Faithful stripe (Session.taken history s w₀.pool))
    {recreate : Bool} (decoded : (w.decode out recreate).2 = .ok true)
    {later : List Session.Section} (stays : ∀ e ∈ later, e ≠ .abort ∧ e ≠ .free)
    (after : (w.decode out recreate).1.Evolves later v) :
    ∀ position < target.layout.width,
      (Session.Served (Session.taken history s w₀.pool) target.layout.data recreate position →
        ∃ b, (v.view position).2 = .ok b ∧ b.bytes.length = target.layout.chunkSize ∧
          stripe[position]? = some b.bytes) ∧
      (¬ Session.Served (Session.taken history s w₀.pool) target.layout.data recreate position →
        (v.view position).2 = .error (.parityNotRebuilt position)) := by
  obtain ⟨data, parity, newSession⟩ := Session.make_ok made
  subst fresh
  have start : w₀.session.Invariant :=
    Session.Invariant.make (by have := code.data_pos; omega) made
  have kept : World.Kept Session.Invariant := fun e _ pool held => held.step e pool
  have invariant := ran.keeps kept start
  have holds : Session.Holds w.session.roster (Session.taken history w₀.session w₀.pool) := by
    have empty : Session.Holds w₀.session.roster [] := by
      rw [newSession]
      exact Session.Holds.make target.layout target.stripe
    rw [ran.session]
    exact empty.play history w₀.pool
  have recovers : w.session.target = target := by rw [ran.target, newSession]
  have layout : w.session.layout = target.layout := by rw [Session.layout, recovers]
  have isStripe : code.IsStripe target.layout.chunkSize stripe := by
    obtain rfl := Except.ok.inj ((code.encode_eq positive count even).symm.trans encoded)
    exact code.encode_isStripe count even
  obtain ⟨completed, regenerated, buffers, done, length, keeping⟩ :=
    World.decode_keeps adapts decoded
  have decodes : Session.Decodes code stripe (Session.taken history w₀.session w₀.pool) w.session
      recreate regenerated :=
    { invariant, completed, holds, faithful, done
      data := by rw [layout, data]
      parity := by rw [layout, parity]
      isStripe := by rwa [layout]
      positive := by rwa [layout] }
  have still := Session.play_keeps_among (P := Session.Keeping _)
    (fun e s pool may held => held.change may (s.step_change pool e)) stays keeping
    (w.decode out recreate).1.pool
  rw [← after.session] at still
  have width : v.session.roster.width = target.layout.width := by
    obtain ⟨between, _, evolves⟩ := World.decode_works kept
      (fun call w _ => adapts.others call w) recreate invariant
    have last := after.keeps kept (evolves.keeps kept invariant)
    have same : v.session.target = target := by rw [after.target, evolves.target, recovers]
    rw [Roster.width, last.counted.width, Session.layout, same]
  rw [← layout] at isStripe width ⊢
  intro position inside
  obtain ⟨shows, refuses⟩ := still.view (show position < v.session.roster.width by rwa [width])
  have filled := decodes.filled inside
  constructor
  · intro served
    obtain ⟨size, shards⟩ := decodes.shards
    have same : buffers.length = (code.answer (w.session.callOf recreate)).shards.length := by
      rw [length, size, decodes.offers, decodes.width]
    have bytes := Session.putBack_bytes same
    obtain ⟨shard, there⟩ : ∃ shard, stripe[position]? = some shard :=
      ⟨_, List.getElem?_eq_getElem (by rw [isStripe.width, decodes.width]; exact inside)⟩
    have shown :=
      (congrArg (·[position]?) bytes).trans ((shards position inside served).trans there)
    rw [List.getElem?_map] at shown
    obtain ⟨b, buffer, rfl⟩ := Option.map_eq_some_iff.mp shown
    exact ⟨b, shows b (filled.mpr served) buffer, isStripe.even _ (List.mem_of_getElem? there),
      there⟩
  · intro unserved
    exact refuses fun is => unserved (filled.mp is)

/-- The only data chunk arrives without its zeros; the parity is made from it and served. -/
theorem decode_serves_stripe_lost_parity :
    let code : Code := ⟨1, 1, by decide, by decide, by decide⟩
    let target : Target := ⟨"vol:file", 42, ⟨1, 1, 1, 0⟩, .empty, ⟨[]⟩⟩
    let chunk : Shard := 7 :: List.replicate 1023 0
    let stripe : List Shard := [chunk] ++ code.parityOf [chunk] 1024
    let out : Outside Unit :=
      { notify := fun _ w => w
        send := fun _ _ _ w => (w, none)
        repair := fun call w => (w, code.answer call) }
    let s : Session := ⟨target, none, .pending, .make target.layout 42, 0, 0, none, none⟩
    let w : World Unit := ((⟨s, .make .standard, [], [], ()⟩ : World Unit).receive out 0
      (.unpooled [7] 1)).1
    code.encode [chunk] = .ok stripe ∧ (w.decode out false).2 = .ok true ∧
      ∃ b, (((w.decode out false).1.view 0).1.view 1).2 = .ok b ∧ b.bytes.length = 1024 ∧
        stripe[1]? = some b.bytes := by
  intro code target chunk stripe out s w
  have size : target.layout.chunkSize = 1024 := by decide
  have even : ∀ t ∈ [chunk], t.length = 1024 := by
    intro t member
    rw [List.mem_singleton.mp member, List.length_cons, List.length_replicate]
  have encoded : code.encode [chunk] = .ok stripe := code.encode_eq (by decide) rfl even
  have decoded : (w.decode out false).2 = .ok true := by decide +kernel
  have adapts : World.Adapts out code := by
    refine ⟨fun call w => rfl, fun call w => ⟨[], by simp, .refl w⟩⟩
  have received : Session.taken [.receive 0 (.unpooled [7] 1)] s (.make .standard) =
      [(0, .unpooled [7] 1)] := by
    decide +kernel
  have faithful : Session.Faithful stripe
      (Session.taken [.receive 0 (.unpooled [7] 1)] s (.make .standard)) := by
    intro position b member
    rw [received, List.mem_singleton, Prod.mk.injEq] at member
    obtain ⟨rfl, rfl⟩ := member
    exact ⟨chunk, rfl, .inl ⟨1023, rfl⟩⟩
  have ran : (⟨s, .make .standard, [], [], ()⟩ : World Unit).Evolves
      [.receive 0 (.unpooled [7] 1)] w :=
    .one (.receive 0 (.unpooled [7] 1)) rfl rfl rfl
  clear_value w
  have viewed : (w.decode out false).1.Evolves [.view 0] ((w.decode out false).1.view 0).1 :=
    .one (.view 0) rfl rfl (List.append_nil _).symm
  have made : Session.make target code.data code.parity .standard = .ok s := by decide +kernel
  have evenTarget : ∀ t ∈ [chunk], t.length = target.layout.chunkSize := by rwa [size]
  have positive : 0 < target.layout.chunkSize := by decide
  have fresh : (⟨s, .make .standard, [], [], ()⟩ : World Unit).session = s := rfl
  have stays : ∀ e ∈ [Session.Section.view 0], e ≠ .abort ∧ e ≠ .free := by simp
  have serves := decode_serves_stripe positive made rfl evenTarget encoded adapts fresh ran faithful
    decoded stays viewed 1 (by decide)
  have served : Session.Served (Session.taken [.receive 0 (.unpooled [7] 1)] s (.make .standard))
      target.layout.data false 1 := by
    rw [received]
    refine .inr (.inr (.inr fun other isData => ⟨.unpooled [7] 1, ?_⟩))
    rw [Nat.lt_one_iff.mp isData, List.mem_singleton]
  obtain ⟨b, shown, length, there⟩ := serves.1 served
  exact ⟨encoded, decoded, b, shown, length.trans size, there⟩

end StripeRecovery
