import StripeRecovery.Proofs.Decision
import StripeRecovery.Proofs.Decodable
import StripeRecovery.Proofs.Detection

/-!
Chunks that are shorter than the chunk size of their layout. Zeros behind the shards of a
stripe make them the stripe of the padded chunks, column by column. So a session may be given
the short shards as they are, of data and of parity positions, and serves the padded ones.
-/
namespace StripeRecovery

def Shard.padTo (s : Shard) (size : Nat) : Shard := s ++ List.replicate (size - s.length) 0

theorem padTo_length {s : Shard} {size : Nat} (fits : s.length ≤ size) :
    (s.padTo size).length = size := by
  simp only [Shard.padTo, List.length_append, List.length_replicate]
  omega

theorem padTo_symbol (s : Shard) (size j : Nat) : (s.padTo size).symbol j = s.symbol j := by
  simp only [Shard.padTo, Shard.symbol, List.getD_eq_getElem?_getD]
  by_cases inside : j < s.length
  · rw [List.getElem?_append_left inside]
  · rw [List.getElem?_append_right (by omega), List.getElem?_eq_none (l := s) (by omega),
      List.getElem?_replicate]
    split <;> rfl

namespace Code
variable {c : Code} {short size : Nat} {stripe : List Shard}

theorem IsStripe.padTo (code : c.IsStripe short stripe) (fits : short ≤ size) :
    c.IsStripe size (stripe.map (·.padTo size)) where
  width := (List.length_map _).trans code.width
  even := by
    intro s member
    obtain ⟨t, shard, rfl⟩ := List.mem_map.mp member
    exact padTo_length (by rw [code.even t shard]; exact fits)
  columns := by
    intro j
    obtain ⟨f, small, values⟩ := code.columns j
    refine ⟨f, small, ?_⟩
    intro i s there
    rw [List.getElem?_map] at there
    obtain ⟨t, found, rfl⟩ := Option.map_eq_some_iff.mp there
    rw [padTo_symbol]
    exact values i t found

theorem encode_padTo {chunks : List Shard} (positive : 0 < short)
    (count : chunks.length = c.data) (even : ∀ s ∈ chunks, s.length = short)
    (fits : short ≤ size) : c.encode (chunks.map (·.padTo size)) =
      .ok ((chunks ++ c.parityOf chunks short).map (·.padTo size)) := by
  have count' : (chunks.map (·.padTo size)).length = c.data := (List.length_map _).trans count
  have even' : ∀ s ∈ chunks.map (·.padTo size), s.length = size := by
    intro s member
    obtain ⟨t, chunk, rfl⟩ := List.mem_map.mp member
    exact padTo_length (by rw [even t chunk]; exact fits)
  rw [encode_eq c (by omega) count' even', Except.ok.injEq]
  apply (encode_isStripe c count' even').unique ((encode_isStripe c count even).padTo fits)
    (Finset.range c.data)
  · rw [Finset.card_range]
  · intro i member
    have isData := Finset.mem_range.mp member
    refine ⟨by simp only [width]; omega, ?_⟩
    rw [List.map_append, List.getElem?_append_left (by omega),
      List.getElem?_append_left (by omega)]

end Code

namespace Session
variable {s : Session} {pool : Pool} {reports : List (Nat × Bool)} {told : List Notice}

theorem reporting_total (reports : List (Nat × Bool)) (width : Nat) :
    reporting reports true width + reporting reports false width ≤ width := by
  have bound := List.countP_le_length (l := List.range width)
    (p := fun i => (reports.lookup i).isSome)
  have split : (List.range width).countP (fun i => (reports.lookup i).isSome) =
      reporting reports true width + reporting reports false width := by
    simp only [reporting]
    generalize List.range width = positions
    induction positions with
    | nil => rfl
    | cons i rest ih =>
      simp only [List.countP_cons, ih]
      cases reports.lookup i with
      | none => simp
      | some good => cases good <;> simp <;> omega
  rw [List.length_range] at bound
  omega

theorem Tracked.completes (tracked : Tracked reports told s) (invariant : s.Invariant)
    (enough : s.layout.data ≤ reporting reports true s.layout.width) : s.phase = .completed := by
  rcases tracked.phase with pending | completed | aborted
  · have complete := (tracked.pending pending).1.count (.inl ⟨rfl, rfl⟩)
    rw [invariant.counted.width, ← invariant.counted.successes_eq] at complete
    have few := (invariant.counted.undecided pending).1
    omega
  · exact completed
  · have many := (tracked.aborted aborted).1
    have total := reporting_total reports s.layout.width
    have width : s.layout.width = s.layout.data + s.layout.parity := rfl
    omega

theorem play_full (orderly : s.Owned ∧ s.Staged) (bare : s.roster.buffers = [])
    (none : s.successes = 0) {history : List Section} (unfreed : .free ∉ history)
    (opened : ¬ (Session.play history s pool).session.Past) :
    (Session.play history s pool).session.roster.buffered =
      (Session.play history s pool).session.successes := by
  have all : Session.kept history s pool = Session.taken history s pool := by
    apply kept_of_unfreed
    rintro ⟨before, after, rfl, _⟩
    simp at unfreed
  have buffers := (play_buffers orderly history opened).length_eq
  rw [Roster.buffered, buffers, play_successes, none, all, bare]
  simp

variable {code : Code} {stripe : List Shard} {payloads : List (Nat × Buffer)} {recreate : Bool}
  {count : RepairCount}

theorem Decodes.shows (decodes : Decodes code stripe payloads s recreate count)
    {buffers : List Buffer} (length : buffers.length = s.offered.length) {v : Session}
    (keeping : Keeping ⟨putBack buffers (code.answer (s.callOf recreate)).shards,
      filledAfter s.layout (s.callOf recreate).present count⟩ v)
    (width : v.roster.width = s.layout.width) {position : Nat} (inside : position < s.layout.width)
    (served : Served payloads s.layout.data recreate position) :
    ∃ b, (v.view position).2 = .ok b ∧ stripe[position]? = some b.bytes := by
  obtain ⟨size, shards⟩ := decodes.shards
  have same : buffers.length = (code.answer (s.callOf recreate)).shards.length := by
    rw [length, size, decodes.offers, decodes.width]
  obtain ⟨t, there, _⟩ := decodes.isStripe.get (show position < code.width by
    rw [decodes.width]
    exact inside)
  have shown := (congrArg (·[position]?) (putBack_bytes same)).trans
    ((shards position inside served).trans there)
  rw [List.getElem?_map] at shown
  obtain ⟨b, buffer, rfl⟩ := Option.map_eq_some_iff.mp shown
  exact ⟨b, (keeping.view (by rw [width]; exact inside)).1 b
    ((decodes.filled inside).mpr served) buffer, there⟩

end Session

namespace World
variable {ω : Type} {out : Outside ω} {code : Code} {target : Target} {settings : Settings}

theorem Undisturbed.adapts (undisturbed : Undisturbed out code) : Adapts out code := by
  refine ⟨undisturbed.answer, fun call w => ?_⟩
  obtain ⟨history, others, evolves⟩ := undisturbed.others call w
  exact ⟨history, fun e member => (others e member).2, evolves⟩

section Run
variable {w₀ w : World ω} {history : List Session.Section}
  (made : Session.make target code.data code.parity settings = .ok w₀.session)
  (ran : w₀.Evolves history w)
include made ran

theorem Evolves.invariant : w.session.Invariant :=
  ran.keeps (fun e _ pool held => held.step e pool)
    (Session.Invariant.make (by have := code.data_pos; have := Session.make_ok made; omega) made)

theorem Evolves.layout : w.session.layout = target.layout := by
  obtain ⟨_, _, newSession⟩ := Session.make_ok made
  rw [Session.layout, ran.target, newSession]

theorem Evolves.holds : Session.Holds w.session.roster
    (Session.taken history w₀.session w₀.pool) := by
  obtain ⟨_, _, newSession⟩ := Session.make_ok made
  have empty : Session.Holds w₀.session.roster [] := by
    rw [newSession]
    exact Session.Holds.make target.layout target.stripe
  rw [ran.session]
  exact empty.play history w₀.pool

theorem Evolves.completes (calm : ∀ e ∈ history, e.Calm)
    (enough : target.layout.data ≤
      Session.reporting (history.filterMap Session.Section.report?) true target.layout.width) :
    w.session.phase = .completed := by
  have tracked := (Session.Tracked.make made).play ((Evolves.refl w₀).invariant made) calm w₀.pool
  rw [← ran.session] at tracked
  exact tracked.completes (ran.invariant made) (by rw [ran.layout made]; exact enough)

theorem Evolves.full (unfreed : .free ∉ history) (completed : w.session.phase = .completed) :
    w.session.roster.buffered = w.session.layout.data := by
  obtain ⟨_, _, newSession⟩ := Session.make_ok made
  have bare : w₀.session.roster.buffers = [] := by
    rw [newSession]
    exact Session.buffers_bare fun c member => (Session.make_absent _ _ c member).2
  have opened : ¬ w.session.Past := fun past => past.2 completed
  rw [ran.session] at opened
  have all := Session.play_full (Session.orderly_make made) bare (by rw [newSession]) unfreed opened
  rw [← ran.session] at all
  rw [all, ((ran.invariant made).counted.decided (.inl completed)).1]

theorem decode_shows (adapts : Adapts out code) {stripe : List Shard}
    (positive : 0 < target.layout.chunkSize)
    (isStripe : code.IsStripe target.layout.chunkSize stripe)
    (faithful : Session.Faithful stripe (Session.taken history w₀.session w₀.pool))
    {recreate : Bool} (decoded : (w.decode out recreate).2 = .ok true)
    {v : World ω} {later : List Session.Section} (after : (w.decode out recreate).1.Evolves later v)
    (stays : ∀ e ∈ later, e ≠ .abort ∧ e ≠ .free) {position : Nat}
    (inside : position < target.layout.width)
    (served : Session.Served (Session.taken history w₀.session w₀.pool) target.layout.data recreate
      position) :
    ∃ b, (v.view position).2 = .ok b ∧ stripe[position]? = some b.bytes := by
  obtain ⟨data, parity, _⟩ := Session.make_ok made
  have layout := ran.layout made
  obtain ⟨completed, regenerated, buffers, done, length, keeping⟩ := decode_keeps adapts decoded
  have decodes : Session.Decodes code stripe (Session.taken history w₀.session w₀.pool) w.session
      recreate regenerated :=
    { invariant := ran.invariant made, completed, holds := ran.holds made, faithful, done
      data := by rw [layout, data]
      parity := by rw [layout, parity]
      isStripe := by rwa [layout]
      positive := by rwa [layout] }
  have still := Session.play_keeps_among (P := Session.Keeping _)
    (fun e s pool may held => held.change may (s.step_change pool e)) stays keeping
    (w.decode out recreate).1.pool
  rw [← after.session] at still
  have width : v.session.roster.width = w.session.layout.width := by
    obtain ⟨between, _, evolves⟩ := decode_works (P := fun _ => True) (fun _ _ _ _ => trivial)
      (fun call w _ => adapts.others call w) recreate trivial
    have whole := (ran.trans evolves).trans after
    rw [Roster.width, (whole.invariant made).counted.width, whole.layout made, layout]
  rw [← layout] at inside served
  exact decodes.shows length still width inside served

end Run
end World

/-- Encoding chunks and then padding the shards gives the stripe of the padded chunks. So a
    session whose payloads are shards of the short stripe, at as many positions as there are data
    chunks, in any order and with anything else reported besides, decodes with parity and then
    shows every position's short shard with zeros behind it up to the chunk size. -/
theorem short_chunks_padded (code : Code) {chunks : List Shard} {short : Nat}
    (positive : 0 < short) (count : chunks.length = code.data)
    (even : ∀ t ∈ chunks, t.length = short) :
    ∃ stripe, code.encode chunks = .ok stripe ∧
      (∀ size, short ≤ size →
        code.encode (chunks.map (·.padTo size)) = .ok (stripe.map (·.padTo size))) ∧
      ∀ (target : Target) (settings : Settings) (s : Session),
        Session.make target code.data code.parity settings = .ok s →
        short ≤ target.layout.chunkSize →
        ∀ (ω : Type) (out : Outside ω) (w₀ w : World ω) (history : List Session.Section),
          World.Undisturbed out code → w₀.session = s → w₀.Evolves history w →
          (∀ e ∈ history, e.Calm ∧ e ≠ .free) →
          target.layout.data ≤ Session.reporting (history.filterMap Session.Section.report?) true
            target.layout.width →
          (∀ position b, (position, b) ∈ Session.taken history s w₀.pool →
            stripe[position]? = some b.bytes) →
          (w.decode out true).2 = .ok true ∧
            ∀ (v : World ω) (later : List Session.Section),
              (w.decode out true).1.Evolves later v → (∀ e ∈ later, e ≠ .abort ∧ e ≠ .free) →
              ∀ position < target.layout.width, ∃ b t, (v.view position).2 = .ok b ∧
                stripe[position]? = some t ∧ t.length = short ∧
                b.bytes = t ++ List.replicate (target.layout.chunkSize - short) 0 := by
  have isStripe := code.encode_isStripe count even
  refine ⟨chunks ++ code.parityOf chunks short, code.encode_eq positive count even,
    fun size fits => Code.encode_padTo positive count even fits, ?_⟩
  intro target settings s made fits ω out w₀ w history undisturbed fresh ran calm enough given
  generalize chunks ++ code.parityOf chunks short = stripe at isStripe given ⊢
  subst fresh
  obtain ⟨data, parity, _⟩ := Session.make_ok made
  have layout := ran.layout made
  have completed := ran.completes made (fun e member => (calm e member).1) enough
  have full := ran.full made (fun member => (calm _ member).2 rfl) completed
  have decoded : (w.decode out true).2 = .ok true :=
    (World.decode_answer undisturbed (ran.invariant made) (by rw [layout, data])
      (by rw [layout, parity]) completed true).1 full.ge
  refine ⟨decoded, ?_⟩
  intro v later after stays position inside
  have faithful : Session.Faithful (stripe.map (·.padTo target.layout.chunkSize))
      (Session.taken history w₀.session w₀.pool) := by
    intro i b member
    refine ⟨Shard.padTo b.bytes target.layout.chunkSize, ?_, .inl ⟨_, rfl⟩⟩
    rw [List.getElem?_map, given i b member, Option.map_some]
  obtain ⟨b, shown, there⟩ := World.decode_shows made ran undisturbed.adapts (by omega)
    (isStripe.padTo fits) faithful decoded after stays inside (.inr (.inr (.inl rfl)))
  rw [List.getElem?_map] at there
  obtain ⟨t, found, padded⟩ := Option.map_eq_some_iff.mp there
  have size := isStripe.even t (List.mem_of_getElem? found)
  exact ⟨b, t, shown, found, size, by rw [← padded, Shard.padTo, size]⟩

/-- The parity chunk arrives first, then a data chunk, both of two bytes; the other data chunk is
    shown with zeros behind its two bytes. -/
theorem short_chunks_padded_lost_data :
    let code : Code := ⟨2, 1, by decide, by decide, by decide⟩
    let target : Target := ⟨"vol:file", 42, ⟨2, 1, 1, 0⟩, .empty, ⟨[]⟩⟩
    let out : Outside Unit :=
      { notify := fun _ w => w
        send := fun _ _ _ w => (w, none)
        repair := fun call w => (w, code.answer call) }
    let s : Session := ⟨target, none, .pending, .make target.layout 42, 0, 0, none, none⟩
    let stripe : List Shard := [[1, 200], [3, 4], [5, 77]]
    let w := World.performAll out [.receive 2 (.unpooled [5, 77] 2), .receive 0 (.unpooled [1, 200] 9)]
      (⟨s, .make .standard, [], [], ()⟩ : World Unit)
    code.encode [[1, 200], [3, 4]] = .ok stripe ∧
      code.encode [[1, 200, 0], [3, 4, 0]] = .ok [[1, 200, 0], [3, 4, 0], [5, 77, 0]] ∧
      (w.decode out true).2 = .ok true ∧
      ∃ b, ((w.decode out true).1.view 1).2 = .ok b ∧
        b.bytes = [3, 4] ++ List.replicate 1022 0 := by
  intro code target out s stripe w
  let w₀ : World Unit := ⟨s, .make .standard, [], [], ()⟩
  let history : List Session.Section :=
    [.receive 2 (.unpooled [5, 77] 2), .receive 0 (.unpooled [1, 200] 9)]
  have encoded : code.encode [[1, 200], [3, 4]] = .ok stripe := by decide +kernel
  obtain ⟨found, isStripe, padded, served⟩ :=
    @short_chunks_padded code [[1, 200], [3, 4]] 2 (by decide) rfl (by decide)
  obtain rfl : stripe = found := Except.ok.inj (encoded.symm.trans isStripe)
  have made : Session.make target code.data code.parity .standard = .ok s := by decide +kernel
  have undisturbed : World.Undisturbed out code :=
    ⟨fun _ _ => rfl, fun _ w => ⟨[], by simp, .refl w⟩⟩
  have ran : w₀.Evolves history w := ⟨by decide +kernel, by decide +kernel, by decide +kernel⟩
  have taken : Session.taken history s w₀.pool =
      [(2, .unpooled [5, 77] 2), (0, .unpooled [1, 200] 9)] := by
    decide +kernel
  have given : ∀ position b, (position, b) ∈ Session.taken history s w₀.pool →
      stripe[position]? = some b.bytes := by
    intro position b member
    rw [taken, List.mem_cons, List.mem_singleton, Prod.mk.injEq, Prod.mk.injEq] at member
    rcases member with ⟨rfl, rfl⟩ | ⟨rfl, rfl⟩ <;> rfl
  have calm : ∀ e ∈ history, e.Calm ∧ e ≠ .free := by
    simp [history, Session.Section.Calm]
  obtain ⟨decoded, shows⟩ := served target .standard s made (by decide) Unit out w₀ w history
    undisturbed rfl ran calm (by decide) given
  obtain ⟨b, t, shown, there, _, bytes⟩ :=
    shows _ [] (.refl _) (by simp) 1 (by decide)
  obtain rfl : [3, 4] = t := Option.some.inj there
  have rest : target.layout.chunkSize - 2 = 1022 := by decide
  rw [rest] at bytes
  exact ⟨encoded, padded 3 (by decide), decoded, b, shown, bytes⟩

end StripeRecovery
