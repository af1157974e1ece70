import StripeRecovery.Proofs.Sound

/-!
The decision of a session. Only the first report about a position counts, and once every
position has reported, the session is decided by how many of these reports are bad.
-/
namespace StripeRecovery
namespace Session

/-- A section that neither gives up nor decodes. -/
def Section.Calm : Section → Prop
  | .abort | .beginDecode _ | .finishDecode _ => False
  | _ => True

def reporting (reports : List (Nat × Bool)) (good : Bool) (width : Nat) : Nat :=
  (List.range width).countP fun position => reports.lookup position == some good

def Shows : Option Bool → Chunk → Prop
  | some true, c => c.state = .complete
  | some false, c => c.state = .failed
  | none, c => Roster.Awaited c

theorem Shows.unreported {first : Option Bool} {c : Chunk} (shown : Shows first c)
    (awaited : Roster.Awaited c) : first = none := by
  cases first with
  | none => rfl
  | some good => cases good <;> rcases awaited with h | h | h <;> simp [Shows, h] at shown

theorem Shows.same_state {first : Option Bool} {c d : Chunk} (same : d.state = c.state)
    (shown : Shows first c) : Shows first d := by
  cases first with
  | none => simpa only [Shows, Roster.Awaited, same] using shown
  | some good => cases good <;> simpa only [Shows, same] using shown

/-- Every chunk is in the state in which its first report left it. -/
def Follows (t : Roster) (reports : List (Nat × Bool)) : Prop :=
  ∀ position c, t.chunks[position]? = some c → Shows (reports.lookup position) c

variable {reports : List (Nat × Bool)}

theorem lookup_snoc (position i : Nat) (good : Bool) :
    (reports ++ [(position, good)]).lookup i =
      (reports.lookup i).or (if i = position then some good else none) := by
  rw [List.lookup_append]
  by_cases here : i = position
  · simp [here]
  · simp [here, List.lookup_cons, List.lookup_nil, beq_false_of_ne here]

theorem reporting_le (later : List (Nat × Bool)) (good : Bool) (width : Nat) :
    reporting reports good width ≤ reporting (reports ++ later) good width := by
  refine List.countP_mono_left fun i _ first => ?_
  rw [List.lookup_append, beq_iff_eq.mp first]
  simp

theorem Follows.update {t : Roster} (follows : Follows t reports) {position : Nat}
    {after : ChunkStatus} {good : Bool} {f : Chunk → Chunk}
    (final : after = .complete ∧ good = true ∨ after = .failed ∧ good = false)
    (may : t.MayMove position after) (sets : ∀ c, (f c).state = after) :
    Follows (t.update position f) (reports ++ [(position, good)]) := by
  obtain ⟨c, found, awaited⟩ :=
    (Roster.mayMove_final (final.imp And.left And.left)).mp may
  have unreported := (follows position c found).unreported awaited
  intro i d there
  rw [Roster.update, List.getElem?_modify] at there
  obtain ⟨old, was, rfl⟩ := Option.map_eq_some_iff.mp there
  rw [lookup_snoc]
  by_cases here : i = position
  · subst here
    simp only [unreported, Option.none_or, ↓reduceIte]
    rcases final with ⟨rfl, rfl⟩ | ⟨rfl, rfl⟩ <;> exact sets old
  · simpa [here, Ne.symm here] using follows i old was

theorem Follows.failed {t : Roster} (follows : Follows t reports) {position : Nat}
    (may : t.MayMove position .failed) :
    Follows (t.moved position .failed) (reports ++ [(position, false)]) :=
  follows.update (.inr ⟨rfl, rfl⟩) may fun _ => rfl

theorem Follows.loaded {t : Roster} (follows : Follows t reports) {position : Nat}
    (may : t.MayMove position .complete) (payload : Buffer) :
    Follows (t.loaded position payload) (reports ++ [(position, true)]) :=
  follows.update (.inl ⟨rfl, rfl⟩) may fun _ => rfl

theorem Follows.await {t : Roster} (follows : Follows t reports) {position : Nat}
    (may : t.MayMove position .external) : Follows (t.moved position .external) reports := by
  obtain ⟨c, found, can⟩ := may
  intro i d there
  rw [Roster.moved, Roster.update, List.getElem?_modify] at there
  obtain ⟨old, was, rfl⟩ := Option.map_eq_some_iff.mp there
  by_cases here : position = i
  · subst here
    obtain rfl : c = old := Option.some.inj (found.symm.trans was)
    rw [(follows position c found).unreported (Roster.may_from can)]
    simp [Shows, Roster.Awaited]
  · simpa [here] using follows i old was

theorem Follows.ignored {t : Roster} (follows : Follows t reports) {position : Nat}
    {after : ChunkStatus} (final : after = .complete ∨ after = .failed)
    (cannot : ¬ t.MayMove position after) (good : Bool) :
    Follows t (reports ++ [(position, good)]) := by
  intro i c found
  have shown := follows i c found
  rw [lookup_snoc]
  by_cases here : i = position
  · subst here
    cases first : reports.lookup i with
    | some verdict => simpa [first] using shown
    | none =>
      rw [first] at shown
      exact absurd ((Roster.mayMove_final final).mpr ⟨c, found, shown⟩) cannot
  · simpa [here] using shown

theorem Follows.map {t : Roster} (follows : Follows t reports) {f : Chunk → Chunk}
    (keeps : ∀ first c, Shows first c → Shows first (f c)) :
    Follows ⟨t.chunks.map f⟩ reports := by
  intro i c found
  rw [List.getElem?_map] at found
  obtain ⟨old, was, rfl⟩ := Option.map_eq_some_iff.mp found
  exact keeps _ _ (follows i old was)

theorem countP_range_eq {α : Type} (l : List α) (p : α → Bool) (q : Nat → Bool)
    (same : ∀ i a, l[i]? = some a → p a = q i) : l.countP p = (List.range l.length).countP q := by
  induction l generalizing q with
  | nil => rfl
  | cons a rest ih =>
    have tail := ih (fun i => q (i + 1)) fun i b found => same (i + 1) b (by simpa using found)
    rw [List.length_cons, List.range_succ_eq_map, List.countP_cons, List.countP_cons,
      List.countP_map, tail, same 0 a rfl]
    rfl

theorem Follows.count {t : Roster} (follows : Follows t reports) {state : ChunkStatus} {good : Bool}
    (final : state = .complete ∧ good = true ∨ state = .failed ∧ good = false) :
    t.countOf state = reporting reports good t.chunks.length := by
  refine countP_range_eq _ _ _ fun i c found => ?_
  have shown := follows i c found
  cases first : reports.lookup i with
  | none =>
    rw [first] at shown
    rcases shown with h | h | h <;> rcases final with ⟨rfl, rfl⟩ | ⟨rfl, rfl⟩ <;> simp [h]
  | some verdict =>
    rw [first] at shown
    rcases final with ⟨rfl, rfl⟩ | ⟨rfl, rfl⟩ <;> cases verdict <;> simp [Shows] at shown ⊢ <;>
      simp [shown]

/-- What the reports so far and the notices so far say of a session that is not decoded and
    that nobody else gave up. -/
structure Tracked (reports : List (Nat × Bool)) (told : List Notice) (s : Session) : Prop where
  phase : s.phase = .pending ∨ s.phase = .completed ∨ s.phase = .aborted
  pending : s.phase = .pending → Follows s.roster reports ∧ told.filter (·.isTerminal) = []
  completed : s.phase = .completed → s.layout.data ≤ reporting reports true s.layout.width ∧
    told.filter (·.isTerminal) = [.recoverable s.stripe]
  aborted : s.phase = .aborted → s.layout.parity < reporting reports false s.layout.width ∧
    s.failures = s.layout.parity + 1 ∧ s.successes < s.layout.data ∧
    told.filter (·.isTerminal) = [.unrecoverable s.stripe]

variable {s : Session} {told : List Notice}

theorem Tracked.same (tracked : Tracked reports told s) {after : Session}
    (target : after.target = s.target) (phase : after.phase = s.phase)
    (successes : after.successes = s.successes) (failures : after.failures = s.failures)
    (follows : s.phase = .pending → Follows s.roster reports → Follows after.roster reports) :
    Tracked reports told after := by
  have layout : after.layout = s.layout := by simp only [Session.layout, target]
  have stripe : after.stripe = s.stripe := by simp only [Session.stripe, target]
  refine ⟨?_, ?_, ?_, ?_⟩
  · rw [phase]
    exact tracked.phase
  · rw [phase]
    intro pending
    exact ⟨follows pending (tracked.pending pending).1, (tracked.pending pending).2⟩
  · rw [phase, layout, stripe]
    exact tracked.completed
  · rw [phase, layout, stripe, successes, failures]
    exact tracked.aborted

theorem Tracked.noticed (tracked : Tracked reports told s) {others : List Notice}
    (repairs : others.filter (·.isTerminal) = []) : Tracked reports (told ++ others) s := by
  have same : (told ++ others).filter (·.isTerminal) = told.filter (·.isTerminal) := by
    rw [List.filter_append, repairs, List.append_nil]
  refine ⟨tracked.phase, ?_, ?_, ?_⟩
  · rw [same]
    exact tracked.pending
  · rw [same]
    exact tracked.completed
  · rw [same]
    exact tracked.aborted

theorem Tracked.ignored (tracked : Tracked reports told s) {position : Nat} {after : ChunkStatus}
    (final : after = .complete ∨ after = .failed)
    (cannot : s.phase = .pending → ¬ s.roster.MayMove position after) (good : Bool) :
    Tracked (reports ++ [(position, good)]) told s where
  phase := tracked.phase
  pending := fun pending =>
    ⟨(tracked.pending pending).1.ignored final (cannot pending) good, (tracked.pending pending).2⟩
  completed := fun completed =>
    ⟨Nat.le_trans (tracked.completed completed).1 (reporting_le _ _ _),
      (tracked.completed completed).2⟩
  aborted := fun aborted =>
    ⟨Nat.lt_of_lt_of_le (tracked.aborted aborted).1 (reporting_le _ _ _),
      (tracked.aborted aborted).2⟩

theorem Tracked.still (tracked : Tracked reports told s) {e : Section} {others : List Notice}
    (refused : ∀ position good, e.report? = some (position, good) → s.phase = .pending →
      ¬ s.roster.MayMove position (reportedState good))
    (repairs : others.filter (·.isTerminal) = []) :
    Tracked (reports ++ e.report?.toList) (told ++ others) s := by
  refine Tracked.noticed ?_ repairs
  cases reported : e.report? with
  | none => simpa using tracked
  | some report =>
    obtain ⟨position, good⟩ := report
    have final : reportedState good = .complete ∨ reportedState good = .failed := by
      cases good <;> simp [reportedState]
    exact tracked.ignored final (refused position good reported) good

theorem Tracked.change (tracked : Tracked reports told s) (counted : s.Counted) {e : Section}
    {after : Session} {others : List Notice} (calm : e.Calm) (change : Change s e after others) :
    Tracked (reports ++ e.report?.toList) (told ++ others) after := by
  cases change with
  | still refused repairs => exact tracked.still refused repairs
  | requested pending =>
    simp only [Section.report?, Option.toList, List.append_nil]
    refine tracked.same rfl rfl rfl rfl fun _ follows => follows.map fun first c shown => ?_
    split
    · rename_i absent
      rw [shown.unreported (.inl absent)]
      exact .inr (.inl rfl)
    · exact shown
  | external pending may =>
    simp only [Section.report?, Option.toList, List.append_nil]
    exact tracked.same rfl rfl rfl rfl fun _ follows => follows.await may
  | failed pending may few =>
    have follows := (tracked.pending pending).1.failed may
    simp only [Section.report?, Option.toList, List.append_nil]
    exact ⟨.inl pending, fun _ => ⟨follows, (tracked.pending pending).2⟩,
      fun completed => by simp [pending] at completed, fun aborted => by simp [pending] at aborted⟩
  | @lost position lease pending may many released =>
    have follows := (tracked.pending pending).1.failed may
    have failed :
        (s.roster.moved position .failed).countOf .failed = s.roster.countOf .failed + 1 :=
      Roster.countOf_after may (fun _ => rfl) (.inr rfl)
    rw [follows.count (.inr ⟨rfl, rfl⟩), Roster.moved, Roster.length_update, counted.width,
      ← counted.failures_eq (.inl pending)] at failed
    have before := counted.undecided pending
    simp only [Section.report?, Option.toList]
    refine ⟨.inr (.inr rfl), by simp, by simp, fun _ => ⟨?_, ?_, before.1, ?_⟩⟩
    · show s.layout.parity < reporting _ false s.layout.width
      omega
    · show s.failures + 1 = s.layout.parity + 1
      omega
    · rw [List.filter_append, (tracked.pending pending).2]
      rfl
  | @received position payload pending may more =>
    have follows := (tracked.pending pending).1.loaded may payload
    simp only [Section.report?, Option.toList, List.append_nil]
    exact ⟨.inl pending, fun _ => ⟨follows, (tracked.pending pending).2⟩,
      fun completed => by simp [pending] at completed, fun aborted => by simp [pending] at aborted⟩
  | @completed position payload pending may enough =>
    have follows := (tracked.pending pending).1.loaded may payload
    have complete :
        (s.roster.loaded position payload).countOf .complete = s.roster.countOf .complete + 1 :=
      Roster.countOf_after may (fun _ => rfl) (.inl rfl)
    rw [follows.count (.inl ⟨rfl, rfl⟩), Roster.loaded, Roster.length_update, counted.width,
      ← counted.successes_eq] at complete
    simp only [Section.report?, Option.toList]
    refine ⟨.inr (.inl rfl), by simp, fun _ => ⟨?_, ?_⟩, by simp⟩
    · show s.layout.data ≤ reporting _ true s.layout.width
      omega
    · rw [List.filter_append, (tracked.pending pending).2]
      rfl
  | aborted => exact calm.elim
  | freed =>
    simp only [Section.report?, Option.toList, List.append_nil]
    exact tracked.same rfl rfl rfl rfl fun _ follows => follows.map fun _ c shown =>
      Shows.same_state (c := c) rfl shown
  | viewed =>
    simp only [Section.report?, Option.toList, List.append_nil]
    exact tracked.same rfl rfl rfl rfl fun _ follows => follows
  | unviewed =>
    simp only [Section.report?, Option.toList, List.append_nil]
    exact tracked.same rfl rfl rfl rfl fun _ follows => follows
  | unleased =>
    simp only [Section.report?, Option.toList, List.append_nil]
    exact tracked.same rfl rfl rfl rfl fun _ follows => follows
  | begun => exact calm.elim
  | stopped => exact calm.elim
  | stored => exact calm.elim

theorem Tracked.play (tracked : Tracked reports told s) (invariant : s.Invariant)
    {history : List Section} (calm : ∀ e ∈ history, e.Calm) (pool : Pool) :
    Tracked (reports ++ history.filterMap Section.report?)
      (told ++ (Session.play history s pool).answer) (Session.play history s pool).session := by
  induction history generalizing reports told s pool with
  | nil => simpa [Session.play] using tracked
  | cons e rest ih =>
    have first := tracked.change invariant.counted (calm e (by simp)) (s.step_change pool e)
    have others := ih first (invariant.step e pool) (fun d there => calm d (by simp [there]))
      (e.step s pool).pool
    have reported : (e :: rest).filterMap Section.report? =
        e.report?.toList ++ rest.filterMap Section.report? := by
      cases found : e.report? <;> simp [found]
    rw [reported, ← List.append_assoc]
    simpa only [Session.play, List.append_assoc] using others

theorem Tracked.make {target : Target} {data parity : Nat} {settings : Settings}
    (made : Session.make target data parity settings = .ok s) : Tracked [] [] s := by
  obtain ⟨_, _, rfl⟩ := make_ok made
  refine ⟨.inl rfl, fun _ => ⟨fun i c found => ?_, rfl⟩, by simp, by simp⟩
  exact .inl (make_absent _ _ c (List.mem_of_getElem? found)).1

/-- What a session over a target has come to once every position has reported, so many of them
    badly. -/
structure Decided (target : Target) (bad : Nat) (told : List Notice) (s : Session) : Prop where
  completed : bad ≤ target.layout.parity →
    s.phase = .completed ∧ s.successes = target.layout.data ∧
      told.filter (·.isTerminal) = [.recoverable target.stripe]
  aborted : target.layout.parity < bad →
    s.phase = .aborted ∧ s.failures = target.layout.parity + 1 ∧
      s.successes < target.layout.data ∧
      told.filter (·.isTerminal) = [.unrecoverable target.stripe]

def badCount (good : Nat → Bool) (width : Nat) : Nat := (List.range width).countP fun i => !good i

theorem Tracked.decided (tracked : Tracked reports told s) (invariant : s.Invariant)
    {good : Nat → Bool}
    (all : ∀ position < s.layout.width, reports.lookup position = some (good position)) :
    Decided s.target (badCount good s.layout.width) told s := by
  have total : s.layout.width = s.layout.data + s.layout.parity := rfl
  have goods : reporting reports true s.layout.width = (List.range s.layout.width).countP good := by
    refine List.countP_congr fun i inside => ?_
    simp [all i (List.mem_range.mp inside)]
  have bads : reporting reports false s.layout.width = badCount good s.layout.width := by
    refine List.countP_congr fun i inside => ?_
    simp [all i (List.mem_range.mp inside)]
  have both : (List.range s.layout.width).countP good + badCount good s.layout.width =
      s.layout.width := by
    have parts := List.length_eq_countP_add_countP good (l := List.range s.layout.width)
    simpa [badCount] using parts.symm
  -- With all reports in, `data + parity` positions leave no room below both thresholds.
  have decided : s.phase ≠ .pending := by
    intro pending
    have follows := (tracked.pending pending).1
    have complete := follows.count (.inl ⟨rfl, rfl⟩)
    have failed := follows.count (.inr ⟨rfl, rfl⟩)
    rw [invariant.counted.width, ← invariant.counted.successes_eq] at complete
    rw [invariant.counted.width, ← invariant.counted.failures_eq (.inl pending)] at failed
    have few := invariant.counted.undecided pending
    omega
  constructor
  · intro few
    rcases tracked.phase with pending | completed | aborted
    · exact absurd pending decided
    · exact ⟨completed, (invariant.counted.decided (.inl completed)).1,
        (tracked.completed completed).2⟩
    · have many := (tracked.aborted aborted).1
      rw [bads] at many
      exact absurd few (Nat.not_le.mpr many)
  · intro many
    rcases tracked.phase with pending | completed | aborted
    · exact absurd pending decided
    · have enough := (tracked.completed completed).1
      have parity : s.target.layout.parity = s.layout.parity := rfl
      omega
    · exact ⟨aborted, (tracked.aborted aborted).2⟩

def Section.Quiet (e : Section) : Prop := e.Calm ∧ e.report? = none

end Session

namespace World
variable {ω : Type}

def reported (out : Outside ω) (w : World ω) : Operation → List (Nat × Bool)
  | .start => (unsent out w.tallies.length w.requested.2 w.requested.1).map fun i => (i, false)
  | .deliver _ position (.payload _) => [(position, true)]
  | .deliver _ position _ => [(position, false)]
  | .receive position _ => [(position, true)]
  | .fail position => [(position, false)]
  | _ => []

def Operation.Calm : Operation → Prop
  | .abort | .decode _ => False
  | _ => True

end World

theorem Woven.reports {own whole : List Session.Section}
    (woven : Woven Session.Section.Quiet own whole) :
    whole.filterMap Session.Section.report? = own.filterMap Session.Section.report? := by
  induction woven with
  | nil => rfl
  | own _ ih => simp only [List.filterMap_cons, ih]
  | other quiet _ ih => simp only [List.filterMap_cons, quiet.2, ih]

end StripeRecovery
