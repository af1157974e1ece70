import StripeRecovery.Proofs.Numbering
import StripeRecovery.Scenario.Roster
import Mathlib.Data.List.Destutter
import Mathlib.Data.List.Infix

/-!
The states that the chunks of a roster go through, whatever is done to it and in whatever order.
Each chunk walks along the declared moves, of which every one leads further, so it enters no
state twice. Its place and its object stay, and what is refused leaves no trace in the roster.
-/
namespace StripeRecovery

namespace ChunkStatus

/-- The declared steps of a chunk. Only a decode, which takes the payloads, leads to `rebuilt`. -/
inductive Leads : Bool → ChunkStatus → ChunkStatus → Prop where
  | requested : Leads false .absent .requested
  | external : Leads false .absent .external
  | arrived {before : ChunkStatus}
      (awaited : before = .absent ∨ before = .requested ∨ before = .external) :
      Leads false before .complete
  | failed {before : ChunkStatus}
      (awaited : before = .absent ∨ before = .requested ∨ before = .external) :
      Leads false before .failed
  | rebuilt {before : ChunkStatus} (missing : before = .absent ∨ before = .requested ∨
      before = .external ∨ before = .failed) : Leads true before .rebuilt

variable {before after : ChunkStatus} {taking : Bool}

theorem canMove_iff : before.canMove after = true ↔ Leads false before after := by
  constructor
  · intro can
    cases after with
    | absent => cases before <;> simp [canMove] at can
    | requested =>
      obtain rfl : before = .absent := by cases before <;> simp [canMove] at can ⊢
      exact .requested
    | complete => exact .arrived (Roster.may_from can)
    | failed => exact .failed (Roster.may_from can)
    | external =>
      obtain rfl : before = .absent := by cases before <;> simp [canMove] at can ⊢
      exact .external
    | rebuilt => cases before <;> simp [canMove] at can
  · intro leads
    cases leads with
    | requested => rfl
    | external => rfl
    | arrived awaited => rcases awaited with rfl | rfl | rfl <;> rfl
    | failed awaited => rcases awaited with rfl | rfl | rfl <;> rfl

theorem canRebuild_iff : before.canRebuild = true ↔ Leads true before .rebuilt := by
  constructor
  · intro can
    refine .rebuilt ?_
    cases before <;> simp [canRebuild] at can ⊢
  · intro leads
    cases leads with
    | rebuilt missing => rcases missing with rfl | rfl | rfl | rfl <;> rfl

def rank : ChunkStatus → Nat
  | absent => 0
  | requested | external => 1
  | complete | failed => 2
  | rebuilt => 3

theorem Leads.rank_lt (leads : Leads taking before after) : before.rank < after.rank := by
  cases leads with
  | requested => decide
  | external => decide
  | arrived awaited => rcases awaited with rfl | rfl | rfl <;> decide
  | failed awaited => rcases awaited with rfl | rfl | rfl <;> decide
  | rebuilt missing => rcases missing with rfl | rfl | rfl | rfl <;> decide

theorem Leads.not_final (leads : Leads taking before after) :
    before ≠ .complete ∧ before ≠ .rebuilt := by
  cases leads with
  | requested => decide
  | external => decide
  | arrived awaited => rcases awaited with rfl | rfl | rfl <;> decide
  | failed awaited => rcases awaited with rfl | rfl | rfl <;> decide
  | rebuilt missing => rcases missing with rfl | rfl | rfl | rfl <;> decide

def Path (states : List ChunkStatus) : Prop :=
  states.IsChain fun before after => ∃ taking, Leads taking before after

variable {states : List ChunkStatus}

theorem Path.nodup (path : Path states) : states.Nodup := by
  have further : states.IsChain fun before after => before.rank < after.rank :=
    path.imp fun before after ⟨_, leads⟩ => leads.rank_lt
  refine (List.isChain_iff_pairwise.mp further).imp fun {before after} less same => ?_
  rw [same] at less
  exact Nat.lt_irrefl _ less

theorem Path.not_final (path : Path states) :
    ∀ state ∈ states.dropLast, state ≠ .complete ∧ state ≠ .rebuilt := by
  induction states with
  | nil => simp
  | cons first rest ih =>
    cases rest with
    | nil => simp
    | cons next rest =>
      obtain ⟨⟨_, leads⟩, later⟩ := List.isChain_cons_cons.mp path
      intro state member
      rw [List.dropLast_cons_of_ne_nil (by simp)] at member
      rcases List.mem_cons.mp member with rfl | there
      · exact leads.not_final
      · exact ih later state there

theorem path_of_kept {first : ChunkStatus}
    (steps : (first :: states).IsChain fun before after =>
      after = before ∨ ∃ taking, Leads taking before after) :
    ∃ rest, (first :: states).destutter (· ≠ ·) = first :: rest ∧ Path (first :: rest) := by
  simp only [List.destutter_cons']
  induction states generalizing first with
  | nil => exact ⟨[], rfl, .singleton _⟩
  | cons next states ih =>
    obtain ⟨step, later⟩ := List.isChain_cons_cons.mp steps
    by_cases kept : next = first
    · subst kept
      simpa using ih later
    · obtain ⟨rest, whole, path⟩ := ih later
      refine ⟨next :: rest, ?_, List.isChain_cons_cons.mpr ⟨step.resolve_left kept, path⟩⟩
      rw [List.destutter'_cons_pos _ (Ne.symm kept), whole]

end ChunkStatus

namespace Roster

inductive Action where
  | move (position : Nat) (after : ChunkStatus)
  | complete (position : Nat) (payload : Buffer)
  | free
  | take

/-- The roster and the pool of its payloads after an action, and why it was refused if it was. -/
structure Handled where
  roster : Roster
  pool : Pool
  refused : Option Error

namespace Action

def step (t : Roster) (pool : Pool) : Action → Handled
  | move position after =>
    match t.move position after with
    | .ok (moved, _) => ⟨moved, pool, none⟩
    | .error e => ⟨t, pool, some e⟩
  | complete position payload =>
    match t.complete position payload with
    | .ok loaded => ⟨loaded, pool, none⟩
    | .error e => ⟨t, pool.release payload, some e⟩
  | free => ⟨t.withoutBuffers, pool.releaseAll t.buffers, none⟩
  | take => ⟨t.takePayloads.1, pool, none⟩

def aim? : Action → Option (Nat × ChunkStatus)
  | move position after => some (position, after)
  | complete position _ => some (position, .complete)
  | _ => none

def takes : Action → Bool
  | take => true
  | _ => false

def given : Action → List Buffer
  | complete _ payload => [payload]
  | _ => []

end Action

def play : List Action → Roster → Pool → Roster × Pool
  | [], t, pool => (t, pool)
  | a :: rest, t, pool => play rest (a.step t pool).roster (a.step t pool).pool

def statesOf (position : Nat) (history : List Action) (t : Roster) (pool : Pool) :
    List ChunkStatus :=
  history.inits.filterMap fun before => (play before t pool).1.chunks[position]?.map (·.state)

inductive Refusal (t : Roster) (position : Nat) (after : ChunkStatus) : Error → Prop where
  | outside (outside : t.width ≤ position) : Refusal t position after (.outOfRange position t.width)
  | undeclared {c : Chunk} (found : t.chunks[position]? = some c)
      (cannot : ¬ ChunkStatus.Leads false c.state after) :
      Refusal t position after (.internal (.illegalMove c.state after position))

inductive Result (t : Roster) (pool : Pool) : Action → Handled → Prop where
  | moved {position : Nat} {after : ChunkStatus} (may : t.MayMove position after) :
      Result t pool (.move position after) ⟨t.moved position after, pool, none⟩
  | loaded {position : Nat} {payload : Buffer} (may : t.MayMove position .complete) :
      Result t pool (.complete position payload) ⟨t.loaded position payload, pool, none⟩
  | refused {a : Action} {position : Nat} {after : ChunkStatus} {e : Error}
      (aim : a.aim? = some (position, after)) (refusal : Refusal t position after e) :
      Result t pool a ⟨t, pool.releaseAll a.given, some e⟩
  | freed : Result t pool .free ⟨t.withoutBuffers, pool.releaseAll t.buffers, none⟩
  | taken : Result t pool .take ⟨t.takePayloads.1, pool, none⟩

variable {t : Roster} {pool : Pool} {a : Action} {next : Handled} {i position : Nat}
  {after : ChunkStatus} {c : Chunk} {e : Error}

theorem move_refused (failed : t.move position after = .error e) : Refusal t position after e := by
  unfold move get at failed
  cases found : t.chunks[position]? with
  | none =>
    obtain rfl : .outOfRange position t.width = e := by simpa [found] using failed
    exact .outside (List.getElem?_eq_none_iff.mp found)
  | some c =>
    by_cases can : c.state.canMove after = true
    · simp [found, can] at failed
    · obtain rfl : .internal (.illegalMove c.state after position) = e := by
        simpa [found, can] using failed
      exact .undeclared found (mt ChunkStatus.canMove_iff.mpr can)

theorem complete_refused {payload : Buffer} (failed : t.complete position payload = .error e) :
    Refusal t position .complete e := by
  unfold complete at failed
  cases moved : t.move position .complete with
  | error e' =>
    obtain rfl : e' = e := by simpa [moved] using failed
    exact move_refused moved
  | ok done => simp [moved] at failed

theorem step_result (t : Roster) (pool : Pool) (a : Action) : Result t pool a (a.step t pool) := by
  cases a with
  | move position after =>
    rcases t.move_cases position after with ⟨c, found, can, done⟩ | ⟨_, e, failed⟩
    · simp only [Action.step, done]
      exact .moved ⟨c, found, can⟩
    · simp only [Action.step, failed]
      exact .refused rfl (move_refused failed)
  | complete position payload =>
    rcases t.complete_cases position payload with ⟨c, found, can, done⟩ | ⟨_, e, failed⟩
    · simp only [Action.step, done]
      exact .loaded ⟨c, found, can⟩
    · simp only [Action.step, failed]
      exact .refused rfl (complete_refused failed)
  | free => exact .freed
  | take => exact .taken

theorem scripted_step (t : Roster) (pool : Pool) :
    (∀ position after, let done := (Action.move position after).step t pool
      ∃ response, Scenario.rosterAct t pool (.move position after) =
        (done.roster, done.pool, response)) ∧
    (∀ position bytes capacity, let given := pool.adopt bytes capacity
      let done := (Action.complete position given.2).step t given.1
      ∃ response, Scenario.rosterAct t pool (.complete position bytes capacity) =
        (done.roster, done.pool, response)) ∧
    let done := Action.free.step t pool
    ∃ response, Scenario.rosterAct t pool .free = (done.roster, done.pool, response) := by
  refine ⟨fun position after => ?_, fun position bytes capacity => ?_, ⟨_, rfl⟩⟩
  · simp only [Scenario.rosterAct, Action.step]
    cases t.move position after with
    | ok moved => exact ⟨_, rfl⟩
    | error e => exact ⟨_, rfl⟩
  · simp only [Scenario.rosterAct, Action.step]
    cases t.complete position (pool.adopt bytes capacity).2 with
    | ok loaded => exact ⟨_, rfl⟩
    | error e => exact ⟨_, rfl⟩

structure Keeps (taking : Bool) (c d : Chunk) : Prop where
  position : d.position = c.position
  object : d.object = c.object
  state : d.state = c.state ∨ ChunkStatus.Leads taking c.state d.state
  owner : d.buffer ≠ none → c.buffer = d.buffer ∨ d.state = .complete

theorem Keeps.refl {taking : Bool} (c : Chunk) : Keeps taking c c :=
  ⟨rfl, rfl, .inl rfl, fun _ => .inl rfl⟩

theorem keeps_update {position : Nat} {f : Chunk → Chunk} {taking : Bool}
    (found : t.chunks[i]? = some c) (keeps : position = i → Keeps taking c (f c)) :
    ∃ d, (t.update position f).chunks[i]? = some d ∧ Keeps taking c d := by
  by_cases here : position = i
  · exact ⟨f c, by simp [update, found, here], keeps here⟩
  · exact ⟨c, by simp [update, found, here], .refl c⟩

theorem keeps_map {f : Chunk → Chunk} {taking : Bool} (found : t.chunks[i]? = some c)
    (keeps : Keeps taking c (f c)) :
    ∃ d, (Roster.mk (t.chunks.map f)).chunks[i]? = some d ∧ Keeps taking c d :=
  ⟨f c, by simp [found], keeps⟩

theorem MayMove.leads {position : Nat} {after : ChunkStatus} (may : t.MayMove position after)
    (found : t.chunks[position]? = some c) : ChunkStatus.Leads false c.state after := by
  obtain ⟨d, there, can⟩ := may
  obtain rfl := Option.some.inj (there.symm.trans found)
  exact ChunkStatus.canMove_iff.mp can

theorem Result.keeps (result : Result t pool a next) (found : t.chunks[i]? = some c) :
    ∃ d, next.roster.chunks[i]? = some d ∧ Keeps a.takes c d := by
  cases result with
  | moved may =>
    refine keeps_update found fun here => ?_
    subst here
    exact ⟨rfl, rfl, .inr (may.leads found), fun _ => .inl rfl⟩
  | loaded may =>
    refine keeps_update found fun here => ?_
    subst here
    exact ⟨rfl, rfl, .inr (may.leads found), fun _ => .inr rfl⟩
  | refused => exact ⟨c, found, .refl c⟩
  | freed => exact keeps_map found ⟨rfl, rfl, .inl rfl, by simp⟩
  | taken =>
    refine keeps_map found ⟨rfl, rfl, ?_, by simp⟩
    by_cases missing : c.state.canRebuild = true
    · simp only [missing, ↓reduceIte]
      exact .inr (ChunkStatus.canRebuild_iff.mp missing)
    · simp [missing]

theorem Result.width (result : Result t pool a next) : next.roster.width = t.width := by
  cases result with
  | moved => exact length_update _ _ _
  | loaded => exact length_update _ _ _
  | refused => rfl
  | freed => exact List.length_map _
  | taken => exact List.length_map _

theorem Result.kept (result : Result t pool a next) {d : Chunk}
    (found : next.roster.chunks[i]? = some d) :
    ∃ c, t.chunks[i]? = some c ∧ Keeps a.takes c d := by
  obtain ⟨inside, _⟩ := List.getElem?_eq_some_iff.mp found
  have before : i < t.width := result.width ▸ inside
  have there : t.chunks[i]? = some t.chunks[i] := List.getElem?_eq_getElem before
  obtain ⟨d', found', keeps⟩ := result.keeps there
  obtain rfl : d = d' := Option.some.inj (found.symm.trans found')
  exact ⟨_, there, keeps⟩

theorem update_other {position : Nat} (f : Chunk → Chunk) (other : position ≠ i) :
    (t.update position f).chunks[i]? = t.chunks[i]? := by
  simp [update, other]

theorem Result.others (result : Result t pool a next) {position : Nat} {after : ChunkStatus}
    (aim : a.aim? = some (position, after)) (other : i ≠ position) :
    next.roster.chunks[i]? = t.chunks[i]? := by
  cases result with
  | moved =>
    obtain ⟨rfl, _⟩ : _ = position ∧ _ = after := by simpa [Action.aim?] using aim
    exact update_other _ (Ne.symm other)
  | loaded =>
    obtain ⟨rfl, _⟩ : _ = position ∧ _ = after := by simpa [Action.aim?] using aim
    exact update_other _ (Ne.symm other)
  | refused => rfl
  | freed => simp [Action.aim?] at aim
  | taken => simp [Action.aim?] at aim

def places (t : Roster) : List (Nat × Nat) := t.chunks.map fun c => (c.position, c.object)

theorem Result.places (result : Result t pool a next) : next.roster.places = t.places := by
  refine List.ext_getElem? fun i => ?_
  simp only [Roster.places, List.getElem?_map]
  cases found : next.roster.chunks[i]? with
  | none =>
    have outside : t.width ≤ i := result.width ▸ List.getElem?_eq_none_iff.mp found
    rw [List.getElem?_eq_none outside]
  | some d =>
    obtain ⟨c, there, keeps⟩ := result.kept found
    simp [there, keeps.position, keeps.object]

theorem numbered_of_places {u : Roster} (same : u.places = t.places) (numbered : t.Numbered) :
    u.Numbered := by
  have positions : u.positions = t.positions := by
    have firsts := congrArg (List.map Prod.fst) same
    simpa [Roster.places, Roster.positions, Function.comp_def] using firsts
  have width : u.width = t.width := by
    simpa [Roster.places, Roster.width] using congrArg List.length same
  rw [Numbered, positions, width]
  exact numbered

def Owned (t : Roster) : Prop := ∀ c ∈ t.chunks, c.buffer ≠ none → c.state = .complete

theorem Result.owned (result : Result t pool a next) (owned : t.Owned) : next.roster.Owned := by
  intro d member owner
  obtain ⟨i, found⟩ := List.mem_iff_getElem?.mp member
  obtain ⟨c, there, keeps⟩ := result.kept found
  rcases keeps.owner owner with same | complete
  · have before : c.state = .complete := owned c (List.mem_of_getElem? there) (same ▸ owner)
    rcases keeps.state with stays | leads
    · exact stays.trans before
    · exact absurd before leads.not_final.1
  · exact complete

theorem play_keeps {P : Roster → Prop}
    (keeps : ∀ t pool a next, Result t pool a next → P t → P next.roster)
    (history : List Action) (start : P t) (pool : Pool) : P (play history t pool).1 := by
  induction history generalizing t pool with
  | nil => exact start
  | cons a rest ih => exact ih (keeps t pool a _ (step_result t pool a) start) _

theorem play_places (history : List Action) (t : Roster) (pool : Pool) :
    (play history t pool).1.places = t.places :=
  play_keeps (P := fun u => u.places = t.places)
    (fun _ _ _ _ result same => result.places.trans same) history rfl pool

theorem play_owned (owned : t.Owned) (history : List Action) (pool : Pool) :
    (play history t pool).1.Owned :=
  play_keeps (fun _ _ _ _ result => result.owned) history owned pool

theorem statesOf_cons (rest : List Action) (found : t.chunks[i]? = some c) :
    statesOf i (a :: rest) t pool =
      c.state :: statesOf i rest (a.step t pool).roster (a.step t pool).pool := by
  simp only [statesOf, List.inits_cons, List.filterMap_cons, play, found, Option.map_some,
    List.filterMap_map]
  rfl

theorem statesOf_steps (history : List Action) (pool : Pool) (found : t.chunks[i]? = some c) :
    ∃ rest, statesOf i history t pool = c.state :: rest ∧
      (c.state :: rest).IsChain fun before after =>
        after = before ∨ ∃ taking, ChunkStatus.Leads taking before after := by
  induction history generalizing t pool c with
  | nil => exact ⟨[], by simp [statesOf, play, found], .singleton _⟩
  | cons a history ih =>
    obtain ⟨d, found', keeps⟩ := (step_result t pool a).keeps found
    obtain ⟨rest, states, steps⟩ := ih (a.step t pool).pool found'
    refine ⟨d.state :: rest, by rw [statesOf_cons history found, states], ?_⟩
    exact List.isChain_cons_cons.mpr ⟨keeps.state.imp_right fun leads => ⟨_, leads⟩, steps⟩

theorem Numbered.partition (numbered : t.Numbered) (position : Nat) :
    position < t.width ↔ ∃! state, position ∈ t.positionsOf state := by
  constructor
  · intro inside
    have there : t.chunks[position]? = some t.chunks[position] := List.getElem?_eq_getElem inside
    refine ⟨t.chunks[position].state, numbered.mem_positionsOf.mpr ⟨_, there, rfl⟩, ?_⟩
    intro state member
    obtain ⟨c, found, rfl⟩ := numbered.mem_positionsOf.mp member
    rw [Option.some.inj (there.symm.trans found)]
  · rintro ⟨state, member, _⟩
    obtain ⟨c, found, _⟩ := numbered.mem_positionsOf.mp member
    exact (List.getElem?_eq_some_iff.mp found).1

/-- An action about one position is carried out there, and nowhere else. -/
structure Accepted (t : Roster) (pool : Pool) (a : Action) (position : Nat) (after : ChunkStatus)
    (next : Handled) : Prop where
  unrefused : next.refused = none
  pool : next.pool = pool
  chunk : ∃ c, t.chunks[position]? = some c ∧ ChunkStatus.Leads false c.state after ∧
    next.roster.chunks[position]? = some { c with state := after, buffer := a.given.head? }
  others : ∀ i, i ≠ position → next.roster.chunks[i]? = t.chunks[i]?

/-- An action about one position is refused: it only releases the payload that it came with. -/
structure Refused (t : Roster) (pool : Pool) (a : Action) (position : Nat) (after : ChunkStatus)
    (next : Handled) : Prop where
  reason : ∃ e, next.refused = some e ∧ Refusal t position after e
  roster : next.roster = t
  pool : next.pool = pool.releaseAll a.given

theorem Owned.bare (owned : t.Owned) (found : t.chunks[i]? = some c)
    (leads : ChunkStatus.Leads false c.state after) : c.buffer = none := by
  by_contra owner
  exact leads.not_final.1 (owned c (List.mem_of_getElem? found) owner)

theorem Result.answer (result : Result t pool a next) (owned : t.Owned)
    (aim : a.aim? = some (position, after)) :
    Accepted t pool a position after next ∨ Refused t pool a position after next := by
  have others : ∀ i, i ≠ position → next.roster.chunks[i]? = t.chunks[i]? := fun i other =>
    result.others aim other
  cases result with
  | moved may =>
    obtain ⟨rfl, rfl⟩ : _ = position ∧ _ = after := by simpa [Action.aim?] using aim
    obtain ⟨c, found, can⟩ := may
    have leads := ChunkStatus.canMove_iff.mp can
    refine .inl ⟨rfl, rfl, ⟨c, found, leads, ?_⟩, others⟩
    simp [Roster.moved, update, found, Action.given, owned.bare found leads]
  | loaded may =>
    obtain ⟨rfl, rfl⟩ : _ = position ∧ _ = after := by simpa [Action.aim?] using aim
    obtain ⟨c, found, can⟩ := may
    refine .inl ⟨rfl, rfl, ⟨c, found, ChunkStatus.canMove_iff.mp can, ?_⟩, others⟩
    simp [Roster.loaded, update, found, Action.given]
  | refused aim' refusal =>
    obtain ⟨rfl, rfl⟩ : _ = position ∧ _ = after := by simpa [aim'] using aim
    exact .inr ⟨⟨_, rfl, refusal⟩, rfl, rfl⟩
  | freed => simp [Action.aim?] at aim
  | taken => simp [Action.aim?] at aim

theorem make_places (layout : Layout) (stripe : Nat) :
    (make layout stripe).places =
      (List.range layout.width).map fun i => (i, layout.objectAt stripe i) := by
  simp [make, places, Function.comp_def]

theorem make_owned (layout : Layout) (stripe : Nat) : (make layout stripe).Owned := by
  intro c member owner
  obtain ⟨i, _, rfl⟩ := List.mem_map.mp member
  simp at owner

/-- Whatever is done to the roster of a stripe, its chunks keep their places and their objects,
    and each goes along the declared steps, into no state twice and nowhere from being complete
    or rebuilt. Only complete chunks own buffers, and the positions of the six states are all
    positions, each once and in order. Only the taking of the payloads makes a chunk rebuilt. An
    action about one position is carried out there alone if its step is declared; otherwise it
    is refused, releases the payload that came with it and changes nothing. -/
theorem roster_keeps_order (layout : Layout) (stripe : Nat) (history : List Action) (pool : Pool) :
    let start := make layout stripe
    let now := play history start pool
    now.1.places = (List.range layout.width).map (fun i => (i, layout.objectAt stripe i)) ∧
    (∀ i < layout.width, ∃ rest,
      (statesOf i history start pool).destutter (· ≠ ·) = .absent :: rest ∧
      ChunkStatus.Path (.absent :: rest) ∧ (.absent :: rest).Nodup ∧
      ∀ state ∈ (.absent :: rest).dropLast, state ≠ .complete ∧ state ≠ .rebuilt) ∧
    (∀ c ∈ now.1.chunks, c.buffer ≠ none → c.state = .complete) ∧
    (∀ state, (now.1.positionsOf state).Pairwise (· < ·)) ∧
    (∀ i, i < layout.width ↔ ∃! state, i ∈ now.1.positionsOf state) ∧
    ∀ a : Action,
      let next := a.step now.1 now.2
      (∀ (i : Nat) c, now.1.chunks[i]? = some c →
        ∃ d, next.roster.chunks[i]? = some d ∧ Keeps a.takes c d) ∧
      ∀ position after, a.aim? = some (position, after) →
        Accepted now.1 now.2 a position after next ∨ Refused now.1 now.2 a position after next := by
  intro start now
  have places : now.1.places = start.places := play_places history start pool
  have owned : now.1.Owned := play_owned (make_owned layout stripe) history pool
  have numbered : now.1.Numbered := numbered_of_places places (make_numbered layout stripe)
  have width : now.1.width = layout.width := by
    simpa [Roster.places, Roster.width, start, make] using congrArg List.length places
  refine ⟨places.trans (make_places layout stripe), ?_, owned, numbered.ascending, ?_, ?_⟩
  · intro i inside
    have found : start.chunks[i]? = some ⟨i, layout.objectAt stripe i, .absent, none⟩ := by
      simp [start, make, inside]
    obtain ⟨states, whole, steps⟩ := statesOf_steps history pool found
    obtain ⟨rest, walked, path⟩ := ChunkStatus.path_of_kept steps
    exact ⟨rest, whole ▸ walked, path, path.nodup, path.not_final⟩
  · intro i
    rw [← width]
    exact numbered.partition i
  · intro a next
    have result : Result now.1 now.2 a next := step_result now.1 now.2 a
    constructor
    · intro i c found
      exact result.keeps found
    · intro position after aim
      exact result.answer owned aim

/-- Six chunks of which one arrives, one fails after it was requested and the others are made; a
    second payload for the first and a request beyond the last position come too late or amiss. -/
theorem roster_keeps_order_one_lost :
    let start := make ⟨4, 2, 1, 0⟩ 2
    let payload : Buffer := ⟨[1, 2], [], 2, false⟩
    let history : List Action := [.move 0 .requested, .complete 0 payload, .complete 0 payload,
      .move 1 .requested, .move 6 .requested, .move 1 .failed, .take]
    let now := play history start (.make .standard)
    now.1.places = [(0, 8), (1, 9), (2, 10), (3, 11), (4, 2), (5, 2)] ∧
      statesOf 1 history start (.make .standard) =
        [.absent, .absent, .absent, .absent, .requested, .requested, .failed, .rebuilt] ∧
      ChunkStatus.Path [.absent, .requested, .failed, .rebuilt] ∧
      Refused now.1 now.2 (.complete 0 payload) 0 .complete
        ((Action.complete 0 payload).step now.1 now.2) := by
  intro start payload history now
  obtain ⟨places, walks, _, _, _, steps⟩ :=
    roster_keeps_order ⟨4, 2, 1, 0⟩ 2 history (.make .standard)
  have states : statesOf 1 history start (.make .standard) =
      [.absent, .absent, .absent, .absent, .requested, .requested, .failed, .rebuilt] := by
    decide +kernel
  refine ⟨places.trans (by decide), states, ?_, ?_⟩
  · obtain ⟨rest, walked, path, _, _⟩ := walks 1 (by decide)
    rw [states] at walked
    obtain rfl : [.requested, .failed, .rebuilt] = rest := by simpa [List.destutter] using walked
    exact path
  · obtain ⟨_, answered⟩ := steps (.complete 0 payload)
    refine (answered 0 .complete rfl).resolve_left fun accepted => ?_
    exact absurd accepted.unrefused (by decide +kernel)

end Roster
end StripeRecovery
