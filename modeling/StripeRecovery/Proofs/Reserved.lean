import StripeRecovery.Proofs.Numbering
import StripeRecovery.Proofs.Sendings

/-!
Which chunks the starts of a run reserve for their reads. A start reserves every chunk about
which nothing is known, and from then on something is known about it; so no chunk is reserved
twice, however many starts there are and whoever makes them.
-/
namespace StripeRecovery
namespace Session
variable {s : Session}

def Section.reserves (e : Section) (s : Session) : List Nat :=
  match e with
  | .request => s.request.2
  | _ => []

def reserved : List Section → Session → Pool → List Nat
  | [], _, _ => []
  | e :: rest, s, pool => e.reserves s ++ reserved rest (e.step s pool).session (e.step s pool).pool

theorem reserved_append (before after : List Section) (s : Session) (pool : Pool) :
    reserved (before ++ after) s pool = reserved before s pool ++
      reserved after (play before s pool).session (play before s pool).pool := by
  induction before generalizing s pool with
  | nil => rfl
  | cons e rest ih =>
    rw [List.cons_append, reserved, reserved, ih, List.append_assoc]
    rfl

/-- A start reserves chunks about which nothing is known, each once, and then it is known of them
    that they are asked for. -/
theorem reserves_once (numbered : s.roster.Numbered) (e : Section) (pool : Pool) :
    (e.reserves s).Nodup ∧ ∀ position ∈ e.reserves s,
      s.roster.Absent position ∧ ¬ (e.step s pool).session.roster.Absent position := by
  cases e with
  | request =>
    simp only [Section.reserves, Section.step, request]
    split
    · constructor
      · exact (numbered.ascending .absent).imp Nat.ne_of_lt
      · intro position member
        refine ⟨numbered.mem_positionsOf.mp member, ?_⟩
        rintro ⟨c, found, absent⟩
        obtain ⟨d, _, rfl⟩ := List.mem_map.mp (List.mem_of_getElem? found)
        split at absent
        · simp at absent
        · contradiction
    · simp
  | _ => simp [Section.reserves]

theorem reserved_once (numbered : s.roster.Numbered) (history : List Section) (pool : Pool) :
    (reserved history s pool).Nodup ∧ ∀ position ∈ reserved history s pool,
      s.roster.Absent position ∧ ¬ (play history s pool).session.roster.Absent position := by
  induction history generalizing s pool with
  | nil => simp [reserved]
  | cons e rest ih =>
    have change := step_change s pool e
    obtain ⟨once, first⟩ := reserves_once numbered e pool
    obtain ⟨others, later⟩ := ih (change.numbered numbered) (e.step s pool).pool
    constructor
    · refine List.nodup_append.mpr ⟨once, others, ?_⟩
      rintro position mine _ yours rfl
      exact (first position mine).2 (later position yours).1
    · intro position member
      rcases List.mem_append.mp member with mine | yours
      · obtain ⟨absent, known⟩ := first position mine
        exact ⟨absent, fun again => known (play_absent rest _ again)⟩
      · obtain ⟨absent, known⟩ := later position yours
        exact ⟨change.absent absent, known⟩

theorem external_marks {after : Session} (pending : s.phase = .pending) {position : Nat}
    (marked : s.external position = .ok after) :
    s.roster.Absent position ∧ ¬ after.roster.Absent position := by
  unfold external at marked
  by_cases outside : s.roster.width ≤ position
  · simp [outside] at marked
  · rcases s.roster.move_cases position .external with ⟨c, found, can, done⟩ | ⟨_, e, failed⟩
    · have absent : c.state = .absent := by
        cases state : c.state <;> simp [state, ChunkStatus.canMove] at can ⊢
      simp only [outside, pending, done, ↓reduceIte, Except.ok.injEq] at marked
      refine ⟨⟨c, found, absent⟩, ?_⟩
      rw [← marked]
      rintro ⟨d, there, still⟩
      simp only [Roster.moved, Roster.update, List.getElem?_modify_eq, found] at there
      cases there
      simp at still
    · simp [outside, pending, failed] at marked

theorem external_unreserved (numbered : s.roster.Numbered) {before rest : List Section}
    {pool : Pool} {position : Nat} {after : Session}
    (pending : (play before s pool).session.phase = .pending)
    (marked : (play before s pool).session.external position = .ok after) :
    position ∉ reserved (before ++ .external position :: rest) s pool := by
  obtain ⟨absent, known⟩ := external_marks pending marked
  have step : ((Section.external position).step (play before s pool).session
      (play before s pool).pool).session = after := by
    simp [Section.step, marked]
  rw [reserved_append]
  intro member
  rcases List.mem_append.mp member with early | late
  · exact (reserved_once numbered before pool).2 position early |>.2 absent
  · simp only [reserved, Section.reserves, List.nil_append, step] at late
    have there := play_numbered (play_numbered numbered before pool) [.external position]
      (play before s pool).pool
    simp only [play, step] at there
    exact known ((reserved_once there rest _).2 position late).1

end Session

variable {ω : Type}

namespace World
variable {out : Outside ω}

/-- The world changed by a run of sections, in which the positions read were reserved. -/
def Reserves (w after : World (ω × List ReadCall)) : Prop :=
  ∃ history calls, w.Evolves history after ∧ after.reads = w.reads ++ calls ∧
    (calls.map (·.position)).Sublist (Session.reserved history w.session w.pool)

theorem Reserves.trans {w v u : World (ω × List ReadCall)} (first : w.Reserves v)
    (second : v.Reserves u) : w.Reserves u := by
  obtain ⟨before, calls, evolves, reads, reserved⟩ := first
  obtain ⟨after, more, evolves', reads', reserved'⟩ := second
  refine ⟨before ++ after, calls ++ more, evolves.trans evolves', ?_, ?_⟩
  · rw [reads', reads, List.append_assoc]
  · rw [evolves.session, evolves.pool] at reserved'
    rw [List.map_append, Session.reserved_append]
    exact reserved.append reserved'

theorem Reserves.once {w after : World (ω × List ReadCall)} (reserves : w.Reserves after)
    (numbered : w.session.roster.Numbered) :
    ∃ calls, after.reads = w.reads ++ calls ∧ (calls.map (·.position)).Nodup ∧
      ∀ position ∈ calls.map (·.position),
        w.session.roster.Absent position ∧ ¬ after.session.roster.Absent position := by
  obtain ⟨history, calls, evolves, reads, sub⟩ := reserves
  obtain ⟨once, fresh⟩ := Session.reserved_once numbered history w.pool
  refine ⟨calls, reads, once.sublist sub, fun position member => ?_⟩
  rw [evolves.session]
  exact fresh position (sub.subset member)

theorem Reserves.numbered {w after : World (ω × List ReadCall)} (reserves : w.Reserves after)
    (numbered : w.session.roster.Numbered) : after.session.roster.Numbered := by
  obtain ⟨history, calls, evolves, _⟩ := reserves
  rw [evolves.session]
  exact Session.play_numbered numbered history w.pool

theorem Reserves.keeps {P : Session → Prop} (kept : Kept P) {w after : World (ω × List ReadCall)}
    (reserves : w.Reserves after) (holds : P w.session) : P after.session := by
  obtain ⟨history, calls, evolves, _⟩ := reserves
  exact evolves.keeps kept holds

theorem performAll_append (out : Outside ω) (before rest : List Operation) (w : World ω) :
    performAll out (before ++ rest) w = performAll out rest (performAll out before w) := by
  induction before generalizing w with
  | nil => rfl
  | cons op others ih => exact ih (w.perform out op)

variable {P : Session → Prop} (confined : out.Confined P fun _ => True) (kept : Kept P)
include confined kept

theorem perform_reserves (op : Operation) {w : World (ω × List ReadCall)} (holds : P w.session) :
    w.Reserves (w.perform out.recording op) := by
  by_cases starts : op = .start
  · subst starts
    have first : w.Evolves [.request] w.requested.1 :=
      .one .request rfl rfl (List.append_nil _).symm
    obtain ⟨history, _, evolves⟩ := sendReads_works confined.recording kept w.tallies.length
      w.requested.2 (first.keeps kept holds)
    obtain ⟨calls, reads, called⟩ :=
      sendReads_called out w.tallies.length w.requested.2 w.requested.1
    have reached := sendings_prefix out.recording w.tallies.length w.requested.2 w.requested.1
    refine ⟨[.request] ++ history, calls, first.trans evolves, reads, ?_⟩
    rw [Session.reserved_append]
    refine (called.positions.trans reached.sublist).trans ?_
    simp [Session.reserved, Session.Section.reserves, requested]
  · obtain ⟨history, _, evolves⟩ := perform_works confined.recording kept op holds
    exact ⟨history, [], evolves, (perform_reads out w starts).trans (List.append_nil _).symm,
      List.nil_sublist _⟩

theorem performAll_reserves (ops : List Operation) {w : World (ω × List ReadCall)}
    (holds : P w.session) : w.Reserves (performAll out.recording ops w) := by
  induction ops generalizing w with
  | nil => exact ⟨[], [], .refl w, (List.append_nil _).symm, .slnil⟩
  | cons op rest ih =>
    have first := perform_reserves confined kept op holds
    exact first.trans (ih (first.keeps kept holds))

theorem external_unread {w : World (ω × List ReadCall)} (holds : P w.session)
    (numbered : w.session.roster.Numbered) (unread : w.reads = []) (before rest : List Operation)
    {position : Nat} (pending : (performAll out.recording before w).session.phase = .pending)
    (marked : ((performAll out.recording before w).external position).2 = .ok ()) :
    position ∉ (performAll out.recording (before ++ .external position :: rest) w).reads.map
      (·.position) := by
  have first := performAll_reserves confined kept before holds
  rw [performAll_append]
  generalize performAll out.recording before w = v at first pending marked ⊢
  have second := perform_reserves confined kept (.external position) (first.keeps kept holds)
  have third := performAll_reserves confined kept rest (second.keeps kept (first.keeps kept holds))
  obtain ⟨s, ok⟩ : ∃ s, v.session.external position = .ok s := by
    cases external : v.session.external position with
    | ok s => exact ⟨s, rfl⟩
    | error e => simp [World.external, external] at marked
  obtain ⟨absent, known⟩ := Session.external_marks pending ok
  have here : (v.perform out.recording (.external position)).session = s := by
    simp [perform, World.external, ok]
  obtain ⟨early, read, _, earlier⟩ := first.once numbered
  obtain ⟨late, readLate, _, later⟩ := third.once (second.numbered (first.numbered numbered))
  have same : (v.perform out.recording (.external position)).reads = v.reads :=
    perform_reads out v (by simp)
  have all : (performAll out.recording (.external position :: rest) v).reads = early ++ late := by
    rw [performAll, readLate, same, read, unread, List.nil_append]
  rw [all, List.map_append]
  intro member
  rcases List.mem_append.mp member with before | after
  · exact (earlier position before).2 absent
  · exact known (here ▸ (later position after).1)

end World

end StripeRecovery
