import StripeRecovery.Proofs.Reserved

/-!
How a start sends its reads. It goes through the positions about which nothing is known, in
ascending order; a read that cannot be sent counts as failed at once, and the first of these
that finds the session aborted ends the start.
-/
namespace StripeRecovery

variable {ω : Type}

namespace Roster
variable {t : Roster}

/-- What becomes of a roster when a start has asked for every absent chunk, in vain for those
    at the positions `refused`. -/
def asked (t : Roster) (refused : List Nat) : Roster :=
  ⟨t.chunks.map fun c =>
    if c.position ∈ refused then { c with state := .failed }
    else if c.state = .absent then { c with state := .requested } else c⟩

theorem asked_nil : t.asked [] = t.requested := by
  simp [asked, requested]

theorem asked_moved (numbered : t.Numbered) (refused : List Nat) (position : Nat) :
    (t.asked refused).moved position .failed = t.asked (refused ++ [position]) := by
  suffices same : ∀ i, ((t.asked refused).moved position .failed).chunks[i]? =
      (t.asked (refused ++ [position])).chunks[i]? from
    congrArg Roster.mk (List.ext_getElem? same)
  intro i
  simp only [moved, update, asked, List.getElem?_modify, List.getElem?_map]
  cases found : t.chunks[i]? with
  | none => rfl
  | some c =>
    have place := numbered.position found
    by_cases here : position = i
    · simp only [here, Option.map_eq_map, Option.map_some, ↓reduceIte, place, List.mem_append,
        List.mem_singleton, or_true]
      congr 1
      repeat' split
      all_goals simp [place]
    · simp [here, place, Ne.symm here]

theorem asked_get (numbered : t.Numbered) {refused : List Nat} {position : Nat}
    (absent : t.Absent position) (new : position ∉ refused) :
    ∃ c, (t.asked refused).chunks[position]? = some c ∧ c.state = .requested := by
  obtain ⟨c, found, state⟩ := absent
  have place := numbered.position found
  exact ⟨{ c with state := .requested }, by simp [asked, found, place, new, state], rfl⟩

end Roster

namespace Session
variable {s : Session}

def requestAt (s : Session) (position : Nat) : ReadRequest :=
  ⟨s.target.file, { s.layout with home := position }, s.layout.objectAt s.stripe position, 0,
    s.layout.chunkSize, s.target.committed⟩

theorem requestFor_valid (valid : s.layout.Valid) {position : Nat}
    (inside : position < s.layout.width) :
    World.requestFor s position = .ok (s.requestAt position) := by
  simp only [World.requestFor, Layout.seenFrom_valid valid inside]
  rfl

def dispatched (s : Session) (refused : List Nat) : Session :=
  let failures := s.failures + refused.length
  if failures ≤ s.layout.parity then
    { s with roster := s.roster.asked refused, failures := failures }
  else
    { s with
      roster := (s.roster.asked refused).withoutBuffers, failures := failures, phase := .aborted }

theorem dispatched_target (refused : List Nat) : (s.dispatched refused).target = s.target := by
  unfold dispatched
  dsimp only
  split <;> rfl

theorem request_dispatched (pending : s.phase = .pending) (few : s.failures ≤ s.layout.parity) :
    s.request.1 = s.dispatched [] := by
  have asked : s.roster.asked [] = s.roster.requested := Roster.asked_nil
  simp only [dispatched, List.length_nil, Nat.add_zero, few, ↓reduceIte, asked]
  simp only [request, pending, ↓reduceIte]
  rfl

theorem fail_counts (pending : s.phase = .pending) (unleased : s.lease = none) {position : Nat}
    (may : s.roster.MayMove position .failed) (pool : Pool) :
    (s.fail pool position).session =
        (if s.failures + 1 ≤ s.layout.parity then
          { s with roster := s.roster.moved position .failed, failures := s.failures + 1 }
        else
          { s with
            roster := (s.roster.moved position .failed).withoutBuffers
            failures := s.failures + 1
            phase := .aborted }) ∧
      (s.fail pool position).answer.outcome =
        if s.failures + 1 ≤ s.layout.parity then .pending else .aborted := by
  obtain ⟨state, move⟩ : ∃ state, s.roster.move position .failed =
      .ok (s.roster.moved position .failed, state) := by
    rcases s.roster.move_cases position .failed with ⟨c, _, _, done⟩ | ⟨cannot, _⟩
    · exact ⟨c.state, done⟩
    · exact absurd may cannot
  unfold fail
  rw [pending]
  simp only [move]
  split
  · exact ⟨rfl, rfl⟩
  · exact ⟨by simp [free, giveUpStripe, unleased], rfl⟩

theorem fail_dispatched (numbered : s.roster.Numbered) (pending : s.phase = .pending)
    (unleased : s.lease = none) {refused : List Nat}
    (few : s.failures + refused.length ≤ s.layout.parity) {position : Nat}
    (absent : s.roster.Absent position) (new : position ∉ refused) (pool : Pool) :
    ((s.dispatched refused).fail pool position).session = s.dispatched (refused ++ [position]) ∧
      ((s.dispatched refused).fail pool position).answer.outcome =
        if s.failures + refused.length + 1 ≤ s.layout.parity then .pending else .aborted := by
  obtain ⟨c, found, state⟩ := Roster.asked_get numbered absent new
  have before : s.dispatched refused = { s with
      roster := s.roster.asked refused, failures := s.failures + refused.length } := if_pos few
  have may : (s.dispatched refused).roster.MayMove position .failed := by
    rw [before]
    exact ⟨c, found, by simp [state, ChunkStatus.canMove]⟩
  obtain ⟨after, outcome⟩ := fail_counts (s := s.dispatched refused) (by rw [before]; exact pending)
    (by rw [before]; exact unleased) may pool
  constructor
  · rw [after, before, dispatched, List.length_append, ← Nat.add_assoc]
    simp only [Roster.asked_moved numbered]
    rfl
  · rw [outcome, before]
    rfl

theorem of_target {s t : Session} (target : t.target = s.target) :
    t.layout = s.layout ∧ t.routeOf = s.routeOf ∧ t.requestAt = s.requestAt := by
  have layout : t.layout = s.layout := congrArg Target.layout target
  refine ⟨layout, ?_, ?_⟩
  · unfold routeOf
    rw [layout, target]
  · unfold requestAt stripe
    rw [layout, target]

end Session

def Sending.call? (s : Session) (start : Nat) (x : Sending) : Option ReadCall :=
  (s.routeOf x.position).map fun route => ⟨start, route, s.requestAt x.position, x.fault⟩

structure Outside.Quiet (out : Outside ω) : Prop where
  notify : ∀ n (w : World ω), (out.notify n w).session = w.session
  send : ∀ start route request (w : World ω),
    (out.send start route request w).1.session = w.session

theorem Outside.Quiet.recording {out : Outside ω} (quiet : out.Quiet) : out.recording.Quiet :=
  ⟨fun n w => quiet.notify n w.bare, fun start route request w =>
    quiet.send start route request w.bare⟩

namespace World

/-- A start went through `positions`, of which it reached those of `sendings`; the reads of
    `earlier` ones could not be sent. -/
structure Dispatched (s : Session) (start : Nat) (positions earlier : List Nat)
    (w after : World (ω × List ReadCall)) (sendings : List Sending) : Prop where
  session : after.session = s.dispatched (earlier ++ Sending.refused sendings)
  reads : after.reads = w.reads ++ sendings.filterMap (Sending.call? s start)
  unknown : ∀ x ∈ sendings, s.routeOf x.position = none →
    x.fault = some (.dispatch x.position .unknownNode)
  whole : s.failures + (earlier ++ Sending.refused sendings).length ≤ s.layout.parity →
    sendings.map (·.position) = positions
  stopped : s.layout.parity < s.failures + (earlier ++ Sending.refused sendings).length →
    s.failures + (earlier ++ Sending.refused sendings).length = s.layout.parity + 1 ∧
      ∃ before position error, sendings = before ++ [⟨position, some error⟩]

namespace Dispatched
variable {s : Session} {start position : Nat} {positions earlier : List Nat}
  {w v after : World (ω × List ReadCall)} {sendings : List Sending} {fault : Option Error}

theorem nil (few : s.failures + earlier.length ≤ s.layout.parity)
    (here : w.session = s.dispatched earlier) : Dispatched s start [] earlier w w [] where
  session := by simpa [Sending.refused] using here
  reads := (List.append_nil _).symm
  unknown := by simp
  whole _ := rfl
  stopped many := by
    simp only [Sending.refused, List.filter_nil, List.map_nil, List.append_nil] at many
    omega

theorem cons (asked : v.reads = w.reads ++ (Sending.call? s start ⟨position, fault⟩).toList)
    (unknown : s.routeOf position = none → fault = some (.dispatch position .unknownNode))
    (rest : Dispatched s start positions (earlier ++ Sending.refused [⟨position, fault⟩]) v after
      sendings) :
    Dispatched s start (position :: positions) earlier w after (⟨position, fault⟩ :: sendings) := by
  have all : earlier ++ Sending.refused (⟨position, fault⟩ :: sendings) =
      earlier ++ Sending.refused [⟨position, fault⟩] ++ Sending.refused sendings := by
    cases fault <;> simp [Sending.refused]
  refine ⟨?_, ?_, ?_, ?_, ?_⟩
  · rw [all]
    exact rest.session
  · rw [rest.reads, asked, List.append_assoc]
    cases called : Sending.call? s start ⟨position, fault⟩ <;> simp [called]
  · intro x member
    rcases List.mem_cons.mp member with rfl | there
    · exact unknown
    · exact rest.unknown x there
  · intro few
    rw [all] at few
    rw [List.map_cons, rest.whole few]
  · intro many
    rw [all] at many ⊢
    obtain ⟨one, before, last, error, ends⟩ := rest.stopped many
    exact ⟨one, ⟨position, fault⟩ :: before, last, error, by rw [ends]; rfl⟩

theorem last {error : Error}
    (asked : after.reads = w.reads ++ (Sending.call? s start ⟨position, some error⟩).toList)
    (unknown : s.routeOf position = none → error = .dispatch position .unknownNode)
    (here : after.session = s.dispatched (earlier ++ [position]))
    (few : s.failures + earlier.length ≤ s.layout.parity)
    (many : ¬ s.failures + earlier.length + 1 ≤ s.layout.parity) :
    Dispatched s start (position :: positions) earlier w after [⟨position, some error⟩] where
  session := here
  reads := by
    cases called : Sending.call? s start ⟨position, some error⟩ <;> simp [called, asked]
  unknown := by
    intro x member gap
    obtain rfl := List.mem_singleton.mp member
    exact congrArg some (unknown gap)
  whole within := by
    simp only [Sending.refused, List.length_append, List.length_map] at within
    exact absurd within many
  stopped _ := by
    have count :
        (earlier ++ Sending.refused [⟨position, some error⟩]).length = earlier.length + 1 := by
      simp [Sending.refused]
    rw [count]
    exact ⟨by omega, [], position, error, rfl⟩

end Dispatched

variable {out : Outside ω} (quiet : out.Quiet)
include quiet

theorem sendRead_quiet (start : Nat) {position : Nat} {w : World (ω × List ReadCall)}
    (valid : w.session.layout.Valid) (inside : position < w.session.layout.width) :
    (w.sendRead out.recording start position).1.session = w.session ∧
      (w.sendRead out.recording start position).1.reads = w.reads ++ (Sending.call? w.session start
        ⟨position, (w.sendRead out.recording start position).2⟩).toList ∧
      (w.session.routeOf position = none →
        (w.sendRead out.recording start position).2 = some (.dispatch position .unknownNode)) := by
  rw [sendRead_reads, sendRead_eq, Session.requestFor_valid valid inside]
  unfold Sending.call?
  cases w.session.routeOf position with
  | none => exact ⟨rfl, rfl, fun _ => rfl⟩
  | some route => exact ⟨quiet.recording.send start route _ w, rfl, by simp⟩

theorem raise?_quiet (n : Option Notice) (w : World ω) :
    (w.raise? out n).session = w.session := by
  cases n with
  | none => rfl
  | some n => exact quiet.notify n _

theorem deliver_failure_quiet (start position : Nat) (error : Error) (w : World ω) :
    (w.deliver out start position (.failure error)).1.session =
        (w.session.fail w.pool position).session ∧
      (w.deliver out start position (.failure error)).2 =
        (w.session.fail w.pool position).answer.outcome :=
  ⟨raise?_quiet quiet _ _, rfl⟩

theorem refused_dispatched {s : Session} (numbered : s.roster.Numbered)
    (pending : s.phase = .pending) (unleased : s.lease = none) {refused : List Nat}
    (few : s.failures + refused.length ≤ s.layout.parity) {position : Nat}
    (absent : s.roster.Absent position) (new : position ∉ refused) (start : Nat) (error : Error)
    {w : World ω} (here : w.session = s.dispatched refused) :
    (w.deliver out start position (.failure error)).1.session =
        s.dispatched (refused ++ [position]) ∧
      ((w.deliver out start position (.failure error)).2.shouldStop = true ↔
        ¬ s.failures + refused.length + 1 ≤ s.layout.parity) := by
  obtain ⟨left, told⟩ := deliver_failure_quiet quiet start position error w
  obtain ⟨failed, outcome⟩ :=
    Session.fail_dispatched numbered pending unleased few absent new w.pool
  rw [left, told, here, failed, outcome]
  refine ⟨rfl, ?_⟩
  by_cases more : s.failures + refused.length + 1 ≤ s.layout.parity
  · simp [more, Effect.shouldStop]
  · simp [more, Effect.shouldStop]

theorem sendReads_dispatched {s : Session} (valid : s.layout.Valid) (numbered : s.roster.Numbered)
    (width : s.roster.width = s.layout.width) (pending : s.phase = .pending)
    (unleased : s.lease = none) (start : Nat) (positions earlier : List Nat)
    (few : s.failures + earlier.length ≤ s.layout.parity) (once : positions.Nodup)
    (absent : ∀ p ∈ positions, s.roster.Absent p ∧ p ∉ earlier)
    {w : World (ω × List ReadCall)} (here : w.session = s.dispatched earlier) :
    Dispatched s start positions earlier w (w.sendReads out.recording start positions)
      (sendings out.recording start positions w) := by
  induction positions generalizing w earlier with
  | nil => exact .nil few here
  | cons position rest ih =>
    obtain ⟨layout, routes, requests⟩ :=
      Session.of_target (here ▸ s.dispatched_target earlier : w.session.target = s.target)
    obtain ⟨isAbsent, new⟩ := absent position (by simp)
    have inside : position < s.layout.width := by
      obtain ⟨c, found, _⟩ := isAbsent
      exact width ▸ (List.getElem?_eq_some_iff.mp found).1
    have onceRest := (List.nodup_cons.mp once).2
    have fresh : ∀ p ∈ rest, p ≠ position := by
      rintro p there rfl
      exact (List.nodup_cons.mp once).1 there
    obtain ⟨same, asked, unknown⟩ := sendRead_quiet quiet start (layout ▸ valid) (layout ▸ inside)
    simp only [Sending.call?, routes, requests] at asked
    rw [routes] at unknown
    simp only [sendReads, sendings]
    cases answer : w.sendRead out.recording start position with
    | mk v fault =>
      rw [answer] at same asked unknown
      cases fault with
      | none =>
        have others := ih earlier few onceRest (fun p there => absent p (by simp [there]))
          (same.trans here)
        exact .cons asked unknown (by simpa [Sending.refused] using others)
      | some e =>
        let counted := v.account start Tally.quickFail
        obtain ⟨session, stops⟩ := refused_dispatched (w := counted) quiet.recording numbered
          pending unleased few isAbsent new start e (same.trans here)
        have read : (counted.deliver out.recording start position (.failure e)).1.reads =
            w.reads ++ (Sending.call? s start ⟨position, some e⟩).toList :=
          (deliver_reads out counted start position (.failure e)).trans asked
        dsimp only
        by_cases more : s.failures + earlier.length + 1 ≤ s.layout.parity
        · rw [if_neg fun stop => stops.mp stop more, if_neg fun stop => stops.mp stop more]
          refine .cons read unknown (ih (earlier ++ [position]) ?_ onceRest ?_ session)
          · simpa [Nat.add_assoc] using more
          · intro p there
            obtain ⟨untouched, unseen⟩ := absent p (by simp [there])
            exact ⟨untouched, by simp [unseen, fresh p there]⟩
        · rw [if_pos (stops.mpr more), if_pos (stops.mpr more)]
          exact .last read (fun gap => Option.some.inj (unknown gap)) session few more

end World

/-- The law by which a start sends its reads. -/
theorem start_dispatches {target : Target} {data parity : Nat} {settings : Settings}
    {s : Session} (valid : target.layout.Valid)
    (made : Session.make target data parity settings = .ok s) :
    (∀ {ω : Type} (out : Outside ω), out.Quiet →
      ∀ (history : List Session.Section) (pool : Pool) (w : World (ω × List ReadCall)),
        w.session = (Session.play history s pool).session → w.session.phase = .pending →
        let positions := w.session.roster.positionsOf .absent
        positions.Pairwise (· < ·) ∧ (∀ p, p ∈ positions ↔ w.session.roster.Absent p) ∧
          ∃ sendings, sendings.map (·.position) <+: positions ∧
            World.Dispatched w.session w.tallies.length positions [] w (w.start out.recording).1
              sendings) ∧
    (∀ (history : List Session.Section) (pool : Pool), (Session.reserved history s pool).Nodup ∧
      ∀ before position rest after, history = before ++ .external position :: rest →
        (Session.play before s pool).session.phase = .pending →
        (Session.play before s pool).session.external position = .ok after →
        position ∉ Session.reserved history s pool) ∧
    ∀ {ω : Type} (out : Outside ω), out.Confined Session.Sound (fun _ => True) →
      ∀ (ops : List World.Operation) (w : World (ω × List ReadCall)), w.session = s → w.reads = [] →
        let after := World.performAll out.recording ops w
        w.Reserves after ∧ (after.reads.map (·.position)).Nodup ∧
          ∀ before position rest, ops = before ++ .external position :: rest →
            let v := World.performAll out.recording before w
            v.session.phase = .pending → (v.external position).2 = .ok () →
            position ∉ after.reads.map (·.position) := by
  have start : s.Invariant := Session.Invariant.make valid.data_pos made
  have numbered : s.roster.Numbered := Session.make_numbered made
  have kept : World.Kept Session.Invariant := fun e _ pool held => held.step e pool
  refine ⟨?_, ?_, ?_⟩
  · intro ω out quiet history pool w reachable pending positions
    have invariant : w.session.Invariant := reachable ▸ start.play history pool
    have placed : w.session.roster.Numbered :=
      reachable ▸ Session.play_numbered numbered history pool
    have layout : w.session.layout = target.layout := by
      obtain ⟨_, _, rfl⟩ := Session.make_ok made
      rw [reachable]
      exact congrArg Target.layout (Session.play_target _ pool history)
    have few := (invariant.counted.undecided pending).2
    have taken : w.session.request.2 = positions := by simp [Session.request, pending, positions]
    refine ⟨placed.ascending .absent, fun p => placed.mem_positionsOf, ?_⟩
    refine ⟨World.sendings out.recording w.tallies.length positions w.requested.1, ?_, ?_⟩
    · exact World.sendings_prefix out.recording w.tallies.length positions w.requested.1
    · have dispatched := World.sendReads_dispatched quiet (layout ▸ valid) placed
        invariant.counted.width pending (invariant.staged.early (.inl pending)).2 w.tallies.length
        positions [] few ((placed.ascending .absent).imp Nat.ne_of_lt)
        (fun p member => ⟨placed.mem_positionsOf.mp member, by simp⟩) (w := w.requested.1)
        (Session.request_dispatched pending few)
      have same : (w.start out.recording).1 =
          w.requested.1.sendReads out.recording w.tallies.length positions := by
        rw [← taken]
        rfl
      rw [same]
      exact ⟨dispatched.session, dispatched.reads, dispatched.unknown, dispatched.whole,
        dispatched.stopped⟩
  · intro history pool
    refine ⟨(Session.reserved_once numbered history pool).1, ?_⟩
    rintro before position rest after rfl pending marked
    exact Session.external_unreserved numbered pending marked
  · intro ω out confined ops w fresh unread after
    have whole := World.performAll_reserves confined.of_sound kept ops (w := w) (fresh ▸ start)
    obtain ⟨calls, reads, once, _⟩ := whole.once (fresh ▸ numbered)
    have all : after.reads = calls := by rw [reads, unread, List.nil_append]
    refine ⟨whole, all ▸ once, ?_⟩
    rintro before position rest rfl v pending marked
    exact World.external_unread confined.of_sound kept (fresh ▸ start) (fresh ▸ numbered) unread
      before rest pending marked

/-- Position 0 is fetched by another operation, 1 is at home, 2 has no node and the node of 3
    refuses, which is one failure too many. -/
theorem start_dispatches_until_aborted :
    let peers : Peers := ⟨[some "a", none, none, some "d", some "e"]⟩
    let target : Target := ⟨"vol:file", 7, ⟨4, 1, 1, 1⟩, .empty, peers⟩
    let s : Session := ⟨target, none, .pending, .make target.layout 7, 0, 0, none, none⟩
    let refusal : Error := .dispatch 3 (.stated "refused")
    let out : Outside Unit :=
      { notify := fun _ w => w
        send := fun _ route _ w => (w, if route = .peer "d" then some refusal else none)
        repair := fun _ w => (w, ⟨[], .error (.tooFewShards 0 2)⟩) }
    let w : World (Unit × List ReadCall) := ⟨s, .make .standard, [], [], ((), [])⟩
    let v := World.performAll out.recording [.external 0] w
    let after := (v.start out.recording).1
    let read (home : Nat) : ReadRequest :=
      ⟨"vol:file", ⟨4, 1, 1, home⟩, 28 + home, 0, 1024, .empty⟩
    (∃ sendings, World.Dispatched v.session 0 [1, 2, 3, 4] [] v after sendings) ∧
      (after.reads.map (·.position)).Nodup ∧ 0 ∉ after.reads.map (·.position) ∧
      after.reads = [⟨0, .local, read 1, none⟩, ⟨0, .peer "d", read 3, some refusal⟩] ∧
      after.session.phase = .aborted := by
  intro peers target s refusal out w v after read
  have valid : target.layout.Valid := ⟨by decide, by decide, by decide, by decide, by decide⟩
  have made : Session.make target 4 1 .standard = .ok s := by decide +kernel
  have quiet : out.Quiet := ⟨fun _ _ => rfl, fun _ _ _ _ => rfl⟩
  have confined : out.Confined Session.Sound fun _ => True :=
    ⟨fun _ w _ => ⟨[], by simp, .refl w⟩, fun _ _ _ w _ => ⟨[], by simp, .refl w⟩,
      fun _ w _ => ⟨[], by simp, .refl w⟩⟩
  obtain ⟨law, _, run⟩ := start_dispatches valid made
  obtain ⟨_, _, sendings, _, dispatched⟩ :=
    law out quiet [.external 0] (.make .standard) v (by decide +kernel) (by decide +kernel)
  have positions : v.session.roster.positionsOf .absent = [1, 2, 3, 4] := by decide +kernel
  rw [positions] at dispatched
  obtain ⟨_, once, marked⟩ := run out confined [.external 0, .start] w rfl rfl
  have unread := marked [] 0 [.start] rfl (by decide +kernel) (by decide +kernel)
  exact ⟨⟨sendings, dispatched⟩, once, unread, by decide +kernel, by decide +kernel⟩

end StripeRecovery
