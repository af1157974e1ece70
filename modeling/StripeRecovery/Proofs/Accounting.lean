import StripeRecovery.Proofs.Entries
import StripeRecovery.Proofs.Reserved

/-!
What the account of a start says, at any time after the start returned: how many reads were
sent, how many of them have answered and how many of the answers were errors. The positions
that a start did not get to are not in the account. What is outstanding lags behind while a
call is between its two updates, and is never ahead.
-/
namespace StripeRecovery

namespace Tally

/-- What the account of a start says, of `positions` that were to be read. Reads were sent for
    those in `sent`; `answered` and `faulty` are the reports of these reads, and calls that are
    between their two updates have yet to take `pending` off. -/
structure Accounts (t : Tally) (positions pending : Nat) (sent answered faulty : List Nat) :
    Prop where
  expected : t.expected = sent.length + t.quickFails
  responses : t.responses = t.quickFails + answered.length
  errors : t.errors = t.quickFails + faulty.length
  quickFails_le : t.quickFails ≤ t.errors
  reached : sent.length + t.quickFails ≤ positions
  outstanding : answered.Nodup → answered ⊆ sent → pending = 0 →
    t.outstanding = (sent.filter (· ∉ answered)).length
  drained : answered.Nodup → answered ⊆ sent → pending = 0 →
    (t.isDrained = true ↔ sent ⊆ answered)
  never_early : answered.Nodup → answered ⊆ sent → t.isDrained = true → sent ⊆ answered

theorem unanswered_length {sent answered : List Nat} (once : sent.Nodup) (each : answered.Nodup)
    (own : answered ⊆ sent) :
    (sent.filter (· ∉ answered)).length + answered.length = sent.length := by
  have same : (sent.filter (· ∈ answered)).Perm answered := by
    refine (List.perm_ext_iff_of_nodup (once.filter _) each).mpr fun position => ?_
    simp only [List.mem_filter, decide_eq_true_eq, and_iff_right_iff_imp]
    exact fun member => own member
  have split := List.length_eq_length_filter_add (l := sent) (· ∈ answered)
  rw [same.length_eq] at split
  simp only [decide_not]
  omega

theorem Accounts.of_tracked {a : Account} (tracked : a.Tracked) {positions : Nat}
    {sent answered faulty : List Nat} (once : sent.Nodup)
    (expected : a.tally.expected = sent.length + a.tally.quickFails)
    (responses : a.tally.responses = a.tally.quickFails + answered.length)
    (errors : a.tally.errors = a.tally.quickFails + faulty.length)
    (reached : sent.length + a.tally.quickFails ≤ positions) :
    a.tally.Accounts positions a.pending sent answered faulty := by
  have missing : answered.Nodup → answered ⊆ sent →
      (sent.filter (· ∉ answered)).length = a.tally.expected - a.tally.responses := by
    intro each own
    have counted := unanswered_length once each own
    omega
  have none_left : (sent.filter (· ∉ answered)).length = 0 ↔ sent ⊆ answered := by
    rw [List.length_eq_zero_iff, List.filter_eq_nil_iff]
    simp only [decide_eq_true_eq, Decidable.not_not]
    rfl
  have drained : a.tally.isDrained = true ↔ a.tally.outstanding = 0 := by
    rw [isDrained, beq_iff_eq]
  refine ⟨expected, responses, errors, by omega, reached, ?_, ?_, ?_⟩
  · intro each own quiet
    rw [missing each own]
    exact tracked.exact quiet
  · intro each own quiet
    rw [drained, tracked.exact quiet, ← missing each own]
    exact none_left
  · intro each own empty
    have nothing := tracked.least
    rw [drained.mp empty, ← missing each own] at nothing
    exact none_left.mp (Nat.le_zero.mp nothing)

/-- An account after a start went through so many positions, with what became of those that it
    reached and the reports that came in meanwhile. -/
structure Sends (number positions : Nat) (sendings : List Sending) (told : List Report)
    (t after : Tally) : Prop where
  expected : after.expected + positions = t.expected + sendings.length
  quickFails : after.quickFails = t.quickFails + (Sending.refused sendings).length
  errors : after.errors =
    t.errors + (Sending.refused sendings).length + (Report.faulty number told).length
  responses : after.responses =
    t.responses + (Sending.refused sendings).length + (Report.answered number told).length

variable {number positions position quick : Nat} {sendings : List Sending}
  {fresh told : List Report} {fault : Option Error} {t u after : Tally}

theorem Sends.cons (refused : (Sending.refused [⟨position, fault⟩]).length = quick)
    (counts : t.Counts quick (quick + (Report.faulty number fresh).length)
      (quick + (Report.answered number fresh).length) u)
    (sends : Sends number positions sendings told u after) :
    Sends number (positions + 1) (⟨position, fault⟩ :: sendings) (fresh ++ told) t after := by
  obtain ⟨expected, quickFails, errors, responses⟩ := counts
  have all : (Sending.refused (⟨position, fault⟩ :: sendings)).length =
      quick + (Sending.refused sendings).length := by
    rw [← refused]
    cases fault <;> simp [Sending.refused, Nat.add_comm]
  refine ⟨?_, ?_, ?_, ?_⟩
  · rw [List.length_cons]
    have := sends.expected
    omega
  · have := sends.quickFails
    omega
  · rw [Report.faulty_append, List.length_append]
    have := sends.errors
    omega
  · rw [Report.answered_append, List.length_append]
    have := sends.responses
    omega

theorem Sends.stop (room : positions ≤ t.expected) :
    Sends number positions [] [] t ((t.waive positions).settle positions) := by
  refine ⟨?_, rfl, rfl, rfl⟩
  simp only [waive, settle, List.length_nil]
  omega

theorem Sends.none : Sends number 0 [] [] t t := ⟨rfl, rfl, rfl, rfl⟩

theorem Accounts.of_sends {a : Account} {own late : List Report}
    (sends : Sends number positions sendings fresh (make positions) u)
    (counts : u.Counts 0 (Report.faulty number (own ++ late)).length
      (Report.answered number (own ++ late)).length a.tally)
    (tracked : a.Tracked) (once : (Sending.accepted sendings).Nodup)
    (short : sendings.length ≤ positions) :
    a.tally.Accounts positions a.pending (Sending.accepted sendings)
      (Report.answered number (own ++ (fresh ++ late)))
      (Report.faulty number (own ++ (fresh ++ late))) := by
  obtain ⟨expected, quickFails, errors, responses⟩ := sends
  obtain ⟨expected', quickFails', errors', responses'⟩ := counts
  have total := Sending.accepted_length sendings
  simp only [Report.faulty_append, Report.answered_append, List.length_append, make]
    at expected quickFails errors responses errors' responses'
  apply of_tracked tracked once
  · omega
  · simp only [Report.answered_append, List.length_append]
    omega
  · simp only [Report.faulty_append, List.length_append]
    omega
  · omega

end Tally

variable {ω : Type}

namespace World
variable {record : Record ω} {others : Nat → Prop} {own : List Report} {w v : World ω}
  {number : Nat} {t : Tally}

theorem Booked.counts (booked : w.Booked record others own v) (mine : ¬ others number)
    (found : w.tallies[number]? = some t) : ∃ fresh after,
      record.reports v.aside = record.reports w.aside ++ fresh ∧
      v.tallies[number]? = some after ∧
      t.Counts 0 (Report.faulty number (own ++ fresh)).length
        (Report.answered number (own ++ fresh)).length after := by
  obtain ⟨_, fresh, all, told, entries, listed⟩ := booked
  have here : (w.accounts record)[number]? = some ⟨t, record.pending w.aside number⟩ := by
    rw [accounts_get, found]
    rfl
  obtain ⟨after, there, counts⟩ := entries.counts mine here
  rw [accounts_get] at there
  obtain ⟨last, found', rfl⟩ := Option.map_eq_some_iff.mp there
  have faulty : (Report.faulty number all).length =
      (Report.faulty number (own ++ fresh)).length := (listed.filterMap _).length_eq
  have answered : (Report.answered number all).length =
      (Report.answered number (own ++ fresh)).length := (listed.filterMap _).length_eq
  exact ⟨fresh, last, told, found', faulty ▸ answered ▸ counts⟩

theorem Balanced.tracked (balanced : w.Balanced record) (found : w.tallies[number]? = some t) :
    Account.Tracked ⟨t, record.pending w.aside number⟩ := by
  refine (balanced.accounts _ (List.mem_of_getElem? (i := number) ?_)).tracked
  rw [accounts_get, found]
  rfl

theorem account_get (found : w.tallies[number]? = some t) (f : Tally → Tally) :
    (w.account number f).tallies[number]? = some (f t) := by
  simp [account, found]

variable {out : Outside ω} (books : out.Books record others) (mine : ¬ others number)
include books mine

/-- A read that could not be sent counts three times: as such, as an error and as a response. -/
theorem refuse_counts (balanced : w.Balanced record) (found : w.tallies[number]? = some t)
    (position : Nat) (error : Error) : ∃ fresh after,
      let v := ((w.account number Tally.quickFail).deliver out number position (.failure error)).1
      v.Balanced record ∧ record.reports v.aside = record.reports w.aside ++ fresh ∧
      v.tallies[number]? = some after ∧
      t.Counts 1 (1 + (Report.faulty number fresh).length)
        (1 + (Report.answered number fresh).length) after := by
  have counted : w.Booked record (fun _ => True) [] (w.account number Tally.quickFail) :=
    .other trivial .quickFail fun _ => rfl
  have still : (w.account number Tally.quickFail).Balanced record := counted.balanced balanced
  have here : (w.account number Tally.quickFail).tallies[number]? = some t.quickFail :=
    account_get found Tally.quickFail
  have delivered := deliver_booked books still number position (.failure error)
  obtain ⟨fresh, after, told, there, counts⟩ := delivered.counts mine here
  refine ⟨fresh, after, delivered.balanced still, told, there, ?_⟩
  have quick : t.Counts 1 0 0 t.quickFail := ⟨rfl, rfl, rfl, rfl⟩
  have both := quick.trans counts
  simpa [Answer.entries, Report.faulty, Report.answered, Nat.add_comm] using both

theorem sendReads_counts (positions : List Nat) (balanced : w.Balanced record)
    (found : w.tallies[number]? = some t) (room : positions.length ≤ t.expected) :
    ∃ fresh after,
      record.reports (w.sendReads out number positions).aside =
        record.reports w.aside ++ fresh ∧
      (w.sendReads out number positions).tallies[number]? = some after ∧
      t.Sends number positions.length (sendings out number positions w) fresh after := by
  induction positions generalizing w t with
  | nil => exact ⟨[], t, (List.append_nil _).symm, found, .none⟩
  | cons position rest ih =>
    rw [List.length_cons] at room ⊢
    have sent := sendRead_booked books balanced number position
    have ⟨fresh, u, told, there, counts⟩ := sent.counts mine found
    simp only [sendReads, sendings]
    cases answer : w.sendRead out number position with
    | mk v fault =>
      rw [answer] at sent told there
      have still := sent.balanced balanced
      cases fault with
      | none =>
        obtain ⟨more, after, told', last, sends⟩ :=
          ih still there (by have := counts.expected; omega)
        refine ⟨fresh ++ more, after, by rw [told', told, List.append_assoc], last, ?_⟩
        have accepted : (Sending.refused [⟨position, none⟩]).length = 0 := rfl
        exact .cons accepted (by simpa using counts) sends
      | some e =>
        obtain ⟨more, x, balanced', told', there', counts'⟩ :=
          refuse_counts books mine still there position e
        have refused : (Sending.refused [⟨position, some e⟩]).length = 1 := rfl
        have both : t.Counts 1 (1 + (Report.faulty number (fresh ++ more)).length)
            (1 + (Report.answered number (fresh ++ more)).length) x := by
          have summed := counts.trans counts'
          simp only [List.nil_append] at summed
          rw [Report.faulty_append, Report.answered_append, List.length_append, List.length_append]
          exact ⟨summed.expected, summed.quickFails, by have := summed.errors; omega,
            by have := summed.responses; omega⟩
        have within : rest.length ≤ x.expected := by
          have := both.expected
          omega
        dsimp only
        split
        · refine ⟨fresh ++ more, (x.waive rest.length).settle rest.length, ?_, ?_, ?_⟩
          · exact told'.trans (by rw [told, List.append_assoc])
          · exact account_get (account_get there' (·.waive rest.length)) (·.settle rest.length)
          · simpa using Tally.Sends.cons refused both (.stop within)
        · obtain ⟨last, after, told'', there'', sends⟩ := ih balanced' there' within
          refine ⟨fresh ++ more ++ last, after, ?_, there'', .cons refused both sends⟩
          simp only [told'', told', told, List.append_assoc]

omit mine in
theorem start_counts (balanced : w.Balanced record) (mine : ¬ others w.tallies.length) :
    ∃ fresh after,
      record.reports (w.start out).1.aside = record.reports w.aside ++ fresh ∧
      (w.start out).1.tallies[w.tallies.length]? = some after ∧
      (Tally.make w.requested.2.length).Sends w.tallies.length w.requested.2.length
        (sendings out w.tallies.length w.requested.2 w.requested.1) fresh after := by
  have opened : w.Booked record others [] w.requested.1 := requested_booked balanced.clear
  have found : w.requested.1.tallies[w.tallies.length]? =
      some (Tally.make w.requested.2.length) := by
    simp [requested]
  exact sendReads_counts books mine w.requested.2 (opened.balanced balanced) found (Nat.le_refl _)

end World

/-- The accounts of starts, at any time of a run. Whatever calls make the single updates, in
    whatever order: what is outstanding is what is expected and has not come, whenever no call is
    between its two updates, and no less at any moment. So it is in every account that was ever
    opened, however often reads report. And for one start, over any operations after it and
    whatever was recorded during it, its account is that of the reads it sent and of their
    reports. -/
theorem reads_accounted {target : Target} {data parity : Nat} {settings : Settings} {s : Session}
    (made : Session.make target data parity settings = .ok s) {ω : Type} (out : Outside ω)
    (record : Record ω) :
    (∀ (count : Nat) (updates : List Update),
      ((Account.opened count).updateAll updates).Tracked) ∧
    (out.Books record (fun _ => True) → ∀ (ops : List World.Operation) (w : World ω),
      w.Balanced record →
        let after := World.performAll out ops w
        after.Balanced record ∧ ∀ (number : Nat) (t : Tally), after.tallies[number]? = some t →
          Account.Tracked ⟨t, record.pending after.aside number⟩) ∧
    ∀ (history : List Session.Section) (pool : Pool) (w : World (ω × List ReadCall)),
      w.session = (Session.play history s pool).session → w.Balanced record.beside →
      out.Books record (· ≠ w.tallies.length) → ∀ ops : List World.Operation,
        let number := w.tallies.length
        let started := (w.start out.recording).1
        let after := World.performAll out.recording ops started
        ∃ calls fresh t, started.reads = w.reads ++ calls ∧ (∀ c ∈ calls, c.start = number) ∧
          record.reports after.aside.1 = record.reports w.aside.1 ++ fresh ∧
          after.tallies[number]? = some t ∧
          let told := ops.flatMap World.Operation.entries ++ fresh
          t.Accounts w.session.request.2.length (record.pending after.aside.1 number)
            ((calls.filter (·.fault.isNone)).map (·.position))
            (Report.answered number told) (Report.faulty number told) := by
  refine ⟨fun count updates => ((Account.opened_balanced count).updateAll updates).tracked,
    ?_, ?_⟩
  · intro books ops w balanced after
    have still : after.Balanced record :=
      (World.performAll_booked books ops balanced fun _ _ => trivial).balanced balanced
    exact ⟨still, fun number t found => still.tracked found⟩
  · intro history pool w reachable balanced books ops number started after
    have mine : ¬ number ≠ number := fun other => other rfl
    have wide := (books.mono (fun _ _ => trivial : ∀ start, _ → True)).recording
    have books := books.recording
    obtain ⟨early, t₁, told₁, there, sends⟩ := World.start_counts books balanced mine
    -- Then come the operations, for which this account is one that is there already.
    have steady : started.Balanced record.beside :=
      (World.perform_booked wide balanced .start fun _ => trivial).balanced balanced
    have later : ∀ start, started.tallies.length ≤ start → start ≠ number := by
      intro start far
      have inside := (List.getElem?_eq_some_iff.mp there).1
      exact Nat.ne_of_gt (Nat.lt_of_lt_of_le inside far)
    have run := World.performAll_booked books ops steady later
    obtain ⟨late, t, told₂, found, counts⟩ := run.counts mine there
    have tracked : Account.Tracked ⟨t, record.pending after.aside.1 number⟩ :=
      (run.balanced steady).tracked found
    -- The reads that were sent are those that the record shows.
    obtain ⟨calls, reads, called⟩ := World.sendReads_called out number w.requested.2 w.requested.1
    have reached := World.sendings_prefix out.recording number w.requested.2 w.requested.1
    have numbered : w.session.roster.Numbered :=
      reachable ▸ Session.play_numbered (Session.make_numbered made) history pool
    have distinct : w.requested.2.Nodup := (Session.reserves_once numbered .request w.pool).1
    have once := distinct.sublist ((Sending.accepted_sublist _).trans reached.sublist)
    refine ⟨calls, early ++ late, t, reads, called.start, ?_, found, ?_⟩
    · exact told₂.trans (by rw [told₁]; exact List.append_assoc ..)
    · intro told
      rw [called.accepted]
      have short := reached.length_le
      rw [List.length_map] at short
      exact .of_sends sends counts tracked once short

/-- The failure of read 0 comes in while the read of position 2 is refused: one failure too
    many, so that 3 and 4 are left out, while read 1 is still on its way. When it answers, another
    thread is between the two updates of a response of its own: what is outstanding lags behind
    until that is settled. -/
theorem reads_accounted_left_out :
    let peers : Peers := ⟨[none, some "b", some "c", some "d", some "e"]⟩
    let target : Target := ⟨"vol:file", 7, ⟨4, 1, 1, 0⟩, .empty, peers⟩
    let s : Session := ⟨target, none, .pending, .make target.layout 7, 0, 0, none, none⟩
    let silent : Outside (List Report) :=
      { notify := fun _ w => w
        send := fun _ _ _ w => (w, none)
        repair := fun _ w => (w, ⟨[], .error (.tooFewShards 0 2)⟩) }
    let report (w : World (List Report)) : World (List Report) :=
      let v := (w.deliver silent 0 0 (.failure (.remote 0 "lost"))).1
      { v with aside := v.aside ++ [.error 0 0, .response 0 0] }
    let out : Outside (List Report) :=
      { silent with
        send := fun _ route _ w =>
          if route = .peer "c" then (report w, some (.dispatch 2 .unknownNode)) else (w, none) }
    let record : Record (List Report) := ⟨fun reports => reports, fun _ _ => 0⟩
    let w : World (List Report × List ReadCall) := ⟨s, .make .standard, [], [], ([], [])⟩
    let started := (w.start out.recording).1
    let late : World.Operation := .deliver 0 1 (.payload ⟨[1, 2, 3], [], 8, true⟩)
    let after := World.performAll out.recording [late] started
    let between := (Account.opened 2).updateAll [.error, .answer, .answer, .settle 1]
    (World.performAll out [.start, late] w.bare).Balanced record ∧
      (∃ t, after.tallies[0]? = some t ∧ t.Accounts 5 0 [0, 1] [1, 0] [0]) ∧
      started.tallies = [⟨3, 2, 2, 1, 1⟩] ∧ after.tallies = [⟨3, 3, 2, 1, 0⟩] ∧
      between = ⟨⟨2, 2, 1, 0, 1⟩, 1⟩ ∧ between.Tracked ∧
      (between.update (.settle 1)).tally.outstanding = 0 := by
  intro peers target s silent report out record w started late after between
  have made : Session.make target 4 1 .standard = .ok s := by decide +kernel
  have books : ∀ others, out.Books record others := by
    intro others
    have still : ∀ v : World (List Report), v.Booked record others [] v :=
      fun v => .same rfl rfl
    have quiet : silent.Books record others :=
      ⟨fun _ v _ => still v, fun _ _ _ v _ => still v, fun _ v _ => still v⟩
    refine ⟨fun _ v _ => still v, ?_, fun _ v _ => still v⟩
    intro start route request v balanced
    simp only [out]
    split
    · exact (World.deliver_booked quiet balanced 0 0
        (.failure (.remote 0 "lost"))).recorded rfl rfl
    · exact still v
  have fresh : w.bare.Balanced record :=
    ⟨by simp [World.accounts, w, World.bare, World.beside], fun _ _ => rfl⟩
  have fresh' : w.Balanced record.beside := ⟨by simp [World.accounts, w], fun _ _ => rfl⟩
  obtain ⟨single, always, law⟩ := reads_accounted made out record
  obtain ⟨calls, recorded, t, reads, _, told, found, accounts⟩ :=
    law [] (.make .standard) w rfl fresh' (books _) [late]
  have read : calls = started.reads := reads.symm
  have came : recorded = after.aside.1 := told.symm
  rw [read, came] at accounts
  have sent : (started.reads.filter (·.fault.isNone)).map (·.position) = [0, 1] := by
    decide +kernel
  have entered : [late].flatMap World.Operation.entries ++ after.aside.1 =
      [.response 0 1, .error 0 0, .response 0 0] := by
    decide +kernel
  have positions : w.session.request.2.length = 5 := by decide +kernel
  simp only [sent, positions] at accounts
  refine ⟨(always (books _) _ _ fresh).1, ⟨t, found, ?_⟩, by decide +kernel, by decide +kernel,
    by decide, single 2 _, by decide⟩
  have answered : Report.answered 0 [.response 0 1, .error 0 0, .response 0 0] = [1, 0] := by
    decide
  have faulty : Report.faulty 0 [.response 0 1, .error 0 0, .response 0 0] = [0] := by
    decide
  rw [← answered, ← faulty, ← entered]
  exact accounts

end StripeRecovery
