import StripeRecovery.Proofs.Recording

/-!
The accounts of starts as books. They are changed by single updates, and those of calls on
several threads come in any order: between the two updates of a response, its read has answered
and is still outstanding. Whoever takes part in a run keeps a record of what reads reported, and
of what the calls that are between their two updates have yet to take off.
-/
namespace StripeRecovery

inductive Update where
  | quickFail
  | error
  | answer
  | waive (count : Nat)
  | settle (count : Nat)
deriving DecidableEq, Repr

/-- An account, and how many reads have yet to be taken off what is outstanding, by calls that
    are between their two updates of it. -/
structure Account where
  tally : Tally
  pending : Nat
deriving DecidableEq, Repr

namespace Account

def opened (count : Nat) : Account := ⟨.make count, 0⟩

/-- An update, by whichever call. What was counted or left out is pending until some call takes
    it off. -/
def update (a : Account) : Update → Account
  | .quickFail => { a with tally := a.tally.quickFail }
  | .error => { a with tally := a.tally.error }
  | .answer => ⟨a.tally.answer, a.pending + 1⟩
  | .waive count => ⟨a.tally.waive count, a.pending + count⟩
  | .settle count =>
    if count ≤ a.pending then ⟨a.tally.settle count, a.pending - count⟩ else a

def updateAll (a : Account) (updates : List Update) : Account := updates.foldl update a

/-- What is outstanding is what is expected and has not come, whenever no call is between its two
    updates. While some are, it is never less, and more by what they have yet to take off at most. -/
structure Tracked (a : Account) : Prop where
  exact : a.pending = 0 → a.tally.outstanding = a.tally.expected - a.tally.responses
  least : a.tally.expected - a.tally.responses ≤ a.tally.outstanding
  most : a.tally.outstanding ≤ a.tally.expected - a.tally.responses + a.pending

/-- An account that was opened for `count` reads, of which `waived` were left out since. All that
    is not pending was taken off. -/
structure Follows (a : Account) (count waived : Nat) : Prop where
  expected : a.tally.expected = count - waived
  pending_le : a.pending ≤ a.tally.responses + waived
  outstanding : a.tally.outstanding = count - (a.tally.responses + waived - a.pending)

def Balanced (a : Account) : Prop := ∃ count waived, a.Follows count waived

variable {a : Account}

theorem update_settle (a : Account) (count : Nat) : a.update (.settle count) =
    if count ≤ a.pending then ⟨a.tally.settle count, a.pending - count⟩ else a := rfl

theorem opened_balanced (count : Nat) : (opened count).Balanced := ⟨count, 0, rfl, Nat.le_refl 0, rfl⟩

theorem Balanced.update (balanced : a.Balanced) (u : Update) : (a.update u).Balanced := by
  obtain ⟨count, waived, expected, pending_le, outstanding⟩ := balanced
  cases u with
  | quickFail => exact ⟨count, waived, expected, pending_le, outstanding⟩
  | error => exact ⟨count, waived, expected, pending_le, outstanding⟩
  | answer =>
    refine ⟨count, waived, expected, ?_, ?_⟩
    · simp only [Account.update, Tally.answer]
      omega
    · simp only [Account.update, Tally.answer]
      omega
  | waive more =>
    refine ⟨count, waived + more, ?_, ?_, ?_⟩
    · simp only [Account.update, Tally.waive]
      omega
    · simp only [Account.update, Tally.waive]
      omega
    · simp only [Account.update, Tally.waive]
      omega
  | settle some =>
    rw [update_settle]
    split
    · refine ⟨count, waived, expected, ?_, ?_⟩
      · simp only [Tally.settle]
        omega
      · simp only [Tally.settle]
        omega
    · exact ⟨count, waived, expected, pending_le, outstanding⟩

theorem Balanced.updateAll (balanced : a.Balanced) (updates : List Update) :
    (a.updateAll updates).Balanced := by
  induction updates generalizing a with
  | nil => exact balanced
  | cons u rest ih => exact ih (balanced.update u)

theorem Balanced.tracked (balanced : a.Balanced) : a.Tracked := by
  obtain ⟨count, waived, expected, pending_le, outstanding⟩ := balanced
  exact ⟨fun quiet => by omega, by omega, by omega⟩

end Account

inductive Report where
  | error (start position : Nat)
  | response (start position : Nat)
deriving DecidableEq, Repr

namespace Report

def start : Report → Nat
  | error start _ => start
  | response start _ => start

def update : Report → Update
  | error _ _ => .error
  | response _ _ => .answer

def answered (number : Nat) (reports : List Report) : List Nat :=
  reports.filterMap fun
    | response start position => if start = number then some position else none
    | error _ _ => none

def faulty (number : Nat) (reports : List Report) : List Nat :=
  reports.filterMap fun
    | error start position => if start = number then some position else none
    | response _ _ => none

theorem answered_append (number : Nat) (reports more : List Report) :
    answered number (reports ++ more) = answered number reports ++ answered number more :=
  List.filterMap_append

theorem faulty_append (number : Nat) (reports more : List Report) :
    faulty number (reports ++ more) = faulty number reports ++ faulty number more :=
  List.filterMap_append

theorem of_other {number : Nat} {r : Report} (other : r.start ≠ number) :
    faulty number [r] = [] ∧ answered number [r] = [] := by
  cases r with
  | error number' position =>
    have notMine : number' ≠ number := other
    exact ⟨by simpa [faulty] using notMine, rfl⟩
  | response number' position =>
    have notMine : number' ≠ number := other
    exact ⟨rfl, by simpa [answered] using notMine⟩

end Report

namespace Tally

structure Counts (quick errors responses : Nat) (t after : Tally) : Prop where
  expected : after.expected = t.expected
  quickFails : after.quickFails = t.quickFails + quick
  errors : after.errors = t.errors + errors
  responses : after.responses = t.responses + responses

theorem Counts.trans {quick errors responses quick' errors' responses' : Nat} {t u v : Tally}
    (first : Counts quick errors responses t u) (second : Counts quick' errors' responses' u v) :
    Counts (quick + quick') (errors + errors') (responses + responses') t v where
  expected := second.expected.trans first.expected
  quickFails := by rw [second.quickFails, first.quickFails, Nat.add_assoc]
  errors := by rw [second.errors, first.errors, Nat.add_assoc]
  responses := by rw [second.responses, first.responses, Nat.add_assoc]

theorem counts_report (a : Account) (r : Report) :
    a.tally.Counts 0 (Report.faulty r.start [r]).length (Report.answered r.start [r]).length
      (a.update r.update).tally := by
  cases r with
  | error start position => exact ⟨rfl, rfl, by simp [Report.start, Report.faulty, Report.update,
      Account.update, Tally.error], by simp [Report.answered, Report.update, Account.update,
      Tally.error]⟩
  | response start position => exact ⟨rfl, rfl, by simp [Report.faulty, Report.update,
      Account.update, Tally.answer], by simp [Report.start, Report.answered, Report.update,
      Account.update, Tally.answer]⟩

theorem counts_settle (a : Account) (count : Nat) :
    a.tally.Counts 0 0 0 (a.update (.settle count)).tally := by
  rw [Account.update_settle]
  split <;> exact ⟨rfl, rfl, rfl, rfl⟩

end Tally

/-- Accounts after updates, among them those of the reports in their order. In the accounts of
    `others` there may be more updates. -/
inductive Entries (others : Nat → Prop) (before : List Account) :
    List Report → List Account → Prop where
  | none : Entries others before [] before
  | opened {reports : List Report} {after : List Account} (count : Nat) :
      Entries others before reports after →
      Entries others before reports (after ++ [.opened count])
  | reported {reports : List Report} {after : List Account} (r : Report) :
      Entries others before reports after →
      Entries others before (reports ++ [r]) (after.modify r.start (·.update r.update))
  | settled {reports : List Report} {after : List Account} (start count : Nat) :
      Entries others before reports after →
      Entries others before reports (after.modify start (·.update (.settle count)))
  | other {reports : List Report} {after : List Account} {start : Nat} (may : others start)
      (u : Update) : Entries others before reports after →
      Entries others before reports (after.modify start (·.update u))

namespace Entries
variable {others : Nat → Prop} {a b c : List Account} {reports more : List Report}

theorem trans (first : Entries others a reports b) (second : Entries others b more c) :
    Entries others a (reports ++ more) c := by
  induction second with
  | none => simpa using first
  | opened count _ ih => exact .opened count ih
  | reported r _ ih =>
    rw [← List.append_assoc]
    exact .reported r ih
  | settled start count _ ih => exact .settled start count ih
  | other may u _ ih => exact .other may u ih

theorem mono {wider : Nat → Prop} (weaker : ∀ start, others start → wider start)
    (entries : Entries others a reports b) : Entries wider a reports b := by
  induction entries with
  | none => exact .none
  | opened count _ ih => exact .opened count ih
  | reported r _ ih => exact .reported r ih
  | settled start count _ ih => exact .settled start count ih
  | other may u _ ih => exact .other (weaker _ may) u ih

theorem length_le (entries : Entries others a reports b) : a.length ≤ b.length := by
  induction entries with
  | none => exact Nat.le_refl _
  | opened count _ ih => exact Nat.le_trans ih (by simp)
  | reported r _ ih => simpa using ih
  | settled start count _ ih => simpa using ih
  | other may u _ ih => simpa using ih

theorem update_balanced (start : Nat) (u : Update) (balanced : ∀ x ∈ a, x.Balanced) :
    ∀ x ∈ a.modify start (·.update u), x.Balanced := by
  intro x member
  obtain ⟨i, found⟩ := List.mem_iff_getElem?.mp member
  rw [List.getElem?_modify] at found
  obtain ⟨old, there, rfl⟩ := Option.map_eq_some_iff.mp found
  have sound := balanced old (List.mem_of_getElem? there)
  split
  · exact sound.update u
  · exact sound

theorem balanced (entries : Entries others a reports b) (balanced : ∀ x ∈ a, x.Balanced) :
    ∀ x ∈ b, x.Balanced := by
  induction entries with
  | none => exact balanced
  | opened count _ ih =>
    intro x member
    rcases List.mem_append.mp member with there | new
    · exact ih x there
    · rw [List.mem_singleton.mp new]
      exact Account.opened_balanced count
  | reported r _ ih => exact update_balanced r.start r.update ih
  | settled start count _ ih => exact update_balanced start (.settle count) ih
  | other may u _ ih => exact update_balanced _ u ih

theorem counts (entries : Entries others a reports b) {number : Nat} (own : ¬ others number)
    {x : Account} (found : a[number]? = some x) : ∃ after, b[number]? = some after ∧
      x.tally.Counts 0 (Report.faulty number reports).length
        (Report.answered number reports).length after.tally := by
  induction entries with
  | none => exact ⟨x, found, rfl, rfl, rfl, rfl⟩
  | opened count _ ih =>
    obtain ⟨after, there, counts⟩ := ih
    refine ⟨after, ?_, counts⟩
    rw [List.getElem?_append_left (List.getElem?_eq_some_iff.mp there).1]
    exact there
  | reported r _ ih =>
    obtain ⟨after, there, counts⟩ := ih
    rw [List.getElem?_modify, there, Report.faulty_append, Report.answered_append,
      List.length_append, List.length_append]
    by_cases mine : r.start = number
    · subst mine
      exact ⟨after.update r.update, by simp, counts.trans (Tally.counts_report after r)⟩
    · obtain ⟨faultless, unanswered⟩ := Report.of_other mine
      exact ⟨after, by simp [mine], by simpa [faultless, unanswered] using counts⟩
  | settled start count _ ih =>
    obtain ⟨after, there, counts⟩ := ih
    rw [List.getElem?_modify, there]
    by_cases mine : start = number
    · exact ⟨after.update (.settle count), by simp [mine],
        counts.trans (Tally.counts_settle after count)⟩
    · exact ⟨after, by simp [mine], counts⟩
  | other may u _ ih =>
    obtain ⟨after, there, counts⟩ := ih
    refine ⟨after, ?_, counts⟩
    rw [List.getElem?_modify, there]
    split
    · rename_i same
      exact absurd (same ▸ may) own
    · rfl

end Entries

variable {ω : Type}

/-- The books that the outside keeps: what reads reported so far, and for each start what calls
    that are between their two updates have yet to take off. -/
structure Record (ω : Type) where
  reports : ω → List Report
  pending : ω → Nat → Nat

namespace World
variable {record : Record ω} {others : Nat → Prop}

def accounts (record : Record ω) (w : World ω) : List Account :=
  w.tallies.mapIdx fun number t => ⟨t, record.pending w.aside number⟩

def Clear (record : Record ω) (w : World ω) : Prop :=
  ∀ number, w.tallies.length ≤ number → record.pending w.aside number = 0

structure Balanced (record : Record ω) (w : World ω) : Prop where
  accounts : ∀ a ∈ w.accounts record, a.Balanced
  clear : w.Clear record

/-- Between two worlds the accounts changed by single updates: those of the reports `own`, of
    those that the outside recorded meanwhile, and of whatever was taken off. -/
def Booked (w : World ω) (record : Record ω) (others : Nat → Prop) (own : List Report)
    (after : World ω) : Prop :=
  (w.Clear record → after.Clear record) ∧
    ∃ fresh all, record.reports after.aside = record.reports w.aside ++ fresh ∧
      Entries others (w.accounts record) all (after.accounts record) ∧ all.Perm (own ++ fresh)

variable {own more : List Report} {w v u : World ω}

theorem accounts_get (record : Record ω) (w : World ω) (number : Nat) :
    (w.accounts record)[number]? =
      w.tallies[number]?.map fun t => ⟨t, record.pending w.aside number⟩ :=
  List.getElem?_mapIdx

theorem accounts_account (record : Record ω) (w : World ω) (start : Nat) (f : Tally → Tally) :
    (w.account start f).accounts record =
      (w.accounts record).modify start fun a => { a with tally := f a.tally } := by
  apply List.ext_getElem?
  intro number
  rw [accounts_get, List.getElem?_modify, accounts_get]
  simp only [account, List.getElem?_modify]
  cases w.tallies[number]? with
  | none => rfl
  | some t => by_cases here : start = number <;> simp [here]

theorem Booked.same (tallies : v.tallies = w.tallies) (aside : v.aside = w.aside) :
    w.Booked record others [] v := by
  have still : v.accounts record = w.accounts record := by
    simp only [accounts, tallies, aside]
  refine ⟨?_, [], [], by rw [aside, List.append_nil], still ▸ .none, .refl _⟩
  simp only [Clear, tallies, aside]
  exact id

theorem Booked.mono {wider : Nat → Prop} (weaker : ∀ start, others start → wider start)
    (booked : w.Booked record others own v) : w.Booked record wider own v := by
  obtain ⟨clear, fresh, all, told, entries, listed⟩ := booked
  exact ⟨clear, fresh, all, told, entries.mono weaker, listed⟩

theorem Booked.trans (first : w.Booked record others own v)
    (second : v.Booked record others more u) : w.Booked record others (own ++ more) u := by
  obtain ⟨clear, fresh, all, told, entries, listed⟩ := first
  obtain ⟨clear', fresh', all', told', entries', listed'⟩ := second
  refine ⟨clear' ∘ clear, fresh ++ fresh', all ++ all', ?_, entries.trans entries', ?_⟩
  · rw [told', told, List.append_assoc]
  · refine (listed.append listed').trans (List.perm_iff_count.mpr fun r => ?_)
    simp only [List.count_append]
    omega

theorem Booked.balanced (booked : w.Booked record others own v) (balanced : w.Balanced record) :
    v.Balanced record := by
  obtain ⟨clear, fresh, all, told, entries, listed⟩ := booked
  exact ⟨entries.balanced balanced.accounts, clear balanced.clear⟩

theorem Booked.length_le (booked : w.Booked record others own v) :
    w.tallies.length ≤ v.tallies.length := by
  obtain ⟨_, fresh, all, _, entries, _⟩ := booked
  simpa [accounts] using entries.length_le

theorem Booked.entered {start : Nat} {f : Tally → Tally}
    (entries : Entries others (w.accounts record) own
      ((w.accounts record).modify start fun a => { a with tally := f a.tally })) :
    w.Booked record others own (w.account start f) := by
  refine ⟨?_, [], own, (List.append_nil _).symm, ?_, by rw [List.append_nil]⟩
  · intro clear number far
    exact clear number (by simpa [account] using far)
  · rw [accounts_account]
    exact entries

theorem Booked.error (start position : Nat) :
    w.Booked record others [.error start position] (w.account start Tally.error) :=
  .entered (.reported (.error start position) .none)

theorem Booked.other {start : Nat} (may : others start) (u : Update) {f : Tally → Tally}
    (same : ∀ a : Account, a.update u = { a with tally := f a.tally }) :
    w.Booked record others [] (w.account start f) := by
  refine .entered ?_
  rw [← funext same]
  exact .other may u .none

theorem Booked.settled {start count : Nat} {f : Tally → Tally} {u : Update}
    (first : Entries others (w.accounts record) own
      ((w.accounts record).modify start (·.update u)))
    (same : ∀ a : Account, a.update u = ⟨f a.tally, a.pending + count⟩) :
    w.Booked record others own ((w.account start f).account start (·.settle count)) := by
  have both : (w.account start f).account start (·.settle count) =
      w.account start fun t => (f t).settle count := by
    simp only [account, List.modify_modify_eq]
    rfl
  have once : (fun a : Account => a.update (.settle count)) ∘ (fun a : Account => a.update u) =
      fun a => { a with tally := (f a.tally).settle count } := by
    funext a
    simp [same, Account.update_settle]
  have entries := Entries.settled start count first
  rw [List.modify_modify_eq, once] at entries
  rw [both]
  exact .entered entries

theorem Booked.respond (start position : Nat) :
    w.Booked record others [.response start position] (w.respond start) :=
  .settled (u := .answer) (.reported (.response start position) .none) fun _ => rfl

theorem Booked.respond_other {start : Nat} (may : others start) :
    w.Booked record others [] (w.respond start) :=
  .settled (.other may .answer .none) fun _ => rfl

theorem Booked.abandon {start : Nat} (may : others start) (count : Nat) :
    w.Booked record others [] (w.abandon start count) :=
  .settled (.other may (.waive count) .none) fun _ => rfl

theorem Booked.recorded (booked : w.Booked record others own v) {aside : ω}
    (recorded : record.reports aside = record.reports v.aside ++ own)
    (pending : record.pending aside = record.pending v.aside) :
    w.Booked record others [] { v with aside := aside } := by
  obtain ⟨clear, fresh, all, told, entries, listed⟩ := booked
  have still : ({ v with aside := aside } : World ω).accounts record = v.accounts record := by
    simp only [accounts, pending]
  refine ⟨fun before number far => ?_, fresh ++ own, all, ?_, still ▸ entries,
    listed.trans List.perm_append_comm⟩
  · rw [pending]
    exact clear before number far
  · exact recorded.trans (by rw [told, List.append_assoc])

end World

/-- The outside changes accounts by updates alone, whenever it is called with balanced ones, and
    its `record` tells which reports of reads it has entered so far, and what is pending. -/
structure Outside.Books (out : Outside ω) (record : Record ω) (others : Nat → Prop) :
    Prop where
  notify : ∀ n (w : World ω), w.Balanced record → w.Booked record others [] (out.notify n w)
  send : ∀ start route request (w : World ω), w.Balanced record →
    w.Booked record others [] (out.send start route request w).1
  repair : ∀ call (w : World ω), w.Balanced record →
    w.Booked record others [] (out.repair call w).1

def Record.beside (record : Record ω) : Record (ω × List ReadCall) :=
  ⟨fun aside => record.reports aside.1, fun aside => record.pending aside.1⟩

namespace Outside.Books
variable {out : Outside ω} {record : Record ω} {others : Nat → Prop}

theorem mono {wider : Nat → Prop} (weaker : ∀ start, others start → wider start)
    (books : out.Books record others) : out.Books record wider where
  notify n w balanced := (books.notify n w balanced).mono weaker
  send start route request w balanced := (books.send start route request w balanced).mono weaker
  repair call w balanced := (books.repair call w balanced).mono weaker

theorem recording (books : out.Books record others) :
    out.recording.Books record.beside others where
  notify n w balanced := books.notify n w.bare ⟨balanced.accounts, balanced.clear⟩
  send start route request w balanced :=
    books.send start route request w.bare ⟨balanced.accounts, balanced.clear⟩
  repair call w balanced := books.repair call w.bare ⟨balanced.accounts, balanced.clear⟩

end Outside.Books

namespace World
variable {record : Record ω} {others : Nat → Prop} {own more : List Report} {w v u : World ω}

def Answer.entries (start position : Nat) : Answer → List Report
  | .payload _ => [.response start position]
  | .stale _ => [.response start position]
  | .failure _ => [.error start position, .response start position]

variable {out : Outside ω} (books : out.Books record others)
include books

theorem raise?_booked (balanced : w.Balanced record) (n : Option Notice) :
    w.Booked record others [] (w.raise? out n) := by
  cases n with
  | none => exact .same rfl rfl
  | some n =>
    let told : World ω := { w with notices := w.notices ++ [n] }
    exact books.notify n told ⟨balanced.accounts, balanced.clear⟩

theorem fail_booked (balanced : w.Balanced record) (position : Nat) :
    w.Booked record others [] (w.fail out position).1 := by
  have run : w.Booked record others [] (w.run fun s pool => s.fail pool position).1 :=
    .same rfl rfl
  exact run.trans (raise?_booked books (run.balanced balanced) _)

theorem receive_booked (balanced : w.Balanced record) (position : Nat) (payload : Buffer) :
    w.Booked record others [] (w.receive out position payload).1 := by
  have run : w.Booked record others [] (w.run fun s pool => s.receive pool position payload).1 :=
    .same rfl rfl
  exact run.trans (raise?_booked books (run.balanced balanced) _)

theorem deliver_booked (balanced : w.Balanced record) (start position : Nat) (answer : Answer) :
    w.Booked record others (Answer.entries start position answer)
      (w.deliver out start position answer).1 := by
  have responds : ∀ {v : World ω}, v.Booked record others [.response start position]
      (v.respond start) := .respond start position
  cases answer with
  | payload buffer => exact (receive_booked books balanced position buffer).trans responds
  | failure error =>
    have noted : w.Booked record others [.error start position] (w.account start Tally.error) :=
      .error start position
    have failed := fail_booked books (noted.balanced balanced) position
    exact (noted.trans failed).trans responds
  | stale buffer =>
    let dropped : World ω := { w with pool := w.pool.release buffer }
    have told : w.Booked record others [] (if dropped.session.wantsRepair then
        dropped.raise out (.repair position) else dropped) := by
      split
      · exact raise?_booked (w := dropped) books ⟨balanced.accounts, balanced.clear⟩
          (some (.repair position))
      · exact .same rfl rfl
    exact (told.trans (fail_booked books (told.balanced balanced) position)).trans responds

theorem sendRead_booked (balanced : w.Balanced record) (start position : Nat) :
    w.Booked record others [] (w.sendRead out start position).1 := by
  rw [sendRead_eq]
  split
  · exact .same rfl rfl
  · exact .same rfl rfl
  · exact books.send start _ _ w balanced

theorem decode_booked (balanced : w.Balanced record) (recreate : Bool) :
    w.Booked record others [] (w.decode out recreate).1 := by
  have first : w.Booked record others [] (w.run fun s pool => s.beginDecode pool recreate).1 :=
    .same rfl rfl
  simp only [decode]
  cases begun : w.run fun s pool => s.beginDecode pool recreate with
  | mk v turn =>
    rw [begun] at first
    cases turn with
    | inl answer => exact first
    | inr call =>
      have worked : v.Booked record others [] (out.repair call v).1 :=
        books.repair call v (first.balanced balanced)
      exact first.trans (worked.trans (.same rfl rfl))

theorem sendReads_booked {start : Nat} (other : others start) (balanced : w.Balanced record)
    (positions : List Nat) :
    w.Booked record others [] (w.sendReads out start positions) := by
  induction positions generalizing w with
  | nil => exact .same rfl rfl
  | cons position rest ih =>
    have sent := sendRead_booked books balanced start position
    simp only [sendReads]
    cases answer : w.sendRead out start position with
    | mk v fault =>
      rw [answer] at sent
      have still := sent.balanced balanced
      cases fault with
      | none => exact sent.trans (ih still)
      | some e =>
        have counted : v.Booked record others []
            ((v.account start Tally.quickFail).account start Tally.error) :=
          (Booked.other other .quickFail fun _ => rfl).trans (.other other .error fun _ => rfl)
        have failed := fail_booked books (counted.balanced still) position
        have refused : w.Booked record others [] ((v.account start Tally.quickFail).deliver out
            start position (.failure e)).1 :=
          (sent.trans (counted.trans failed)).trans (.respond_other other)
        dsimp only
        split
        · exact refused.trans (.abandon other rest.length)
        · exact refused.trans (ih (refused.balanced balanced))

def Operation.entries : Operation → List Report
  | .deliver number position answer => Answer.entries number position answer
  | _ => []

omit books in
theorem requested_booked (clear : w.Clear record) :
    w.Booked record others [] w.requested.1 := by
  have opened : w.requested.1.accounts record =
      w.accounts record ++ [.opened w.session.request.2.length] := by
    simp only [requested, accounts, List.mapIdx_concat, clear _ (Nat.le_refl _)]
    rfl
  refine ⟨fun _ number far => clear number ?_, [], [], (List.append_nil _).symm,
    opened ▸ .opened _ .none, .refl _⟩
  exact Nat.le_of_succ_le (by simpa [requested] using far)

theorem perform_booked (balanced : w.Balanced record) (op : Operation)
    (other : op = .start → others w.tallies.length) :
    w.Booked record others op.entries (w.perform out op) := by
  cases op with
  | start =>
    have opened : w.Booked record others [] w.requested.1 := requested_booked balanced.clear
    exact opened.trans (sendReads_booked books (other rfl) (opened.balanced balanced) _)
  | deliver start position answer => exact deliver_booked books balanced start position answer
  | receive position payload => exact receive_booked books balanced position payload
  | fail position => exact fail_booked books balanced position
  | external position =>
    simp only [perform, external]
    cases w.session.external position <;> exact .same rfl rfl
  | abort => exact .same rfl rfl
  | free => exact .same rfl rfl
  | decode recreate => exact decode_booked books balanced recreate
  | view position => exact .same rfl rfl
  | dropView => exact .same rfl rfl

/-- Accounts that are opened later are those of others. -/
theorem performAll_booked (ops : List Operation) (balanced : w.Balanced record)
    (later : ∀ start, w.tallies.length ≤ start → others start) :
    w.Booked record others (ops.flatMap Operation.entries) (performAll out ops w) := by
  induction ops generalizing w with
  | nil => exact .same rfl rfl
  | cons op rest ih =>
    have first := perform_booked books balanced op fun _ => later _ (Nat.le_refl _)
    have others := ih (first.balanced balanced) fun start far =>
      later start (Nat.le_trans first.length_le far)
    exact first.trans others

end World
end StripeRecovery
