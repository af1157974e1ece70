import StripeRecovery.Proofs.Accounts
import StripeRecovery.Proofs.Operations

/-!
The books of a pool while a session is at work. The outside may have buffers of the pool too,
and may do with the session what it likes, so long as it settles its own account.
-/
namespace StripeRecovery
open Session (Section)

variable {ω : Type}

/-- Of the buffers that the pool lent, `n` are in transit, and the others are with the outside or
    with the session. -/
structure World.Settled (others : ω → Nat) (n : Nat) (w : World ω) : Prop where
  owned : w.session.Owned
  staged : w.session.Staged
  lent : w.pool.Lent (n + others w.aside + tied w.session.possessed)

/-- The outside settles for what it does; `others` tells how many buffers it has. -/
structure Outside.Settles (out : Outside ω) (others : ω → Nat) : Prop where
  notify : ∀ note n (w : World ω), w.Settled others n → (out.notify note w).Settled others n
  send : ∀ start route request n (w : World ω), w.Settled others n →
    (out.send start route request w).1.Settled others n
  repair : ∀ call n (w : World ω), w.Settled others n → (out.repair call w).1.Settled others n

namespace World
variable {others : ω → Nat} {n : Nat} {w after : World ω}

theorem Settled.same (settled : w.Settled others n) (session : after.session = w.session)
    (pool : after.pool = w.pool) (aside : after.aside = w.aside) : after.Settled others n := by
  obtain ⟨owned, staged, lent⟩ := settled
  exact ⟨session ▸ owned, session ▸ staged, by rw [session, pool, aside]; exact lent⟩

theorem Settled.section {e : Section} (settled : w.Settled others (n + tied e.given))
    (own : ∀ pool, e ≠ .elsewhere pool)
    (session : after.session = (e.step w.session w.pool).session)
    (pool : after.pool = (e.step w.session w.pool).pool) (aside : after.aside = w.aside) :
    after.Settled others n := by
  obtain ⟨owned, staged⟩ :=
    Session.orderly_step e w.session w.pool ⟨settled.owned, settled.staged⟩
  refine ⟨session ▸ owned, session ▸ staged, ?_⟩
  rw [session, pool, aside]
  refine Session.step_lent settled.owned settled.staged own ?_
  convert settled.lent using 1
  omega

variable {out : Outside ω} (settles : out.Settles others)
include settles

theorem raise?_settled (settled : w.Settled others n) (note : Option Notice) :
    (w.raise? out note).Settled others n := by
  cases note with
  | none => exact settled
  | some note => exact settles.notify note n _ (settled.same rfl rfl rfl)

theorem fail_settled (settled : w.Settled others n) (position : Nat) :
    (w.fail out position).1.Settled others n := by
  have failed : (w.run fun s pool => s.fail pool position).1.Settled others n :=
    settled.section (e := .fail position) (by simp) rfl rfl rfl
  exact raise?_settled settles failed _

theorem receive_settled (position : Nat) {payload : Buffer}
    (settled : w.Settled others (n + tied [payload])) :
    (w.receive out position payload).1.Settled others n := by
  have received : (w.run fun s pool => s.receive pool position payload).1.Settled others n :=
    settled.section (e := .receive position payload) (by simp) rfl rfl rfl
  exact raise?_settled settles received _

omit settles in
theorem external_settled (settled : w.Settled others n) (position : Nat) :
    (w.external position).1.Settled others n := by
  refine settled.section (e := .external position) (by simp) ?_ ?_ ?_
  all_goals
    simp only [external, Section.step]
    cases w.session.external position <;> simp

theorem decode_settled (settled : w.Settled others n) (recreate : Bool) :
    (w.decode out recreate).1.Settled others n := by
  have first : (w.run fun s pool => s.beginDecode pool recreate).1.Settled others n :=
    settled.section (e := .beginDecode recreate) (by simp) rfl rfl rfl
  simp only [decode]
  cases begun : w.run fun s pool => s.beginDecode pool recreate with
  | mk v turn =>
    rw [begun] at first
    cases turn with
    | inl answer => exact first
    | inr call =>
      have worked := settles.repair call n v first
      exact worked.section (e := .finishDecode (out.repair call v).2) (by simp) rfl rfl rfl

def Answer.given : Answer → List Buffer
  | .payload buffer => [buffer]
  | .stale buffer => [buffer]
  | .failure _ => []

theorem deliver_settled (start position : Nat) (answer : Answer)
    (settled : w.Settled others (n + tied (Answer.given answer))) :
    (w.deliver out start position answer).1.Settled others n := by
  cases answer with
  | payload buffer => exact (receive_settled settles position settled).same rfl rfl rfl
  | failure error =>
    have noted : (w.account start Tally.error).Settled others n := settled.same rfl rfl rfl
    exact (fail_settled settles noted position).same rfl rfl rfl
  | stale buffer =>
    let dropped : World ω := { w with pool := w.pool.release buffer }
    have first : dropped.Settled others n := by
      refine ⟨settled.owned, settled.staged, Pool.Lent.release ?_⟩
      have lent := settled.lent
      simp only [Answer.given, dropped] at lent ⊢
      convert lent using 1
      omega
    have told : (if dropped.session.wantsRepair then dropped.raise out (.repair position)
        else dropped).Settled others n := by
      split
      · exact raise?_settled settles first (some (.repair position))
      · exact first
    exact (fail_settled settles told position).same rfl rfl rfl

theorem sendRead_settled (settled : w.Settled others n) (start position : Nat) :
    (w.sendRead out start position).1.Settled others n := by
  unfold sendRead
  split
  · exact settled
  · split
    · exact settles.send start .local _ n w settled
    · split
      · exact settles.send start (.peer _) _ n w settled
      · exact settled

theorem sendReads_settled (settled : w.Settled others n) (start : Nat) (positions : List Nat) :
    (w.sendReads out start positions).Settled others n := by
  induction positions generalizing w with
  | nil => exact settled
  | cons position rest ih =>
    have sent := sendRead_settled settles settled start position
    simp only [sendReads]
    cases answer : w.sendRead out start position with
    | mk v refused =>
      rw [answer] at sent
      cases refused with
      | none => exact ih sent
      | some e =>
        have noted : (v.account start Tally.quickFail).Settled others n := sent.same rfl rfl rfl
        have failed := deliver_settled settles start position (.failure e) noted
        dsimp only
        split
        · exact failed.same rfl rfl rfl
        · exact ih failed

def Operation.given : Operation → List Buffer
  | .receive _ payload => [payload]
  | .deliver _ _ answer => Answer.given answer
  | _ => []

theorem perform_settled (op : Operation)
    (settled : w.Settled others (n + tied (Operation.given op))) :
    (w.perform out op).Settled others n := by
  cases op with
  | start =>
    have first : w.requested.1.Settled others n :=
      settled.section (e := .request) (by simp) rfl rfl rfl
    exact sendReads_settled settles first _ _
  | deliver start position answer => exact deliver_settled settles start position answer settled
  | receive position payload => exact receive_settled settles position settled
  | fail position => exact fail_settled settles settled position
  | external position => exact external_settled settled position
  | abort => exact settled.section (e := .abort) (by simp) rfl rfl rfl
  | free => exact settled.section (e := .free) (by simp) rfl rfl rfl
  | decode recreate => exact decode_settled settles settled recreate
  | view position => exact settled.section (e := .view position) (by simp) rfl rfl rfl
  | dropView => exact settled.section (e := .dropView) (by simp) rfl rfl rfl

theorem performAll_settled (ops : List Operation)
    (settled : w.Settled others (n + tied (ops.flatMap Operation.given))) :
    (performAll out ops w).Settled others n := by
  induction ops generalizing w with
  | nil => exact settled
  | cons op rest ih =>
    rw [List.flatMap_cons, tied_append, Nat.add_comm (tied _), ← Nat.add_assoc] at settled
    exact ih (perform_settled settles op settled)

end World
end StripeRecovery
