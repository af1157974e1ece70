import StripeRecovery.Proofs.Accounts

/-!
The references to a decoded stripe: that of its session, and one for each view. The stripe is
there as long as one of them is, and then goes back to the pool.
-/
namespace StripeRecovery
namespace Session

structure Referred (s : Session) (views : Nat) : Prop where
  counted : ∀ l, s.lease = some l → l.views = views ∧ (l.held = true ∨ 0 < views)
  gone : s.lease = none → views = 0

/-- The session owns nothing any more; a stripe that is still there is left to its views. -/
structure Disowned (s : Session) : Prop where
  bare : s.roster.buffers = []
  unheld : ∀ l, s.lease = some l → l.held = false

def Section.refers : Section → Bool
  | .abort | .free | .view _ | .dropView => true
  | _ => false

variable {s : Session} {pool : Pool} {views : Nat}

theorem buffers_bare {t : Roster} (bare : ∀ c ∈ t.chunks, c.buffer = none) : t.buffers = [] :=
  List.filterMap_eq_nil_iff.mpr bare

theorem Disowned.of_free (s : Session) (pool : Pool) : (s.free pool).session.Disowned := by
  obtain ⟨lease, released, freed⟩ := s.free_session pool
  rw [freed]
  exact ⟨Roster.buffers_withoutBuffers _, released.unheld⟩

theorem Disowned.of_aborted (owned : s.Owned) (staged : s.Staged) (aborted : s.phase = .aborted) :
    s.Disowned where
  bare := buffers_bare (owned.past (by simp [aborted]) (by simp [aborted]))
  unheld := by
    intro l found
    by_contra held
    have decoded := staged.held l found (by simpa using held)
    simp [aborted] at decoded

theorem Disowned.dropView (disowned : s.Disowned) : (s.dropView pool).session.Disowned := by
  unfold Session.dropView
  cases found : s.lease with
  | none => exact disowned
  | some l =>
    have unheld := disowned.unheld l found
    by_cases last : l.views ≤ 1 ∧ !l.held
    · simp only [last, and_self, ↓reduceIte]
      exact ⟨disowned.bare, by simp⟩
    · simp only [last, ↓reduceIte]
      refine ⟨disowned.bare, fun l' found' => ?_⟩
      obtain rfl := Option.some.inj found'
      exact unheld

theorem dropView_job (s : Session) (pool : Pool) : (s.dropView pool).session.job = s.job := by
  unfold Session.dropView
  split
  · split <;> rfl
  · rfl

theorem Disowned.possesses (disowned : s.Disowned) (referred : s.Referred 0) :
    s.possessed = s.inDecode := by
  have noLease : s.lease = none := by
    cases found : s.lease with
    | none => rfl
    | some l =>
      have held := (referred.counted l found).2
      simp [disowned.unheld l found] at held
  simp [possessed, inStripe, disowned.bare, noLease]

theorem Referred.free (referred : s.Referred views) : (s.free pool).session.Referred views := by
  have given : (s.giveUpStripe pool).session.Referred views := by
    unfold giveUpStripe
    cases found : s.lease with
    | none => exact referred
    | some l =>
      have counted := (referred.counted l found).1
      by_cases held : l.held = true
      · by_cases viewless : l.views = 0
        · simp only [held, viewless, ↓reduceIte]
          exact ⟨by simp, fun _ => counted.symm.trans viewless⟩
        · simp only [held, viewless, ↓reduceIte]
          refine ⟨fun l' found' => ?_, by simp⟩
          obtain rfl := Option.some.inj found'
          exact ⟨counted, .inr (by omega)⟩
      · simpa only [held, Bool.false_eq_true, ↓reduceIte] using referred
  exact ⟨given.counted, given.gone⟩

theorem Referred.change {after : Session} {e : Section} {told : List Notice}
    (referred : s.Referred views) (staged : s.Staged) (other : e.refers = false)
    (change : Change s e after told) : after.Referred views := by
  have same : ∀ t : Session, t.lease = s.lease → t.Referred views := fun t lease =>
    ⟨lease ▸ referred.counted, lease ▸ referred.gone⟩
  cases change with
  | still => exact referred
  | lost pending may many released =>
    have lease := (staged.early (.inl pending)).2
    exact same _ ((released.none_stays lease).trans lease.symm)
  | aborted => simp [Section.refers] at other
  | freed => simp [Section.refers] at other
  | viewed => simp [Section.refers] at other
  | unviewed => simp [Section.refers] at other
  | unleased => simp [Section.refers] at other
  | stored working =>
    refine ⟨fun l found => ?_, by simp⟩
    obtain rfl := Option.some.inj found
    exact ⟨(referred.gone (staged.working working)).symm, .inl rfl⟩
  | _ => exact same _ rfl

theorem view_cases (s : Session) (position : Nat) :
    (∃ b l, s.lease = some l ∧
      s.view position = ({ s with lease := some { l with views := l.views + 1 } }, .ok b)) ∨
    ∃ e, s.view position = (s, .error e) := by
  unfold view
  split
  · exact .inr ⟨_, rfl⟩
  · split
    · exact .inr ⟨_, rfl⟩
    · exact .inr ⟨_, rfl⟩
    · exact .inr ⟨_, rfl⟩
    · exact .inr ⟨_, rfl⟩
    · split
      · rename_i l found
        split
        · split
          · exact .inl ⟨_, l, found, rfl⟩
          · exact .inr ⟨_, rfl⟩
        · exact .inr ⟨_, rfl⟩
      · exact .inr ⟨_, rfl⟩

theorem Referred.viewed {l : Lease} (referred : s.Referred views) (found : s.lease = some l) :
    Referred { s with lease := some { l with views := l.views + 1 } } (views + 1) := by
  refine ⟨fun l' found' => ?_, by simp⟩
  obtain rfl := Option.some.inj found'
  exact ⟨congrArg (· + 1) (referred.counted l found).1, .inr (by omega)⟩

theorem Referred.dropView (referred : s.Referred (views + 1)) :
    (s.dropView pool).session.Referred views := by
  unfold Session.dropView
  cases found : s.lease with
  | none => exact absurd (referred.gone found) (by simp)
  | some l =>
    obtain ⟨counted, -⟩ := referred.counted l found
    by_cases last : l.views ≤ 1 ∧ !l.held
    · simp only [last, and_self, ↓reduceIte]
      exact ⟨by simp, fun _ => by omega⟩
    · simp only [last, ↓reduceIte]
      refine ⟨fun l' found' => ?_, by simp⟩
      obtain rfl := Option.some.inj found'
      refine ⟨by simp [counted], ?_⟩
      by_cases held : l.held = true
      · exact .inl held
      · exact .inr (by simp [held] at last; omega)

end Session

/-- The stripe is still there, or all of it just went back to the pool. -/
def Lease.StaysOrReturns (l : Lease) (pool : Pool) (after : Session) (now : Pool) : Prop :=
  (∃ l', after.lease = some l' ∧ l'.stripe = l.stripe) ∨
    (after.lease = none ∧ now = pool.releaseAll l.stripe.buffers)

namespace Session
variable {s : Session} {pool : Pool} {l : Lease}

theorem free_lease (found : s.lease = some l) (bare : s.roster.buffers = []) :
    l.StaysOrReturns pool (s.free pool).session (s.free pool).pool := by
  have given : l.StaysOrReturns pool (s.giveUpStripe pool).session (s.giveUpStripe pool).pool ∧
      (s.giveUpStripe pool).session.roster = s.roster := by
    simp only [giveUpStripe, found]
    by_cases held : l.held = true
    · by_cases viewless : l.views = 0
      · simp only [held, viewless, ↓reduceIte]
        exact ⟨.inr ⟨rfl, rfl⟩, trivial⟩
      · simp only [held, viewless, ↓reduceIte]
        exact ⟨.inl ⟨_, rfl, rfl⟩, trivial⟩
    · simp only [held, Bool.false_eq_true, ↓reduceIte]
      exact ⟨.inl ⟨l, found, rfl⟩, trivial⟩
  obtain ⟨stripe, roster⟩ := given
  simp only [free, roster, bare, Pool.releaseAll, List.foldl_nil]
  exact stripe

theorem dropView_lease (found : s.lease = some l) :
    l.StaysOrReturns pool (s.dropView pool).session (s.dropView pool).pool := by
  simp only [dropView, found]
  by_cases last : l.views ≤ 1 ∧ !l.held
  · simp only [last, and_self, ↓reduceIte]
    exact .inr ⟨rfl, rfl⟩
  · simp only [last, ↓reduceIte]
    exact .inl ⟨_, rfl, rfl⟩

theorem Change.lease_same {after : Session} {e : Section} {told : List Notice}
    (change : Change s e after told) (late : s.phase ≠ .pending) (idle : s.job = none)
    (other : e.refers = false) : after.lease = s.lease := by
  cases change with
  | lost pending => exact absurd pending late
  | stored working => exact absurd idle working
  | aborted => simp [Section.refers] at other
  | freed => simp [Section.refers] at other
  | viewed => simp [Section.refers] at other
  | unviewed => simp [Section.refers] at other
  | unleased => simp [Section.refers] at other
  | _ => rfl

theorem step_lease (owned : s.Owned) (staged : s.Staged) (found : s.lease = some l) (e : Section) :
    l.StaysOrReturns pool (e.step s pool).session (e.step s pool).pool := by
  obtain ⟨idle, late⟩ := staged.lease (by simp [found])
  have notPending : s.phase ≠ .pending := by rcases late with h | h <;> simp [h]
  have notCompleted : s.phase ≠ .completed := by rcases late with h | h <;> simp [h]
  -- Once there is a stripe the chunks own nothing, so what a release returns is the stripe alone.
  have bare := buffers_bare (owned.past notPending notCompleted)
  have same (other : e.refers = false) : (e.step s pool).session.lease = some l :=
    ((s.step_change pool e).lease_same notPending idle other).trans found
  cases e with
  | abort => exact free_lease (s := { s with phase := .aborted }) found bare
  | free => exact free_lease found bare
  | dropView => exact dropView_lease found
  | view position =>
    rcases s.view_cases position with ⟨b, l', found', done⟩ | ⟨e, done⟩
    · obtain rfl := Option.some.inj (found'.symm.trans found)
      exact .inl ⟨{ l' with views := l'.views + 1 }, by simp only [Section.step, done], rfl⟩
    · exact .inl ⟨l, by simp [Section.step, done, found], rfl⟩
  | _ => exact .inl ⟨l, same rfl, rfl⟩

end Session
end StripeRecovery
