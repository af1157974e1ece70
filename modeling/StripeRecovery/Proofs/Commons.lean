import StripeRecovery.Proofs.Balance
import StripeRecovery.Proofs.Hands
import StripeRecovery.Proofs.Leases
import Mathlib.Data.List.Perm.Basic

/-!
A pool and all who share it: callers with buffers at hand, sessions, and views of decoded
stripes. They move in any order. An operation that calls out is several moves, one for each
of its sections; a stale answer is a buffer dropped and a failure reported.
-/
namespace StripeRecovery
open Session (Section)

structure Member where
  session : Session
  present : Bool

/-- The views at hand are known by the numbers of their sessions. -/
structure Commons where
  shop : Scenario.Shop
  members : List Member
  views : List Nat

namespace Commons

inductive Move where
  | hand (name : String) (action : Scenario.PoolAction)
  | create (target : Target) (data parity : Nat) (settings : Settings)
  | receive (n position : Nat) (name : String)
  | act (n : Nat) (e : Section)
  | view (n position : Nat)
  | dropView (i : Nat)
  | close (n : Nat)

def fresh (settings : PoolSettings) : Commons := ⟨⟨.make settings, []⟩, [], []⟩

def present? (c : Commons) (n : Nat) : Option Session :=
  match c.members[n]? with
  | some m => if m.present then some m.session else none
  | none => none

def use (c : Commons) (n : Nat) (e : Section) : Commons :=
  match c.members[n]? with
  | some m =>
    let done := e.step m.session c.shop.pool
    ⟨⟨done.pool, c.shop.kept⟩, c.members.set n ⟨done.session, m.present⟩, c.views⟩
  | none => c

def solo : Section → Bool
  | .receive .. | .view _ | .dropView | .elsewhere _ => false
  | _ => true

def step (c : Commons) : Move → Commons
  | .hand name action => { c with shop := (c.shop.act name action).1 }
  | .create target data parity settings =>
    match Session.make target data parity settings with
    | .ok s => { c with members := c.members ++ [⟨s, true⟩] }
    | .error _ => c
  | .receive n position name =>
    match c.present? n, c.shop.get? name with
    | some _, some payload =>
      { c with shop := c.shop.forget name }.use n (.receive position payload)
    | _, _ => c
  | .act n e => if (c.present? n).isSome && solo e then c.use n e else c
  | .view n position =>
    match c.present? n with
    | some s =>
      let after := c.use n (.view position)
      match (s.view position).2 with
      | .ok _ => { after with views := c.views ++ [n] }
      | .error _ => after
    | none => c
  | .dropView i =>
    match c.views[i]? with
    | some n => { c.use n .dropView with views := c.views.eraseIdx i }
    | none => c
  | .close n =>
    match c.present? n with
    | some s =>
      if s.job.isNone then
        let done := s.free c.shop.pool
        ⟨⟨done.pool, c.shop.kept⟩, c.members.set n ⟨done.session, false⟩, c.views⟩
      else c
    | none => c

def play : List Move → Commons → Commons
  | [], c => c
  | move :: rest, c => play rest (c.step move)

/-- The buffers that are with somebody: at a caller's hand, or with a session and its views. -/
def live (c : Commons) : List Buffer :=
  c.shop.hands ++ c.members.flatMap fun m => m.session.possessed

def Refers (c : Commons) (n : Nat) : Prop :=
  (∃ m l, c.members[n]? = some m ∧ m.session.lease = some l ∧ l.held = true) ∨ n ∈ c.views

end Commons

/-- A session among others, with the given number of views of its stripe. -/
structure Member.Sound (m : Member) (views : Nat) : Prop where
  owned : m.session.Owned
  staged : m.session.Staged
  referred : m.session.Referred views
  left : m.present = false → m.session.Disowned ∧ m.session.job = none

theorem Session.possessed_make {target : Target} {data parity : Nat} {settings : Settings}
    {s : Session} (made : Session.make target data parity settings = .ok s) : s.possessed = [] := by
  obtain ⟨_, _, rfl⟩ := Session.make_ok made
  have absent := Session.make_absent target.layout target.stripe
  simp [Session.possessed, Session.inDecode, Session.inStripe,
    Session.buffers_bare fun c member => (absent c member).2]

theorem Member.Sound.make {target : Target} {data parity : Nat} {settings : Settings} {s : Session}
    (made : Session.make target data parity settings = .ok s) : Member.Sound ⟨s, true⟩ 0 := by
  obtain ⟨owned, staged⟩ := Session.orderly_make made
  obtain ⟨_, _, rfl⟩ := Session.make_ok made
  exact ⟨owned, staged, ⟨by simp, by simp⟩, by simp⟩

namespace Commons

structure Sound (c : Commons) : Prop where
  named : c.shop.Named
  members : ∀ n (m : Member), c.members[n]? = some m → m.Sound (c.views.count n)
  views : ∀ n ∈ c.views, n < c.members.length
  books : c.shop.pool.Lent (tied c.live)

variable {c next : Commons} {n : Nat} {m : Member}

theorem live_tied (c : Commons) :
    tied c.live = tied c.shop.hands + tied (c.members.flatMap fun m => m.session.possessed) :=
  tied_append _ _

theorem Sound.replace (sound : c.Sound) (found : c.members[n]? = some m) {after : Member}
    (members : next.members = c.members.set n after) (named : next.shop.Named)
    (well : after.Sound (next.views.count n))
    (others : ∀ k, k ≠ n → next.views.count k = c.views.count k)
    (settles : ∀ k, c.shop.pool.Lent (k + tied c.shop.hands + tied m.session.possessed) →
      next.shop.pool.Lent (k + tied next.shop.hands + tied after.session.possessed)) :
    next.Sound := by
  obtain ⟨inside, at_n⟩ := List.getElem?_eq_some_iff.mp found
  refine ⟨named, ?_, ?_, ?_⟩
  · intro k m' found'
    rw [members] at found'
    by_cases same : k = n
    · subst same
      rw [List.getElem?_set_self inside] at found'
      obtain rfl := Option.some.inj found'
      exact well
    · rw [List.getElem?_set_ne (Ne.symm same)] at found'
      rw [others k same]
      exact sound.members k m' found'
  · intro k there
    rw [members, List.length_set]
    by_cases same : k = n
    · rwa [same]
    · have counted := others k same
      exact sound.views k (List.count_pos_iff.mp (counted ▸ List.count_pos_iff.mpr there))
  · -- Of all that is live, only the buffers of this member and those at hand have changed.
    have books := sound.books
    obtain ⟨before, rest, whole, _, changed⟩ : ∃ before rest,
        c.members = before ++ c.members[n] :: rest ∧ before.length = n ∧
          c.members.set n after = before ++ after :: rest :=
      List.exists_of_set inside
    rw [at_n] at whole
    rw [live_tied, whole] at books
    rw [live_tied, members, changed]
    simp only [List.flatMap_append, List.flatMap_cons, tied_append] at books ⊢
    have settled := settles (tied (before.flatMap fun m => m.session.possessed) +
      tied (rest.flatMap fun m => m.session.possessed)) (by convert books using 1; omega)
    convert settled using 1
    omega

theorem Sound.used (sound : c.Sound) (found : c.members[n]? = some m) {e : Section}
    (own : ∀ after, e ≠ .elsewhere after) (kept : List (String × Buffer)) (views : List Nat)
    (present : Bool) (named : (kept.map (·.1)).Nodup)
    (given : tied c.shop.hands = tied (kept.map (·.2)) + tied e.given)
    (referred : (e.step m.session c.shop.pool).session.Referred (views.count n))
    (left : present = false → (e.step m.session c.shop.pool).session.Disowned ∧
      (e.step m.session c.shop.pool).session.job = none)
    (others : ∀ k, k ≠ n → views.count k = c.views.count k) :
    Sound ⟨⟨(e.step m.session c.shop.pool).pool, kept⟩,
      c.members.set n ⟨(e.step m.session c.shop.pool).session, present⟩, views⟩ := by
  have well := sound.members n m found
  obtain ⟨owned, staged⟩ := Session.orderly_step e m.session c.shop.pool ⟨well.owned, well.staged⟩
  refine sound.replace found rfl named ⟨owned, staged, referred, left⟩ others ?_
  intro k lent
  refine Session.step_lent well.owned well.staged own ?_
  rw [given] at lent
  simp only [Scenario.Shop.hands]
  convert lent using 1
  omega

theorem present?_some {s : Session} (has : c.present? n = some s) :
    c.members[n]? = some ⟨s, true⟩ := by
  unfold present? at has
  split at has
  · rename_i m found
    split at has
    · rename_i present
      obtain rfl := Option.some.inj has
      rw [found, ← present]
    · simp at has
  · simp at has

theorem referred_solo {s : Session} {views : Nat} (referred : s.Referred views)
    (staged : s.Staged) {e : Section} (alone : solo e = true) (pool : Pool) :
    (e.step s pool).session.Referred views := by
  cases e with
  | abort =>
    have given : Session.Referred { s with phase := .aborted } views :=
      ⟨referred.counted, referred.gone⟩
    exact given.free
  | free => exact referred.free
  | receive => simp [solo] at alone
  | view => simp [solo] at alone
  | dropView => simp [solo] at alone
  | elsewhere => simp [solo] at alone
  | _ => exact referred.change staged rfl (s.step_change pool _)

theorem Sound.hand (sound : c.Sound) (name : String) (action : Scenario.PoolAction) :
    (c.step (.hand name action)).Sound := by
  have books := sound.books
  rw [live_tied, Nat.add_comm] at books
  refine ⟨sound.named.act name action, sound.members, sound.views, ?_⟩
  rw [live_tied, Nat.add_comm]
  exact Scenario.Shop.act_lent sound.named books name action

theorem Sound.create (sound : c.Sound) (target : Target) (data parity : Nat) (settings : Settings) :
    (c.step (.create target data parity settings)).Sound := by
  cases made : Session.make target data parity settings with
  | error e => simpa only [step, made] using sound
  | ok s =>
    simp only [step, made]
    have unseen : c.views.count c.members.length = 0 := by
      refine List.count_eq_zero.mpr fun there => ?_
      exact absurd (sound.views _ there) (by omega)
    have well : Member.Sound ⟨s, true⟩ 0 := .make made
    refine ⟨sound.named, ?_, ?_, ?_⟩
    · intro n m found
      rw [List.getElem?_append] at found
      split at found
      · exact sound.members n m found
      · obtain ⟨new, rfl⟩ : n - c.members.length = 0 ∧ ⟨s, true⟩ = m := by
          simpa [List.getElem?_singleton] using found
        obtain rfl : n = c.members.length := by omega
        rwa [unseen]
    · intro n there
      have inside := sound.views n there
      simp only [List.length_append, List.length_singleton]
      omega
    · have books := sound.books
      have bare : s.possessed = [] := Session.possessed_make made
      rw [live_tied] at books ⊢
      simpa [bare] using books

theorem Sound.receive (sound : c.Sound) (n position : Nat) (name : String) :
    (c.step (.receive n position name)).Sound := by
  simp only [step]
  split
  · rename_i s payload has found
    have there := present?_some has
    have well := sound.members n _ there
    have own : ∀ after, Section.receive position payload ≠ .elsewhere after := by simp
    have used := sound.used there own (c.shop.forget name).kept c.views true sound.named.forget
      (by rw [Scenario.Shop.tied_forget sound.named name, found]; rfl)
      (well.referred.change well.staged rfl (s.step_change c.shop.pool _)) (by simp)
      (fun _ _ => rfl)
    simp only [use, there]
    exact used
  · exact sound

theorem Sound.act (sound : c.Sound) (n : Nat) (e : Section) : (c.step (.act n e)).Sound := by
  simp only [step]
  split
  · rename_i may
    obtain ⟨has, alone⟩ := Bool.and_eq_true_iff.mp may
    obtain ⟨s, has⟩ := Option.isSome_iff_exists.mp has
    have there := present?_some has
    have well := sound.members n _ there
    have own : ∀ after, e ≠ .elsewhere after := by
      rintro after rfl
      simp [solo] at alone
    have nothing : e.given = [] := by cases e <;> simp [solo, Section.given] at alone ⊢
    have used := sound.used there own c.shop.kept c.views true sound.named (by rw [nothing]; rfl)
      (referred_solo well.referred well.staged alone _) (by simp) (fun _ _ => rfl)
    simpa only [use, there] using used
  · exact sound

theorem Sound.view (sound : c.Sound) (n position : Nat) : (c.step (.view n position)).Sound := by
  simp only [step]
  split
  · rename_i s has
    have there := present?_some has
    have well := sound.members n _ there
    have own : ∀ after, Section.view position ≠ .elsewhere after := by simp
    have others : ∀ k, k ≠ n → (c.views ++ [n]).count k = c.views.count k := by
      intro k other
      simp [List.count_append, Ne.symm other]
    have used := fun views referred others =>
      sound.used there own c.shop.kept views true sound.named rfl referred (by simp) others
    simp only [use, there]
    rcases s.view_cases position with ⟨b, l, found, done⟩ | ⟨e, done⟩
    · rw [done]
      refine used (c.views ++ [n]) ?_ others
      rw [List.count_append, List.count_singleton_self, Section.step, done]
      exact well.referred.viewed found
    · rw [done]
      refine used c.views ?_ fun _ _ => rfl
      rw [Section.step, done]
      exact well.referred
  · exact sound

theorem Sound.dropView (sound : c.Sound) (i : Nat) : (c.step (.dropView i)).Sound := by
  simp only [step]
  split
  · rename_i n at_i
    have member := List.mem_of_getElem? at_i
    obtain ⟨m, there⟩ : ∃ m, c.members[n]? = some m :=
      ⟨_, List.getElem?_eq_getElem (sound.views n member)⟩
    have well := sound.members n _ there
    have own : ∀ after, Section.dropView ≠ .elsewhere after := by simp
    obtain ⟨inside, at_n⟩ := List.getElem?_eq_some_iff.mp at_i
    have counts (k : Nat) : (c.views.eraseIdx i).count k + (if n = k then 1 else 0) =
        c.views.count k := by
      rw [← (List.getElem_cons_eraseIdx_perm inside).count_eq k, at_n, List.count_cons]
      simp
    have referred := well.referred
    rw [← counts n, if_pos rfl] at referred
    have used := sound.used there own c.shop.kept (c.views.eraseIdx i) m.present sound.named rfl
      referred.dropView (fun gone => ?_) fun k other => ?_
    · simpa only [use, there] using used
    · obtain ⟨disowned, idle⟩ := well.left gone
      exact ⟨disowned.dropView, (Session.dropView_job _ _).trans idle⟩
    · simpa [Ne.symm other] using counts k
  · exact sound

theorem Sound.close (sound : c.Sound) (n : Nat) : (c.step (.close n)).Sound := by
  simp only [step]
  split
  · rename_i s has
    have there := present?_some has
    have well := sound.members n _ there
    have own : ∀ after, Section.free ≠ .elsewhere after := by simp
    split
    · rename_i idle
      have job : (s.free c.shop.pool).session.job = none := by
        obtain ⟨lease, _, freed⟩ := s.free_session c.shop.pool
        rw [freed]
        exact Option.isNone_iff_eq_none.mp idle
      exact sound.used there own c.shop.kept c.views false sound.named rfl well.referred.free
        (fun _ => ⟨.of_free s _, job⟩) (fun _ _ => rfl)
    · exact sound
  · exact sound

theorem Sound.step (sound : c.Sound) (move : Move) : (c.step move).Sound := by
  cases move with
  | hand name action => exact sound.hand name action
  | create target data parity settings => exact sound.create target data parity settings
  | receive n position name => exact sound.receive n position name
  | act n e => exact sound.act n e
  | view n position => exact sound.view n position
  | dropView i => exact sound.dropView i
  | close n => exact sound.close n

theorem Sound.play (sound : c.Sound) (moves : List Move) : (Commons.play moves c).Sound := by
  induction moves generalizing c with
  | nil => exact sound
  | cons move rest ih => exact ih (sound.step move)

theorem Sound.fresh (settings : PoolSettings) : (Commons.fresh settings).Sound :=
  ⟨List.nodup_nil, by simp [Commons.fresh], by simp [Commons.fresh], rfl⟩

theorem Sound.refers_iff (sound : c.Sound) (found : c.members[n]? = some m) :
    c.Refers n ↔ m.session.lease ≠ none := by
  have referred := (sound.members n m found).referred
  constructor
  · rintro (⟨m', l, found', lease, -⟩ | viewed)
    · obtain rfl := Option.some.inj (found.symm.trans found')
      simp [lease]
    · intro gone
      have := List.count_pos_iff.mpr viewed
      have := referred.gone gone
      omega
  · intro there
    obtain ⟨l, lease⟩ := Option.ne_none_iff_exists'.mp there
    rcases (referred.counted l lease).2 with held | viewed
    · exact .inl ⟨m, l, found, lease, held⟩
    · exact .inr (List.count_pos_iff.mp viewed)

theorem use_other (c : Commons) {k : Nat} (other : n ≠ k) (e : Section) :
    (c.use k e).members[n]? = c.members[n]? := by
  unfold use
  split
  · exact List.getElem?_set_ne (Ne.symm other)
  · rfl

theorem use_self (found : c.members[n]? = some m) (e : Section) :
    (c.use n e).members[n]? = some ⟨(e.step m.session c.shop.pool).session, m.present⟩ ∧
      (c.use n e).shop.pool = (e.step m.session c.shop.pool).pool := by
  obtain ⟨inside, _⟩ := List.getElem?_eq_some_iff.mp found
  simp only [use, found]
  exact ⟨List.getElem?_set_self inside, trivial⟩

def StaysOrReturns (c : Commons) (n : Nat) (l : Lease) (next : Commons) : Prop :=
  ∃ m, next.members[n]? = some m ∧ l.StaysOrReturns c.shop.pool m.session next.shop.pool

theorem StaysOrReturns.same (found : c.members[n]? = some m) {l : Lease}
    (lease : m.session.lease = some l) (same : next.members[n]? = c.members[n]?) :
    c.StaysOrReturns n l next :=
  ⟨m, same.trans found, .inl ⟨l, lease, rfl⟩⟩

theorem use_lease (owned : m.session.Owned) (staged : m.session.Staged)
    (found : c.members[n]? = some m) {l : Lease} (lease : m.session.lease = some l) (k : Nat)
    (e : Section) : c.StaysOrReturns n l (c.use k e) := by
  by_cases here : n = k
  · subst here
    obtain ⟨member, pool⟩ := use_self found e
    refine ⟨_, member, ?_⟩
    rw [pool]
    exact Session.step_lease owned staged lease e
  · exact .same found lease (c.use_other here e)

theorem Sound.step_lease (sound : c.Sound) (found : c.members[n]? = some m) {l : Lease}
    (lease : m.session.lease = some l) (move : Move) : c.StaysOrReturns n l (c.step move) := by
  have stays : c.StaysOrReturns n l c := .same found lease rfl
  have well := sound.members n m found
  have used := use_lease well.owned well.staged found lease
  have inside := (List.getElem?_eq_some_iff.mp found).1
  cases move with
  | hand name action => exact .same found lease rfl
  | create target data parity settings =>
    simp only [Commons.step]
    split
    · exact .same found lease (List.getElem?_append_left inside)
    · exact stays
  | receive k position name =>
    simp only [Commons.step]
    split
    · exact use_lease (c := { c with shop := c.shop.forget name }) well.owned well.staged found
        lease k _
    · exact stays
  | act k e =>
    simp only [Commons.step]
    split
    · exact used k e
    · exact stays
  | view k position =>
    simp only [Commons.step]
    split
    · split
      · exact used k (.view position)
      · exact used k (.view position)
    · exact stays
  | dropView i =>
    simp only [Commons.step]
    split
    · rename_i k _
      exact used k .dropView
    · exact stays
  | close k =>
    simp only [Commons.step]
    split
    · rename_i s has
      split
      · by_cases here : n = k
        · subst here
          obtain rfl := Option.some.inj ((present?_some has).symm.trans found)
          exact ⟨_, List.getElem?_set_self inside,
            Session.step_lease well.owned well.staged lease .free⟩
        · exact .same found lease (List.getElem?_set_ne (Ne.symm here))
      · exact stays
    · exact stays

/-- The move after which nobody refers to a stripe returns it, and no move before that. -/
theorem Sound.stripe_step (sound : c.Sound) (found : c.members[n]? = some m) {l : Lease}
    (lease : m.session.lease = some l) (move : Move) :
    ∃ m', (c.step move).members[n]? = some m' ∧
      ((c.step move).Refers n → ∃ l', m'.session.lease = some l' ∧ l'.stripe = l.stripe) ∧
      (¬ (c.step move).Refers n → m'.session.lease = none ∧
        (c.step move).shop.pool = c.shop.pool.releaseAll l.stripe.buffers) := by
  obtain ⟨m', found', stripe⟩ := sound.step_lease found lease move
  have refers := (sound.step move).refers_iff found'
  refine ⟨m', found', fun referred => ?_, fun unreferred => ?_⟩
  · exact stripe.resolve_right fun gone => (refers.mp referred) gone.1
  · refine stripe.resolve_left ?_
    rintro ⟨l', there, -⟩
    exact unreferred (refers.mpr (by simp [there]))

theorem Sound.possesses (sound : c.Sound) (found : c.members[n]? = some m) (unseen : n ∉ c.views)
    (disowned : m.session.Disowned) : m.session.possessed = m.session.inDecode ∧
      (m.session.job = none → m.session.possessed = []) := by
  have referred := (sound.members n m found).referred
  rw [List.count_eq_zero.mpr unseen] at referred
  have left := disowned.possesses referred
  refine ⟨left, fun idle => ?_⟩
  rw [left, Session.inDecode, idle]

theorem Sound.possesses_of_gone (sound : c.Sound) (found : c.members[n]? = some m)
    (unseen : n ∉ c.views) (gone : m.session.phase = .aborted ∨ m.present = false) :
    m.session.possessed = m.session.inDecode ∧
      (m.session.job = none → m.session.possessed = []) := by
  have well := sound.members n m found
  refine sound.possesses found unseen ?_
  rcases gone with aborted | left
  · exact .of_aborted well.owned well.staged aborted
  · exact (well.left left).1

theorem Sound.possesses_of_free {s : Session} (sound : c.Sound) (has : c.present? n = some s)
    (unseen : n ∉ c.views) :
    ∃ m, (c.step (.act n .free)).members[n]? = some m ∧
      m.session.possessed = m.session.inDecode ∧ (s.job = none → m.session.possessed = []) := by
  have there := present?_some has
  have freed : c.step (.act n .free) = c.use n .free := by simp [Commons.step, has, solo]
  obtain ⟨member, -⟩ := use_self there .free
  have after := sound.step (.act n .free)
  rw [freed] at after ⊢
  obtain ⟨left, bare⟩ :=
    after.possesses member (by simpa [use, there] using unseen) (.of_free s c.shop.pool)
  refine ⟨_, member, left, fun idle => bare ?_⟩
  obtain ⟨lease, _, done⟩ := s.free_session c.shop.pool
  simp only [Section.step, done]
  exact idle

end Commons

/-- Whatever callers, sessions and views do with a pool, what it handed out and did not get back
    is with one of them. A decoded stripe is there as long as its session or a view refers to it,
    and the move that ends this returns its buffers. Without views, a session that was aborted,
    freed or left has no buffers but those of a decode that is still under way. The books balance
    between operations of a session at work as well, given that callbacks, reads and the codec
    settle for what they do. -/
theorem pool_books_balance :
    (∀ (settings : PoolSettings) (moves : List Commons.Move),
      let now := Commons.play moves (.fresh settings)
      let counts := now.shop.pool.counts
      counts.allocated = counts.released + tied now.live ∧
        counts.released ≤ counts.allocated ∧
        (∀ n m, now.members[n]? = some m → (now.Refers n ↔ m.session.lease ≠ none)) ∧
        (∀ n m l move, now.members[n]? = some m → m.session.lease = some l →
          let next := now.step move
          ∃ m', next.members[n]? = some m' ∧
            (next.Refers n → ∃ l', m'.session.lease = some l' ∧ l'.stripe = l.stripe) ∧
            (¬ next.Refers n → m'.session.lease = none ∧
              next.shop.pool = now.shop.pool.releaseAll l.stripe.buffers)) ∧
        (∀ n m, now.members[n]? = some m → n ∉ now.views →
          m.session.phase = .aborted ∨ m.present = false →
          m.session.possessed = m.session.inDecode ∧
            (m.session.job = none → m.session.possessed = [])) ∧
        ∀ n s, now.present? n = some s → n ∉ now.views →
          ∃ m, (now.step (.act n .free)).members[n]? = some m ∧
            m.session.possessed = m.session.inDecode ∧
            (s.job = none → m.session.possessed = [])) ∧
    ∀ {ω : Type} (out : Outside ω) (others : ω → Nat), out.Settles others →
      ∀ (target : Target) (data parity : Nat) (settings : Settings) (w : World ω),
        Session.make target data parity settings = .ok w.session →
        ∀ ops rest : List World.Operation,
          w.pool.Lent (tied ((ops ++ rest).flatMap World.Operation.given) + others w.aside) →
          let after := World.performAll out ops w
          after.pool.Lent (tied (rest.flatMap World.Operation.given) + others after.aside +
            tied after.session.possessed) := by
  refine ⟨?_, ?_⟩
  · intro settings moves now counts
    have sound : now.Sound := (Commons.Sound.fresh settings).play moves
    have books : counts.allocated = counts.released + tied now.live := sound.books
    refine ⟨books, by omega, fun n m found => sound.refers_iff found, ?_, ?_, ?_⟩
    · intro n m l move found lease next
      exact sound.stripe_step found lease move
    · intro n m found unseen gone
      exact sound.possesses_of_gone found unseen gone
    · intro n s has unseen
      exact sound.possesses_of_free has unseen
  · intro ω out others settles target data parity settings w made ops rest lent after
    obtain ⟨owned, staged⟩ := Session.orderly_make made
    have settled : w.Settled others (tied (rest.flatMap World.Operation.given) +
        tied (ops.flatMap World.Operation.given)) := by
      refine ⟨owned, staged, ?_⟩
      rw [Session.possessed_make made, tied_nil]
      rw [List.flatMap_append, tied_append] at lent
      convert lent using 1
      omega
    exact (World.performAll_settled settles ops settled).lent

/-- A view outlives its session, and the stripe goes back to the pool with the view. At work, a
    callback frees the payloads, and the codec has the session aborted. -/
theorem pool_books_balance_last_view :
    let target : Target := ⟨"vol:file", 42, ⟨1, 1, 1, 0⟩, .empty, ⟨[]⟩⟩
    let attempt : Attempt RepairCount := ⟨[[7], [7]], .ok ⟨0, 1⟩⟩
    let now := Commons.play [.hand "payload" (.adopt [7] 1), .create target 1 1 .standard,
      .receive 0 0 "payload", .act 0 (.beginDecode true), .act 0 (.finishDecode attempt),
      .view 0 1, .close 0] (.fresh .standard)
    let next := now.step (.dropView 0)
    let out : Outside Unit :=
      { notify := fun _ w => w.free.1
        send := fun _ _ _ w => (w, none)
        repair := fun _ w => (w.abort, attempt) }
    let s : Session := ⟨target, none, .pending, .make target.layout 42, 0, 0, none, none⟩
    let given := (Pool.make .standard).adopt [7] 1
    let ops : List World.Operation := [.deliver 0 0 (.payload given.2), .decode true]
    let after := World.performAll out ops ⟨s, given.1, [], [], ()⟩
    (∃ m l, now.members[0]? = some m ∧ m.present = false ∧ m.session.lease = some l ∧
      tied l.stripe.buffers = 2 ∧ now.Refers 0 ∧
      next.shop.pool = now.shop.pool.releaseAll l.stripe.buffers) ∧
    after.pool.Lent (tied after.session.possessed) ∧ after.session.phase = .aborted := by
  intro target attempt now next out s given ops after
  constructor
  · have viewed : 0 ∈ now.views := by decide +kernel
    have gone : next.views = [] ∧ ∃ m, next.members[0]? = some m ∧ m.session.lease = none := by
      decide +kernel
    obtain ⟨m, found, left, l, lease, size⟩ : ∃ m, now.members[0]? = some m ∧ m.present = false ∧
        ∃ l, m.session.lease = some l ∧ tied l.stripe.buffers = 2 := by
      decide +kernel
    have unreferred : ¬ next.Refers 0 := by
      obtain ⟨noViews, m', found', noLease⟩ := gone
      rintro (⟨m'', l', found'', there, -⟩ | viewed)
      · obtain rfl := Option.some.inj (found'.symm.trans found'')
        simp [noLease] at there
      · simp [noViews] at viewed
    obtain ⟨_, _, _, stripe, _⟩ := pool_books_balance.1 .standard [.hand "payload" (.adopt [7] 1),
      .create target 1 1 .standard, .receive 0 0 "payload", .act 0 (.beginDecode true),
      .act 0 (.finishDecode attempt), .view 0 1, .close 0]
    obtain ⟨_, _, _, returned⟩ := stripe 0 m l (.dropView 0) found lease
    exact ⟨m, l, found, left, lease, size, .inr viewed, (returned unreferred).2⟩
  · have settles : out.Settles fun _ => 0 := by
      refine ⟨?_, ?_, ?_⟩
      · intro note n w settled
        exact settled.section (e := .free) (by simp) rfl rfl rfl
      · intro start route request n w settled
        exact settled
      · intro call n w settled
        exact settled.section (e := .abort) (by simp) rfl rfl rfl
    have made : Session.make target 1 1 .standard = .ok s := by decide +kernel
    have lent : given.1.Lent (tied ((ops ++ []).flatMap World.Operation.given) + 0) := by
      decide +kernel
    have books := pool_books_balance.2 out (fun _ => 0) settles target 1 1 .standard
      ⟨s, given.1, [], [], ()⟩ made ops [] lent
    refine ⟨?_, by decide +kernel⟩
    simpa using books

end StripeRecovery
