import StripeRecovery.Proofs.Commons
import StripeRecovery.Proofs.Discreet

/-!
Payloads that no session takes. They may be anything: whoever shares the pool with them sees
the same in two runs that differ in such payloads alone, although the pool may hand out their
storage to others.
-/
namespace StripeRecovery
open Session (Section)

/-- What is seen of a buffer at hand; under a hidden name, only whether it is pooled. -/
def Buffer.under (hidden : List String) (name : String) (b : Buffer) : Buffer :=
  if name ∈ hidden then ⟨[], [], 0, b.pooled⟩ else b.visible

namespace Buffer
variable {hidden : List String} {name : String} {b c : Buffer}

theorem under_hidden (secret : name ∈ hidden) (same : b.pooled = c.pooled) :
    b.under hidden name = c.under hidden name := by
  simp [under, secret, same]

theorem under_visible (same : b.visible = c.visible) :
    b.under hidden name = c.under hidden name := by
  obtain ⟨_, _, pooled⟩ := visible_iff.mp same
  by_cases secret : name ∈ hidden
  · exact under_hidden secret pooled
  · simpa [under, secret] using same

theorem pooled_of_under (same : b.under hidden name = c.under hidden name) :
    b.pooled = c.pooled := by
  by_cases secret : name ∈ hidden
  · simpa [under, secret] using same
  · exact (visible_iff.mp (by simpa [under, secret] using same)).2.2

theorem visible_of_under (shown : name ∉ hidden)
    (same : b.under hidden name = c.under hidden name) : b.visible = c.visible := by
  simpa [under, shown] using same

end Buffer

namespace Scenario

/-- What an action shows; of the pool, what it handed out and took back. -/
def PoolResponse.visible : PoolResponse → PoolResponse
  | .shown b => .shown b.visible
  | .text _ => .done
  | .counts value => .counts { value with hits := 0, misses := 0 }
  | response => response

/-- Two actions that make, change or drop buffers of one kind, with other bytes and lengths.
    To extend a buffer is not one of them: its length decides whether the pool is asked. -/
inductive PoolAction.Alike : PoolAction → PoolAction → Prop where
  | allocate (size size' : Nat) : Alike (.allocate size) (.allocate size')
  | adopt (bytes bytes' : List UInt8) (capacity capacity' : Nat) :
      Alike (.adopt bytes capacity) (.adopt bytes' capacity')
  | unpooled (bytes bytes' : List UInt8) (capacity capacity' : Nat) :
      Alike (.unpooled bytes capacity) (.unpooled bytes' capacity')
  | shorten (length length' : Nat) : Alike (.shorten length) (.shorten length')
  | fill (byte byte' : UInt8) : Alike (.fill byte) (.fill byte')
  | drop : Alike .drop .drop

namespace Shop

/-- Two shops that differ at most under hidden names. -/
structure Like (hidden : List String) (s t : Shop) : Prop where
  pool : s.pool.Like t.pool
  kept : s.kept.map (fun e => (e.1, e.2.under hidden e.1)) =
    t.kept.map (fun e => (e.1, e.2.under hidden e.1))

variable {hidden : List String} {s t : Shop} {name : String}

theorem lookup_map (f : String → Buffer → Buffer) (kept : List (String × Buffer)) (name : String) :
    (kept.map fun e => (e.1, f e.1 e.2)).lookup name = (kept.lookup name).map (f name) := by
  induction kept with
  | nil => rfl
  | cons first rest ih =>
    obtain ⟨other, b⟩ := first
    by_cases here : name = other
    · simp [here]
    · have apart : (name == other) = false := by simpa using here
      simp only [List.map_cons, List.lookup_cons, apart, ih]

namespace Like

theorem get? (like : s.Like hidden t) (name : String) :
    (s.get? name = none ∧ t.get? name = none) ∨
      ∃ b c, s.get? name = some b ∧ t.get? name = some c ∧
        b.under hidden name = c.under hidden name := by
  have seen := congrArg (List.lookup name) like.kept
  rw [lookup_map (Buffer.under hidden), lookup_map (Buffer.under hidden)] at seen
  exact found_alike seen

theorem forget (like : s.Like hidden t) (name : String) :
    (s.forget name).Like hidden (t.forget name) := by
  refine ⟨like.pool, ?_⟩
  have left := congrArg (List.filter (·.1 != name)) like.kept
  simpa only [List.filter_map, Function.comp_def, Shop.forget] using left

theorem put (like : s.Like hidden t) (name : String) {p q : Pool} (pools : p.Like q) {b c : Buffer}
    (same : b.under hidden name = c.under hidden name) :
    Like hidden ⟨p, (s.forget name).kept ++ [(name, b)]⟩
      ⟨q, (t.forget name).kept ++ [(name, c)]⟩ := by
  refine ⟨pools, ?_⟩
  rw [List.map_append, List.map_append, (like.forget name).kept]
  simp only [List.map_cons, List.map_nil, same]

theorem keep (like : s.Like hidden t) (name : String) {made made' : Pool × Buffer}
    (pools : made.1.Like made'.1)
    (same : made.2.under hidden name = made'.2.under hidden name) :
    (s.keep name made).1.Like hidden (t.keep name made').1 ∧
      (s.keep name made).2 = (t.keep name made').2 := by
  unfold Shop.keep
  rcases like.get? name with ⟨first, second⟩ | ⟨b, c, first, second, alike⟩
  · rw [first, second]
    exact ⟨like.put name pools same, rfl⟩
  · rw [first, second]
    exact ⟨like.put name (pools.release (Buffer.pooled_of_under alike)) same, rfl⟩

theorem change (like : s.Like hidden t) (name : String) {f g : Pool → Buffer → Pool × Buffer}
    (fair : ∀ p q b c, p.Like q → b.under hidden name = c.under hidden name →
      (f p b).1.Like (g q c).1 ∧ (f p b).2.under hidden name = (g q c).2.under hidden name) :
    (s.change name f).1.Like hidden (t.change name g).1 ∧
      (s.change name f).2 = (t.change name g).2 := by
  unfold Shop.change
  rcases like.get? name with ⟨first, second⟩ | ⟨b, c, first, second, alike⟩
  · rw [first, second]
    exact ⟨like, rfl⟩
  · rw [first, second]
    obtain ⟨pools, same⟩ := fair s.pool t.pool b c like.pool alike
    exact ⟨like.put name pools same, rfl⟩

theorem drop (like : s.Like hidden t) (name : String) :
    (s.act name .drop).1.Like hidden (t.act name .drop).1 ∧
      (s.act name .drop).2 = (t.act name .drop).2 := by
  simp only [act]
  rcases like.get? name with ⟨first, second⟩ | ⟨b, c, first, second, alike⟩
  · rw [first, second]
    exact ⟨like, rfl⟩
  · rw [first, second]
    exact ⟨⟨like.pool.release (Buffer.pooled_of_under alike), (like.forget name).kept⟩, rfl⟩

theorem act_hidden (like : s.Like hidden t) (secret : name ∈ hidden) {a a' : PoolAction}
    (alike : a.Alike a') : (s.act name a).1.Like hidden (t.act name a').1 ∧
      (s.act name a).2 = (t.act name a').2 := by
  cases alike with
  | allocate size size' =>
    exact like.keep name (like.pool.allocate size size')
      (Buffer.under_hidden secret ((s.pool.allocate_pooled size).trans
        (t.pool.allocate_pooled size').symm))
  | adopt bytes bytes' capacity capacity' =>
    exact like.keep name (like.pool.adopt bytes bytes' capacity capacity')
      (Buffer.under_hidden secret rfl)
  | unpooled bytes bytes' capacity capacity' =>
    exact like.keep name like.pool (Buffer.under_hidden secret rfl)
  | shorten length length' =>
    refine like.change name fun p q b c pools same => ⟨pools, Buffer.under_hidden secret ?_⟩
    rw [Buffer.shorten_pooled, Buffer.shorten_pooled]
    exact Buffer.pooled_of_under same
  | fill byte byte' =>
    refine like.change name fun p q b c pools same => ⟨pools, Buffer.under_hidden secret ?_⟩
    exact (Buffer.pooled_of_under same : b.pooled = c.pooled)
  | drop => exact like.drop name

theorem act_shown (like : s.Like hidden t) (shown : name ∉ hidden) (a : PoolAction) :
    (s.act name a).1.Like hidden (t.act name a).1 ∧
      (s.act name a).2.visible = (t.act name a).2.visible := by
  have looks : ∀ {b c : Buffer}, b.under hidden name = c.under hidden name →
      b.visible = c.visible := Buffer.visible_of_under shown
  have told : ∀ {x y : Shop × PoolResponse}, x.1.Like hidden y.1 ∧ x.2 = y.2 →
      x.1.Like hidden y.1 ∧ x.2.visible = y.2.visible :=
    fun both => ⟨both.1, congrArg PoolResponse.visible both.2⟩
  cases a with
  | allocate size =>
    exact told (like.keep name (like.pool.allocate size size)
      (Buffer.under_visible (like.pool.allocate_visible size)))
  | adopt bytes capacity =>
    exact told (like.keep name (like.pool.adopt bytes bytes capacity capacity) rfl)
  | unpooled bytes capacity => exact told (like.keep name like.pool rfl)
  | drop => exact told (like.drop name)
  | extend size =>
    refine told (like.change name fun p q b c pools same => ?_)
    obtain ⟨pools', same'⟩ := pools.extend (looks same) size
    exact ⟨pools', Buffer.under_visible same'⟩
  | shorten length =>
    exact told (like.change name fun p q b c pools same =>
      ⟨pools, Buffer.under_visible (Buffer.visible_shorten (looks same) length)⟩)
  | fill byte =>
    exact told (like.change name fun p q b c pools same =>
      ⟨pools, Buffer.under_visible (Buffer.visible_fill (looks same) byte)⟩)
  | detach =>
    simp only [act]
    rcases like.get? name with ⟨first, second⟩ | ⟨b, c, first, second, alike⟩
    · rw [first, second]
      exact ⟨like, rfl⟩
    · rw [first, second]
      obtain ⟨bytes, _, pooled⟩ := Buffer.visible_iff.mp (looks alike)
      exact ⟨⟨like.pool.detach pooled, (like.forget name).kept⟩,
        congrArg PoolResponse.bytes bytes⟩
  | «show» =>
    simp only [act]
    rcases like.get? name with ⟨first, second⟩ | ⟨b, c, first, second, alike⟩
    · rw [first, second]
      exact ⟨like, rfl⟩
    · rw [first, second]
      exact ⟨like, congrArg PoolResponse.shown (looks alike)⟩
  | showPool => exact ⟨like, by simp only [act, PoolResponse.visible]⟩
  | counts =>
    refine ⟨like, ?_⟩
    simp only [act, PoolResponse.visible, like.pool.allocated, like.pool.released]

end Like

end Shop

end Scenario

def Member.visible (m : Member) : Member := { m with session := m.session.visible }

namespace Commons

inductive Reply where
  | hand (response : Scenario.PoolResponse)
  | created (answer : Except Error Unit)
  | told (answer : Option Session.Reply)

def reply (c : Commons) : Move → Reply
  | .hand name action => .hand (c.shop.act name action).2.visible
  | .create target data parity settings =>
    .created ((Session.make target data parity settings).map fun _ => ())
  | .receive n position name =>
    match c.present? n, c.shop.get? name with
    | some s, some payload =>
      .told (some ((Section.receive position payload).carry s c.shop.pool).answer)
    | _, _ => .told none
  | .act n e =>
    match c.present? n with
    | some s => .told (if solo e then some (e.carry s c.shop.pool).answer else none)
    | none => .told none
  | .view n position =>
    .told ((c.present? n).map fun s => ((Section.view position).carry s c.shop.pool).answer)
  | .dropView i => .told (c.views[i]?.map fun _ => .done)
  | .close n =>
    match c.present? n with
    | some s =>
      .told (if s.job.isNone then some (Section.free.carry s c.shop.pool).answer else none)
    | none => .told none

def replies : List Move → Commons → List Reply
  | [], _ => []
  | move :: rest, c => c.reply move :: replies rest (c.step move)

/-- All that is seen is the same: sessions, views, the buffers at hand that are not hidden, and
    what the pool handed out and took back. -/
structure Like (hidden : List String) (c d : Commons) : Prop where
  shop : c.shop.Like hidden d.shop
  members : c.members.map Member.visible = d.members.map Member.visible
  views : c.views = d.views

def Move.name? : Move → Option String
  | .hand name _ => some name
  | .receive _ _ name => some name
  | _ => none

inductive Move.Alike (hidden : List String) (c : Commons) : Move → Move → Prop where
  | same {move : Move} (shown : ∀ name ∈ move.name?, name ∉ hidden) : Alike hidden c move move
  | hand {name : String} {a a' : Scenario.PoolAction} (secret : name ∈ hidden)
      (alike : a.Alike a') : Alike hidden c (.hand name a) (.hand name a')
  | refused {n position : Nat} {name : String} (secret : name ∈ hidden)
      (refuses : ∀ s, c.present? n = some s → s.Refuses position) :
      Alike hidden c (.receive n position name) (.receive n position name)

/-- Two runs that differ at most in payloads that are not taken. -/
inductive Twins (hidden : List String) : Commons → List Move → List Move → Prop where
  | nil {c : Commons} : Twins hidden c [] []
  | cons {c : Commons} {move move' : Move} {rest rest' : List Move}
      (first : move.Alike hidden c move') (others : Twins hidden (c.step move) rest rest') :
      Twins hidden c (move :: rest) (move' :: rest')

namespace Like
variable {hidden : List String} {c d : Commons} {n : Nat}

theorem fresh (settings : PoolSettings) :
    (Commons.fresh settings).Like hidden (Commons.fresh settings) :=
  ⟨⟨.refl (.make settings), rfl⟩, rfl, rfl⟩

theorem member (like : c.Like hidden d) (n : Nat) :
    (c.members[n]? = none ∧ d.members[n]? = none) ∨
      ∃ m m', c.members[n]? = some m ∧ d.members[n]? = some m' ∧ m.visible = m'.visible := by
  have seen := congrArg (·[n]?) like.members
  simp only [List.getElem?_map] at seen
  exact found_alike seen

theorem present? (like : c.Like hidden d) (n : Nat) :
    (c.present? n = none ∧ d.present? n = none) ∨
      ∃ s t, c.present? n = some s ∧ d.present? n = some t ∧ s.visible = t.visible := by
  unfold Commons.present?
  rcases like.member n with ⟨first, second⟩ | ⟨m, m', first, second, same⟩
  · rw [first, second]
    exact .inl ⟨rfl, rfl⟩
  · rw [first, second]
    have present : m.present = m'.present := congrArg (·.present) same
    have session : m.session.visible = m'.session.visible := congrArg (·.session) same
    simp only [← present]
    split
    · exact .inr ⟨_, _, rfl, rfl, session⟩
    · exact .inl ⟨rfl, rfl⟩

theorem used (like : c.Like hidden d) {e e' : Section} {s t : Session}
    (done : (e.carry s c.shop.pool).Like (e'.carry t d.shop.pool)) (n : Nat) (present : Bool)
    {views : List Nat} :
    Like hidden
      ⟨⟨(e.step s c.shop.pool).pool, c.shop.kept⟩,
        c.members.set n ⟨(e.step s c.shop.pool).session, present⟩, views⟩
      ⟨⟨(e'.step t d.shop.pool).pool, d.shop.kept⟩,
        d.members.set n ⟨(e'.step t d.shop.pool).session, present⟩, views⟩ := by
  refine ⟨⟨done.pool, like.shop.kept⟩, ?_, rfl⟩
  have session : (e.step s c.shop.pool).session.visible =
      (e'.step t d.shop.pool).session.visible := done.session
  rw [List.map_set, List.map_set, like.members]
  simp only [Member.visible, session]

theorem use (like : c.Like hidden d) {e e' : Section} {m m' : Member}
    (found : c.members[n]? = some m) (found' : d.members[n]? = some m')
    (present : m.present = m'.present)
    (done : (e.carry m.session c.shop.pool).Like (e'.carry m'.session d.shop.pool)) :
    (c.use n e).Like hidden (d.use n e') := by
  simp only [Commons.use, found, found', like.views, ← present]
  exact like.used done n m.present

theorem create (like : c.Like hidden d) (target : Target) (data parity : Nat)
    (settings : Settings) :
    (c.step (.create target data parity settings)).Like hidden
      (d.step (.create target data parity settings)) := by
  simp only [step]
  split
  · exact ⟨like.shop, by rw [List.map_append, List.map_append, like.members], like.views⟩
  · exact like

theorem receive (like : c.Like hidden d) {n position : Nat} {name : String}
    (payload : ∀ s b b', c.present? n = some s →
      b.under hidden name = Buffer.under hidden name b' → s.Exchangeable position b b') :
    (c.step (.receive n position name)).Like hidden (d.step (.receive n position name)) ∧
      c.reply (.receive n position name) = d.reply (.receive n position name) := by
  simp only [step, reply]
  rcases like.present? n with ⟨first, second⟩ | ⟨s, t, first, second, same⟩
  · rw [first, second]
    exact ⟨like, rfl⟩
  · rw [first, second]
    rcases like.shop.get? name with ⟨gone, gone'⟩ | ⟨b, b', found, found', alike⟩
    · rw [gone, gone']
      exact ⟨like, rfl⟩
    · rw [found, found']
      have taken : Like hidden { c with shop := c.shop.forget name }
          { d with shop := d.shop.forget name } :=
        ⟨like.shop.forget name, like.members, like.views⟩
      have done := (Session.receive_like same like.shop.pool (payload s b b' first alike)).map
        Session.Reply.reported
      exact ⟨taken.use (present?_some first) (present?_some second) rfl done,
        congrArg (fun r => Reply.told (some r)) done.answer⟩

theorem act (like : c.Like hidden d) (n : Nat) (e : Section) :
    (c.step (.act n e)).Like hidden (d.step (.act n e)) ∧
      c.reply (.act n e) = d.reply (.act n e) := by
  simp only [step, reply]
  rcases like.present? n with ⟨first, second⟩ | ⟨s, t, first, second, same⟩
  · rw [first, second]
    exact ⟨like, rfl⟩
  · rw [first, second]
    cases alone : solo e with
    | false => exact ⟨like, rfl⟩
    | true =>
      have plain : e.plain = true := by cases e <;> simp [solo, Section.plain] at alone ⊢
      have done := Session.carry_like plain same like.shop.pool
      exact ⟨like.use (present?_some first) (present?_some second) rfl done,
        congrArg (fun r => Reply.told (some r)) done.answer⟩

theorem view (like : c.Like hidden d) (n position : Nat) :
    (c.step (.view n position)).Like hidden (d.step (.view n position)) ∧
      c.reply (.view n position) = d.reply (.view n position) := by
  simp only [step, reply]
  rcases like.present? n with ⟨first, second⟩ | ⟨s, t, first, second, same⟩
  · rw [first, second]
    exact ⟨like, rfl⟩
  · rw [first, second]
    have done := Session.carry_like (e := .view position) rfl same like.shop.pool
    have used := like.use (present?_some first) (present?_some second) rfl done
    refine ⟨?_, congrArg (fun r => Reply.told (some r)) done.answer⟩
    have bytes : (s.view position).2.map (·.bytes) = (t.view position).2.map (·.bytes) :=
      Session.Reply.viewed.inj done.answer
    rcases told_alike bytes with ⟨e, error, error'⟩ | ⟨b, b', shown, shown', -⟩
    · simp only [error, error']
      exact used
    · simp only [shown, shown']
      exact ⟨used.shop, used.members, by rw [like.views]⟩

theorem dropView (like : c.Like hidden d) (i : Nat) :
    (c.step (.dropView i)).Like hidden (d.step (.dropView i)) ∧
      c.reply (.dropView i) = d.reply (.dropView i) := by
  simp only [step, reply, ← like.views]
  cases c.views[i]? with
  | none => exact ⟨like, trivial⟩
  | some n =>
    have used : (c.use n .dropView).Like hidden (d.use n .dropView) := by
      rcases like.member n with ⟨first, second⟩ | ⟨m, m', first, second, same⟩
      · simp only [Commons.use, first, second]
        exact like
      · have session : m.session.visible = m'.session.visible := congrArg (·.session) same
        exact like.use first second (congrArg (·.present) same)
          (Session.carry_like rfl session like.shop.pool)
    exact ⟨⟨used.shop, used.members, rfl⟩, trivial⟩

theorem close (like : c.Like hidden d) (n : Nat) :
    (c.step (.close n)).Like hidden (d.step (.close n)) ∧
      c.reply (.close n) = d.reply (.close n) := by
  simp only [step, reply]
  rcases like.present? n with ⟨first, second⟩ | ⟨s, t, first, second, same⟩
  · rw [first, second]
    exact ⟨like, rfl⟩
  · rw [first, second]
    have idle : s.job.isNone = t.job.isNone := by
      have jobs := congrArg (·.job.isNone) same
      simpa [Session.visible] using jobs
    have done := Session.carry_like (e := .free) rfl same like.shop.pool
    simp only [← idle, like.views]
    split
    · exact ⟨like.used done n false, congrArg (fun r => Reply.told (some r)) done.answer⟩
    · exact ⟨like, rfl⟩

theorem step (like : c.Like hidden d) {move move' : Move} (alike : move.Alike hidden c move') :
    (c.step move).Like hidden (d.step move') ∧ c.reply move = d.reply move' := by
  cases alike with
  | hand secret alike =>
    obtain ⟨shop, answer⟩ := like.shop.act_hidden secret alike
    exact ⟨⟨shop, like.members, like.views⟩,
      congrArg (fun r => Reply.hand (Scenario.PoolResponse.visible r)) answer⟩
  | refused secret refuses =>
    exact like.receive fun s b b' has same => .inr ⟨refuses s has, Buffer.pooled_of_under same⟩
  | same shown =>
    cases move with
    | hand name action =>
      obtain ⟨shop, answer⟩ := like.shop.act_shown (shown name rfl) action
      exact ⟨⟨shop, like.members, like.views⟩, congrArg Reply.hand answer⟩
    | create target data parity settings => exact ⟨like.create target data parity settings, rfl⟩
    | receive n position name =>
      exact like.receive fun s b b' _ same => .inl (Buffer.visible_of_under (shown name rfl) same)
    | act n e => exact like.act n e
    | view n position => exact like.view n position
    | dropView i => exact like.dropView i
    | close n => exact like.close n

theorem play (like : c.Like hidden d) {moves moves' : List Move}
    (twins : Twins hidden c moves moves') :
    (Commons.play moves c).Like hidden (Commons.play moves' d) ∧
      replies moves c = replies moves' d := by
  induction twins generalizing d with
  | nil => exact ⟨like, rfl⟩
  | cons first others ih =>
    obtain ⟨moved, answer⟩ := like.step first
    obtain ⟨played, answers⟩ := ih moved
    exact ⟨played, by rw [replies, replies, answer, answers]⟩

end Like

end Commons

/-- Payloads that no session takes are never seen again. Two runs that differ in such payloads
    alone get the same answers, notices and chunks, ask the codec the same, and look the same after
    it all; the pools differ at most in what lies idle, and in how often it was of use. So do two
    sessions at work, given that callbacks, reads and the codec go by what they see. -/
theorem rejected_payloads_unseen :
    (∀ (settings : PoolSettings) (hidden : List String) (moves moves' : List Commons.Move),
      Commons.Twins hidden (.fresh settings) moves moves' →
        Commons.replies moves (.fresh settings) = Commons.replies moves' (.fresh settings) ∧
          (Commons.play moves (.fresh settings)).Like hidden
            (Commons.play moves' (.fresh settings))) ∧
    ∀ {ω : Type} (out : Outside ω) (R : ω → ω → Prop), out.Discreet R →
      ∀ (w v : World ω) (ops ops' : List World.Operation), w.Like R v →
        World.Twins out w ops ops' →
          World.replies out ops w = World.replies out ops' v ∧
            (World.performAll out ops w).Like R (World.performAll out ops' v) := by
  constructor
  · intro settings hidden moves moves' twins
    obtain ⟨played, answers⟩ := (Commons.Like.fresh settings).play twins
    exact ⟨answers, played⟩
  · intro ω out R discreet w v ops ops' like twins
    obtain ⟨performed, answers⟩ := World.performAll_like discreet like twins
    exact ⟨answers, performed⟩

/-- A late payload goes back to the pool, which in one of two runs has the decode work in its
    storage. Both serve the same chunk. At work, it is a stale chunk that goes back. -/
theorem rejected_payloads_unseen_recycled :
    let target : Target := ⟨"vol:file", 42, ⟨1, 1, 1, 0⟩, .empty, ⟨[]⟩⟩
    let attempt : Attempt RepairCount := ⟨[[7], [7]], .ok ⟨0, 1⟩⟩
    let moves := fun late : Scenario.PoolAction => ([.create target 1 1 .standard,
      .hand "first" (.adopt [7] 1), .hand "late" late, .receive 0 0 "first", .receive 0 0 "late",
      .act 0 (.beginDecode true), .act 0 (.finishDecode attempt), .view 0 1] : List Commons.Move)
    let start := Commons.fresh .standard
    let now := Commons.play (moves (.adopt [9] 8192)) start
    let other := Commons.play (moves (.adopt [1, 2, 3] 3)) start
    let out : Outside Unit :=
      { notify := fun _ w => w
        send := fun _ _ _ w => (w, none)
        repair := fun _ w => (w, attempt) }
    let s : Session := ⟨target, none, .pending, .make target.layout 42, 0, 0, none, none⟩
    let given := (Pool.make .standard).adopt [7] 1
    let w : World Unit := ⟨s, (given.1.adopt [9] 8192).1, [], [], ()⟩
    let ops := fun stale : Buffer => ([.deliver 0 1 (.stale stale), .deliver 0 0 (.payload given.2),
      .decode true, .view 1] : List World.Operation)
    let after := World.performAll out (ops (given.1.adopt [9] 8192).2) w
    let after' := World.performAll out (ops (given.1.adopt [1, 2, 3] 3).2) w
    (now.shop.pool.counts.hits = 1 ∧ other.shop.pool.counts.hits = 0 ∧
      Commons.replies (moves (.adopt [9] 8192)) start =
        Commons.replies (moves (.adopt [1, 2, 3] 3)) start ∧
      now.Like ["late"] other ∧
      ((now.present? 0).bind fun s => (s.view 1).2.toOption).map (·.bytes) = some [7]) ∧
    after.pool.counts.hits = 1 ∧ after'.pool.counts.hits = 0 ∧
      after.Like (fun _ _ => True) after' := by
  intro target attempt moves start now other out s given w ops after after'
  constructor
  · have secret : "late" ∈ ["late"] := List.mem_singleton.mpr rfl
    have decided : ((Commons.play ((moves (.adopt [9] 8192)).take 4) start).present? 0).map
        (·.phase) = some .completed := by decide +kernel
    have twins : Commons.Twins ["late"] start (moves (.adopt [9] 8192))
        (moves (.adopt [1, 2, 3] 3)) := by
      refine .cons (.same (by decide)) (.cons (.same (by decide)) (.cons (.hand secret
        (.adopt _ _ _ _)) (.cons (.same (by decide)) (.cons (.refused secret ?_) (.cons
        (.same (by decide)) (.cons (.same (by decide)) (.cons (.same (by decide)) .nil)))))))
      intro s has pending
      have completed : ((Commons.play ((moves (.adopt [9] 8192)).take 4) start).present? 0).map
        (·.phase) = some s.phase := congrArg (Option.map (·.phase)) has
      rw [decided, pending] at completed
      simp at completed
    obtain ⟨replies, looks⟩ := rejected_payloads_unseen.1 .standard ["late"] _ _ twins
    have recycled : now.shop.pool.counts.hits = 1 := by decide +kernel
    have unused : other.shop.pool.counts.hits = 0 := by decide +kernel
    have served : ((now.present? 0).bind fun s => (s.view 1).2.toOption).map (·.bytes) =
        some [7] := by decide +kernel
    exact ⟨recycled, unused, replies, looks, served⟩
  · have discreet : out.Discreet fun _ _ => True :=
      ⟨fun _ _ _ like => like, fun _ _ _ _ _ like => ⟨like, rfl⟩, fun _ _ _ like => ⟨like, rfl⟩⟩
    have shelved : w.pool.Shelved := .make .standard
    have like : w.Like (fun _ _ => True) w := ⟨rfl, .refl shelved, rfl, rfl, trivial⟩
    have twins : World.Twins out w (ops (given.1.adopt [9] 8192).2)
        (ops (given.1.adopt [1, 2, 3] 3).2) :=
      .cons (.delivered (.stale rfl)) (.cons (.delivered (.payload (.inl rfl)))
        (.cons (.same rfl) (.cons (.same rfl) .nil)))
    obtain ⟨_, looks⟩ := rejected_payloads_unseen.2 out _ discreet w w _ _ like twins
    exact ⟨by decide +kernel, by decide +kernel, looks⟩

end StripeRecovery
