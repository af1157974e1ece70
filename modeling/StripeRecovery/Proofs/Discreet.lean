import StripeRecovery.Proofs.Operations
import StripeRecovery.Proofs.Recording
import StripeRecovery.Proofs.Replies

/-!
Two sessions at work, side by side. Given that callbacks, reads and the codec go by what they
are shown, so does every operation.
-/
namespace StripeRecovery

variable {ω : Type}

/-- Two worlds that look the same; what lies outside of their sessions is related by `R`. -/
structure World.Like (R : ω → ω → Prop) (w v : World ω) : Prop where
  session : w.session.visible = v.session.visible
  pool : w.pool.Like v.pool
  tallies : w.tallies = v.tallies
  notices : w.notices = v.notices
  aside : R w.aside v.aside

/-- In worlds that look the same, the outside does and answers the same. -/
structure Outside.Discreet (out : Outside ω) (R : ω → ω → Prop) : Prop where
  notify : ∀ n (w v : World ω), w.Like R v → (out.notify n w).Like R (out.notify n v)
  send : ∀ start route request (w v : World ω), w.Like R v →
    (out.send start route request w).1.Like R (out.send start route request v).1 ∧
      (out.send start route request w).2 = (out.send start route request v).2
  repair : ∀ call (w v : World ω), w.Like R v →
    (out.repair call w).1.Like R (out.repair call v).1 ∧
      (out.repair call w).2 = (out.repair call v).2

inductive Answer.Exchangeable (s : Session) (position : Nat) : Answer → Answer → Prop where
  | payload {b c : Buffer} (same : s.Exchangeable position b c) :
      Exchangeable s position (.payload b) (.payload c)
  | stale {b c : Buffer} (pooled : b.pooled = c.pooled) :
      Exchangeable s position (.stale b) (.stale c)
  | failure (e : Error) : Exchangeable s position (.failure e) (.failure e)

namespace World

inductive Reply where
  | started (number : Nat)
  | reported (outcome : Effect)
  | marked (answer : Except Error Unit)
  | freed (buffers : Nat)
  | decoded (answer : Except Error Bool)
  | viewed (answer : Except Error (List UInt8))
  | done

def reply (out : Outside ω) (w : World ω) : Operation → Reply
  | .start => .started (w.start out).2
  | .deliver start position answer => .reported (w.deliver out start position answer).2
  | .receive position payload => .reported (w.receive out position payload).2
  | .fail position => .reported (w.fail out position).2
  | .external position => .marked (w.external position).2
  | .abort => .done
  | .free => .freed w.free.2
  | .decode recreate => .decoded (w.decode out recreate).2
  | .view position => .viewed ((w.view position).2.map (·.bytes))
  | .dropView => .done

def replies (out : Outside ω) : List Operation → World ω → List Reply
  | [], _ => []
  | op :: rest, w => w.reply out op :: replies out rest (w.perform out op)

def Operation.plain : Operation → Bool
  | .receive .. | .deliver .. => false
  | _ => true

/-- Two operations that a session cannot tell apart. -/
inductive Operation.Exchangeable (s : Session) : Operation → Operation → Prop where
  | same {op : Operation} (plain : op.plain = true) : Exchangeable s op op
  | received {position : Nat} {b c : Buffer} (payload : s.Exchangeable position b c) :
      Exchangeable s (.receive position b) (.receive position c)
  | delivered {start position : Nat} {a a' : Answer}
      (answers : a.Exchangeable s position a') :
      Exchangeable s (.deliver start position a) (.deliver start position a')

inductive Twins (out : Outside ω) : World ω → List Operation → List Operation → Prop where
  | nil {w : World ω} : Twins out w [] []
  | cons {w : World ω} {op op' : Operation} {rest rest' : List Operation}
      (first : op.Exchangeable w.session op') (others : Twins out (w.perform out op) rest rest') :
      Twins out w (op :: rest) (op' :: rest')

variable {R : ω → ω → Prop} {w v : World ω}

namespace Like

theorem run {α : Type} {f g : Session → Pool → Step α} (like : w.Like R v)
    (same : (f w.session w.pool).Like (g v.session v.pool)) :
    (w.run f).1.Like R (v.run g).1 ∧ (w.run f).2 = (v.run g).2 :=
  ⟨⟨same.session, same.pool, like.tallies, like.notices, like.aside⟩, same.answer⟩

theorem run_same {α : Type} {f : Session → Pool → Step α}
    (seen : ∀ s p q, p.Like q → (f s p).Like (f s.visible q)) (like : w.Like R v) :
    (w.run f).1.Like R (v.run f).1 ∧ (w.run f).2 = (v.run f).2 :=
  like.run (w.session.like_of_visible seen like.session like.pool)

theorem account (like : w.Like R v) (start : Nat) (f : Tally → Tally) :
    (w.account start f).Like R (v.account start f) :=
  ⟨like.session, like.pool, congrArg (·.modify start f) like.tallies, like.notices, like.aside⟩

theorem respond (like : w.Like R v) (start : Nat) : (w.respond start).Like R (v.respond start) :=
  (like.account start _).account start _

theorem release (like : w.Like R v) {b c : Buffer} (same : b.pooled = c.pooled) :
    ({ w with pool := w.pool.release b } : World ω).Like R { v with pool := v.pool.release c } :=
  ⟨like.session, like.pool.release same, like.tallies, like.notices, like.aside⟩

theorem wantsRepair (like : w.Like R v) : w.session.wantsRepair = v.session.wantsRepair := by
  have seen : w.session.visible.wantsRepair = v.session.visible.wantsRepair := by rw [like.session]
  exact seen

theorem requestFor (like : w.Like R v) (position : Nat) :
    requestFor w.session position = requestFor v.session position := by
  have seen : World.requestFor w.session.visible position =
      World.requestFor v.session.visible position := by rw [like.session]
  exact seen

theorem routeOf (like : w.Like R v) (position : Nat) :
    w.session.routeOf position = v.session.routeOf position := by
  have seen : w.session.visible.routeOf position = v.session.visible.routeOf position := by
    rw [like.session]
  exact seen

end Like

theorem external_like (like : w.Like R v) (position : Nat) :
    (w.external position).1.Like R (v.external position).1 ∧
      (w.external position).2 = (v.external position).2 := by
  have same := congrArg (Session.external · position) like.session
  simp only [Session.external_visible] at same
  simp only [external]
  rcases told_alike same with ⟨e, first, second⟩ | ⟨s, t, first, second, session⟩
  · rw [first, second]
    exact ⟨like, rfl⟩
  · rw [first, second]
    exact ⟨⟨session, like.pool, like.tallies, like.notices, like.aside⟩, rfl⟩

theorem view_like (like : w.Like R v) (position : Nat) :
    (w.view position).1.Like R (v.view position).1 ∧
      (w.view position).2.map (·.bytes) = (v.view position).2.map (·.bytes) := by
  have same := congrArg (Session.view · position) like.session
  simp only [Session.view_visible, Prod.mk.injEq] at same
  obtain ⟨session, seen⟩ := same
  refine ⟨⟨session, like.pool, like.tallies, like.notices, like.aside⟩, ?_⟩
  have bytes := congrArg (Except.map fun b : Buffer => b.bytes) seen
  rwa [Buffer.bytes_of_visible, Buffer.bytes_of_visible] at bytes

variable {out : Outside ω} (discreet : out.Discreet R) (like : w.Like R v)
include discreet like

theorem raise_like (n : Notice) : (w.raise out n).Like R (v.raise out n) :=
  discreet.notify n _ _
    ⟨like.session, like.pool, like.tallies, congrArg (· ++ [n]) like.notices, like.aside⟩

theorem raise?_like (n : Option Notice) : (w.raise? out n).Like R (v.raise? out n) := by
  cases n with
  | none => exact like
  | some n => exact raise_like discreet like n

theorem fail_like (position : Nat) :
    (w.fail out position).1.Like R (v.fail out position).1 ∧
      (w.fail out position).2 = (v.fail out position).2 := by
  obtain ⟨like', verdict⟩ := like.run_same (f := fun s pool => s.fail pool position)
    fun s _ _ pools => s.fail_visible position pools
  simp only [fail, verdict]
  exact ⟨raise?_like discreet like' _, trivial⟩

theorem receive_like {position : Nat} {b c : Buffer}
    (payload : w.session.Exchangeable position b c) :
    (w.receive out position b).1.Like R (v.receive out position c).1 ∧
      (w.receive out position b).2 = (v.receive out position c).2 := by
  obtain ⟨like', verdict⟩ := like.run (f := fun s pool => s.receive pool position b)
    (g := fun s pool => s.receive pool position c)
    (Session.receive_like like.session like.pool payload)
  simp only [receive, verdict]
  exact ⟨raise?_like discreet like' _, trivial⟩

theorem decode_like (recreate : Bool) :
    (w.decode out recreate).1.Like R (v.decode out recreate).1 ∧
      (w.decode out recreate).2 = (v.decode out recreate).2 := by
  obtain ⟨begun, answer⟩ := like.run_same (f := fun s pool => s.beginDecode pool recreate)
    fun s _ _ pools => s.beginDecode_visible recreate pools
  simp only [decode]
  generalize (w.run fun s pool => s.beginDecode pool recreate) = first at begun answer
  generalize (v.run fun s pool => s.beginDecode pool recreate) = second at begun answer
  obtain ⟨w', turn⟩ := first
  obtain ⟨v', turn'⟩ := second
  obtain rfl : turn = turn' := answer
  cases turn with
  | inl answer => exact ⟨begun, rfl⟩
  | inr call =>
    obtain ⟨worked, attempt⟩ := discreet.repair call w' v' begun
    simp only [attempt]
    exact worked.run_same fun s _ _ pools => s.finishDecode_visible _ pools

theorem deliver_like (start position : Nat) {a a' : Answer}
    (answers : Answer.Exchangeable w.session position a a') :
    (w.deliver out start position a).1.Like R (v.deliver out start position a').1 ∧
      (w.deliver out start position a).2 = (v.deliver out start position a').2 := by
  cases answers with
  | payload same =>
    obtain ⟨received, outcome⟩ := receive_like discreet like same
    exact ⟨received.respond start, outcome⟩
  | failure e =>
    obtain ⟨failed, outcome⟩ := fail_like discreet (like.account start Tally.error) position
    exact ⟨failed.respond start, outcome⟩
  | @stale b c pooled =>
    have dropped := like.release pooled
    have told := raise_like discreet dropped (.repair position)
    have wanted := dropped.wantsRepair
    simp only [deliver, wanted]
    split
    · obtain ⟨failed, outcome⟩ := fail_like discreet told position
      exact ⟨failed.respond start, outcome⟩
    · obtain ⟨failed, outcome⟩ := fail_like discreet dropped position
      exact ⟨failed.respond start, outcome⟩

theorem sendRead_like (start position : Nat) :
    (w.sendRead out start position).1.Like R (v.sendRead out start position).1 ∧
      (w.sendRead out start position).2 = (v.sendRead out start position).2 := by
  rw [sendRead_eq, sendRead_eq, like.requestFor, like.routeOf]
  split
  · exact ⟨like, rfl⟩
  · exact ⟨like, rfl⟩
  · exact discreet.send start _ _ w v like

theorem sendReads_like (start : Nat) (positions : List Nat) :
    (w.sendReads out start positions).Like R (v.sendReads out start positions) := by
  induction positions generalizing w v with
  | nil => exact like
  | cons position rest ih =>
    obtain ⟨sent, answer⟩ := sendRead_like discreet like start position
    simp only [sendReads]
    generalize w.sendRead out start position = first at sent answer
    generalize v.sendRead out start position = second at sent answer
    obtain ⟨w', fault⟩ := first
    obtain ⟨v', fault'⟩ := second
    obtain rfl : fault = fault' := answer
    cases fault with
    | none => exact ih sent
    | some e =>
      obtain ⟨refused, outcome⟩ := deliver_like discreet (sent.account start Tally.quickFail) start
        position (.failure e)
      simp only [outcome]
      split
      · exact (refused.account start _).account start _
      · exact ih refused

theorem start_like :
    (w.start out).1.Like R (v.start out).1 ∧ (w.start out).2 = (v.start out).2 := by
  have request : w.session.request.1.visible = v.session.request.1.visible ∧
      w.session.request.2 = v.session.request.2 := by
    have first := w.session.request_visible
    rw [like.session, v.session.request_visible] at first
    exact ⟨(congrArg Prod.fst first).symm, (congrArg Prod.snd first).symm⟩
  obtain ⟨session, positions⟩ := request
  have tallies : w.requested.1.tallies = v.requested.1.tallies := by
    simp only [requested, positions, like.tallies]
  have opened : w.requested.1.Like R v.requested.1 :=
    ⟨session, like.pool, tallies, like.notices, like.aside⟩
  have sent := sendReads_like discreet opened w.tallies.length w.session.request.2
  rw [positions, like.tallies] at sent
  refine ⟨?_, congrArg List.length like.tallies⟩
  simp only [start, positions, like.tallies]
  simpa only [requested, positions, like.tallies] using sent

theorem perform_like {op op' : Operation}
    (ops : op.Exchangeable w.session op') :
    (w.perform out op).Like R (v.perform out op') ∧ w.reply out op = v.reply out op' := by
  cases ops with
  | received payload =>
    obtain ⟨received, outcome⟩ := receive_like discreet like payload
    exact ⟨received, congrArg Reply.reported outcome⟩
  | delivered answers =>
    obtain ⟨delivered, outcome⟩ := deliver_like discreet like _ _ answers
    exact ⟨delivered, congrArg Reply.reported outcome⟩
  | same plain =>
    cases op with
    | start =>
      obtain ⟨started, number⟩ := start_like discreet like
      exact ⟨started, congrArg Reply.started number⟩
    | deliver start position answer => simp [Operation.plain] at plain
    | receive position payload => simp [Operation.plain] at plain
    | fail position =>
      obtain ⟨failed, outcome⟩ := fail_like discreet like position
      exact ⟨failed, congrArg Reply.reported outcome⟩
    | external position =>
      obtain ⟨marked, answer⟩ := external_like like position
      exact ⟨marked, congrArg Reply.marked answer⟩
    | abort => exact ⟨(like.run_same fun s _ _ pools => s.abort_visible pools).1, rfl⟩
    | free =>
      obtain ⟨freed, count⟩ := like.run_same fun s _ _ pools => s.free_visible pools
      exact ⟨freed, congrArg Reply.freed count⟩
    | decode recreate =>
      obtain ⟨decoded, answer⟩ := decode_like discreet like recreate
      exact ⟨decoded, congrArg Reply.decoded answer⟩
    | view position =>
      obtain ⟨viewed, bytes⟩ := view_like like position
      exact ⟨viewed, congrArg Reply.viewed bytes⟩
    | dropView => exact ⟨(like.run_same fun s _ _ pools => s.dropView_visible pools).1, rfl⟩

theorem performAll_like {ops ops' : List Operation} (twins : Twins out w ops ops') :
    (performAll out ops w).Like R (performAll out ops' v) ∧
      replies out ops w = replies out ops' v := by
  induction twins generalizing v with
  | nil => exact ⟨like, rfl⟩
  | cons first others ih =>
    obtain ⟨performed, answer⟩ := perform_like discreet like first
    obtain ⟨likes, answers⟩ := ih performed
    exact ⟨likes, by rw [replies, replies, answer, answers]⟩

end World
end StripeRecovery
