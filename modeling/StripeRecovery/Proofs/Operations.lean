import StripeRecovery.Recovery
import StripeRecovery.Proofs.Changes

/-!
An operation of a session at work is a few sections of its own, between which the outside
has its turn. The outside may be anything that touches the session by sections alone; so a
run of operations is a run of sections, in which those of the operations come in order.
-/
namespace StripeRecovery
open Session (Section)

/-- The sections of `own` in their order, with allowed ones of others in between. -/
inductive Woven (allowed : Section → Prop) : List Section → List Section → Prop where
  | nil : Woven allowed [] []
  | own {e : Section} {own whole : List Section} :
      Woven allowed own whole → Woven allowed (e :: own) (e :: whole)
  | other {e : Section} {own whole : List Section} :
      allowed e → Woven allowed own whole → Woven allowed own (e :: whole)

variable {allowed : Section → Prop}

theorem Woven.append {own own' whole whole' : List Section} (first : Woven allowed own whole)
    (second : Woven allowed own' whole') : Woven allowed (own ++ own') (whole ++ whole') := by
  induction first with
  | nil => exact second
  | own _ ih => exact .own ih
  | other may _ ih => exact .other may ih

theorem Woven.of_others {others : List Section} (may : ∀ e ∈ others, allowed e) :
    Woven allowed [] others := by
  induction others with
  | nil => exact .nil
  | cons e rest ih => exact .other (may e (by simp)) (ih fun d there => may d (by simp [there]))

theorem Woven.all {own whole : List Section} {good : Section → Prop}
    (woven : Woven allowed own whole)
    (others : ∀ e, allowed e → good e) (owns : ∀ e ∈ own, good e) : ∀ e ∈ whole, good e := by
  induction woven with
  | nil => simp
  | own _ ih =>
    intro d there
    rcases List.mem_cons.mp there with rfl | there
    · exact owns d (by simp)
    · exact ih (fun e member => owns e (by simp [member])) d there
  | other may _ ih =>
    intro d there
    rcases List.mem_cons.mp there with rfl | there
    · exact others d may
    · exact ih owns d there

variable {ω : Type}

/-- One world comes from another by a run of sections; the notices due were all recorded. -/
structure World.Evolves (w : World ω) (history : List Section) (after : World ω) : Prop where
  session : after.session = (Session.play history w.session w.pool).session
  pool : after.pool = (Session.play history w.session w.pool).pool
  notices : after.notices = w.notices ++ (Session.play history w.session w.pool).answer

/-- The outside touches the session by allowed sections alone, whenever it is called while the
    session is in a state of `P`. -/
structure Outside.Confined (out : Outside ω) (P : Session → Prop) (allowed : Section → Prop) :
    Prop where
  notify : ∀ n (w : World ω), P w.session →
    ∃ history, (∀ e ∈ history, allowed e) ∧ w.Evolves history (out.notify n w)
  send : ∀ start route request (w : World ω), P w.session →
    ∃ history, (∀ e ∈ history, allowed e) ∧ w.Evolves history (out.send start route request w).1
  repair : ∀ call (w : World ω), P w.session →
    ∃ history, (∀ e ∈ history, allowed e) ∧ w.Evolves history (out.repair call w).1

namespace World

theorem Evolves.refl (w : World ω) : w.Evolves [] w :=
  ⟨rfl, rfl, (List.append_nil _).symm⟩

theorem Evolves.trans {w v u : World ω} {before after : List Section} (first : w.Evolves before v)
    (second : v.Evolves after u) : w.Evolves (before ++ after) u := by
  refine ⟨?_, ?_, ?_⟩
  · rw [second.session, first.session, first.pool, Session.play_append]
  · rw [second.pool, first.session, first.pool, Session.play_append]
  · rw [second.notices, first.notices, first.session, first.pool, Session.play_append,
      List.append_assoc]

theorem Evolves.one {w after : World ω} (e : Section)
    (session : after.session = (e.step w.session w.pool).session)
    (pool : after.pool = (e.step w.session w.pool).pool)
    (notices : after.notices = w.notices ++ (e.step w.session w.pool).answer) :
    w.Evolves [e] after :=
  ⟨session, pool, by simpa [Session.play] using notices⟩

def Kept (P : Session → Prop) : Prop := ∀ (e : Section) s pool, P s → P (e.step s pool).session

variable {P : Session → Prop}

theorem Evolves.keeps {w after : World ω} {history : List Section}
    (evolves : w.Evolves history after)
    (kept : Kept P) (holds : P w.session) : P after.session := by
  rw [evolves.session]
  exact Session.play_keeps kept history holds w.pool

theorem Evolves.target {w after : World ω} {history : List Section}
    (evolves : w.Evolves history after) : after.session.target = w.session.target := by
  rw [evolves.session, Session.play_target]

/-- One world comes from another by own sections in their order, with allowed ones of others
    in between. -/
def Works (allowed : Section → Prop) (w : World ω) (own : List Section) (after : World ω) : Prop :=
  ∃ history, Woven allowed own history ∧ w.Evolves history after

theorem Works.aside {w after : World ω} (session : after.session = w.session)
    (pool : after.pool = w.pool) (notices : after.notices = w.notices) :
    Works allowed w [] after :=
  ⟨[], .nil, session, pool, notices.trans (List.append_nil _).symm⟩

theorem Works.one {w after : World ω} (e : Section)
    (session : after.session = (e.step w.session w.pool).session)
    (pool : after.pool = (e.step w.session w.pool).pool)
    (notices : after.notices = w.notices ++ (e.step w.session w.pool).answer) :
    Works allowed w [e] after :=
  ⟨[e], .own .nil, .one e session pool notices⟩

theorem Works.trans {w v u : World ω} {own own' : List Section} (first : Works allowed w own v)
    (second : Works allowed v own' u) : Works allowed w (own ++ own') u := by
  obtain ⟨before, woven, evolves⟩ := first
  obtain ⟨after, woven', evolves'⟩ := second
  exact ⟨before ++ after, woven.append woven', evolves.trans evolves'⟩

theorem Works.outside {w after : World ω}
    (others : ∃ history, (∀ e ∈ history, allowed e) ∧ w.Evolves history after) :
    Works allowed w [] after := by
  obtain ⟨history, may, evolves⟩ := others
  exact ⟨history, .of_others may, evolves⟩

theorem Works.keeps {w after : World ω} {own : List Section} (works : Works allowed w own after)
    (kept : Kept P) (holds : P w.session) : P after.session := by
  obtain ⟨history, _, evolves⟩ := works
  exact evolves.keeps kept holds

variable {out : Outside ω} (confined : out.Confined P allowed) (kept : Kept P)

/-- The sections of a decode: the second one is due only if this decode has work to do. -/
def decodeSections (out : Outside ω) (recreate : Bool) (w : World ω) : List Section :=
  match w.run fun s pool => s.beginDecode pool recreate with
  | (_, .inl _) => [.beginDecode recreate]
  | (w, .inr call) => [.beginDecode recreate, .finishDecode (out.repair call w).2]

include kept in
theorem decode_works (repair : ∀ call (w : World ω), P w.session →
      ∃ history, (∀ e ∈ history, allowed e) ∧ w.Evolves history (out.repair call w).1)
    (recreate : Bool) {w : World ω} (holds : P w.session) :
    Works allowed w (decodeSections out recreate w) (w.decode out recreate).1 := by
  have first : Works allowed w [.beginDecode recreate]
      (w.run fun s pool => s.beginDecode pool recreate).1 :=
    .one (.beginDecode recreate) rfl rfl (List.append_nil _).symm
  simp only [decodeSections, decode]
  cases begun : w.run fun s pool => s.beginDecode pool recreate with
  | mk v turn =>
    rw [begun] at first
    cases turn with
    | inl answer => exact first
    | inr call =>
      have repaired := Works.outside (repair call v (first.keeps kept holds))
      exact first.trans (repaired.trans (.one (.finishDecode (out.repair call v).2) rfl rfl
        (List.append_nil _).symm))

include confined in
theorem sendRead_works (start position : Nat) {w : World ω} (holds : P w.session) :
    Works allowed w [] (w.sendRead out start position).1 := by
  unfold sendRead
  split
  · exact .aside rfl rfl rfl
  · split
    · exact .outside (confined.send start .local _ w holds)
    · split
      · exact .outside (confined.send start (.peer _) _ w holds)
      · exact .aside rfl rfl rfl

include confined kept

theorem raise?_works {w after : World ω} (holds : P w.session) (e : Section) (n : Option Notice)
    (session : after.session = (e.step w.session w.pool).session)
    (pool : after.pool = (e.step w.session w.pool).pool) (notices : after.notices = w.notices)
    (due : (e.step w.session w.pool).answer = n.toList) :
    Works allowed w [e] (after.raise? out n) := by
  cases n with
  | none => exact .one e session pool (by simp [raise?, notices, due])
  | some n =>
    let told : World ω := { after with notices := after.notices ++ [n] }
    have here : Works allowed w [e] told := .one e session pool (by simp [told, notices, due])
    exact here.trans (.outside (confined.notify n told (here.keeps kept holds)))

theorem fail_works (position : Nat) {w : World ω} (holds : P w.session) :
    Works allowed w [.fail position] (w.fail out position).1 :=
  raise?_works confined kept holds (.fail position) _ rfl rfl rfl rfl

theorem receive_works (position : Nat) (payload : Buffer) {w : World ω} (holds : P w.session) :
    Works allowed w [.receive position payload] (w.receive out position payload).1 :=
  raise?_works confined kept holds (.receive position payload) _ rfl rfl rfl rfl

theorem notice_works (position : Nat) {w : World ω} (holds : P w.session) :
    Works allowed w [.repair position]
      (if w.session.wantsRepair then w.raise out (.repair position) else w) := by
  by_cases wanted : w.session.wantsRepair = true
  · simp only [wanted, ↓reduceIte]
    exact raise?_works confined kept holds (.repair position) (some (.repair position)) rfl rfl rfl
      (by simp [Section.step, wanted])
  · simp only [wanted, Bool.false_eq_true, ↓reduceIte]
    exact .one (.repair position) rfl rfl (by simp [Section.step, wanted])

def answerSections (w : World ω) (position : Nat) : Answer → List Section
  | .payload buffer => [.receive position buffer]
  | .stale buffer => [.elsewhere (w.pool.release buffer), .repair position, .fail position]
  | .failure _ => [.fail position]

theorem deliver_works (start position : Nat) (answer : Answer) {w : World ω} (holds : P w.session) :
    Works allowed w (w.answerSections position answer) (w.deliver out start position answer).1 := by
  cases answer with
  | payload buffer =>
    exact (receive_works confined kept position buffer holds).trans (.aside rfl rfl rfl)
  | failure error =>
    have noted : Works allowed w [] (w.account start Tally.error) := .aside rfl rfl rfl
    have failed := fail_works confined kept position (w := w.account start Tally.error) holds
    exact noted.trans (failed.trans (.aside rfl rfl rfl))
  | stale buffer =>
    let released : World ω := { w with pool := w.pool.release buffer }
    have first : Works allowed w [.elsewhere (w.pool.release buffer)] released :=
      .one _ rfl rfl (List.append_nil _).symm
    have told := notice_works confined kept position (w := released) holds
    have failed := fail_works confined kept position (told.keeps kept holds)
    exact first.trans (told.trans (failed.trans (.aside rfl rfl rfl)))

def unsent (out : Outside ω) (start : Nat) : List Nat → World ω → List Nat
  | [], _ => []
  | position :: rest, w =>
    match w.sendRead out start position with
    | (w, none) => unsent out start rest w
    | (w, some e) =>
      let (w, outcome) := (w.account start Tally.quickFail).deliver out start position (.failure e)
      position :: if outcome.shouldStop then [] else unsent out start rest w

theorem sendReads_works (start : Nat) (positions : List Nat) {w : World ω} (holds : P w.session) :
    Works allowed w ((unsent out start positions w).map .fail)
      (w.sendReads out start positions) := by
  induction positions generalizing w with
  | nil => exact .aside rfl rfl rfl
  | cons position rest ih =>
    have sent := sendRead_works confined start position holds
    simp only [unsent, sendReads]
    cases answer : w.sendRead out start position with
    | mk v refused =>
      rw [answer] at sent
      have still := sent.keeps kept holds
      cases refused with
      | none => exact sent.trans (ih still)
      | some e =>
        have noted : Works allowed v [] (v.account start Tally.quickFail) := .aside rfl rfl rfl
        have failed := deliver_works confined kept start position (.failure e)
          (w := v.account start Tally.quickFail) still
        have last := failed.keeps kept still
        by_cases stop : ((v.account start Tally.quickFail).deliver out start position
            (.failure e)).2.shouldStop = true
        · simp only [stop, ↓reduceIte]
          exact sent.trans (noted.trans (failed.trans (.aside rfl rfl rfl)))
        · simp only [stop, Bool.false_eq_true, ↓reduceIte]
          exact sent.trans (noted.trans (failed.trans (ih last)))

def requested (w : World ω) : World ω × List Nat :=
  ({ w with
      session := w.session.request.1
      tallies := w.tallies ++ [Tally.make w.session.request.2.length] },
    w.session.request.2)

theorem start_works {w : World ω} (holds : P w.session) :
    Works allowed w
      (.request :: (unsent out w.tallies.length w.requested.2 w.requested.1).map .fail)
      (w.start out).1 := by
  have first : Works allowed w [.request] w.requested.1 :=
    .one .request rfl rfl (List.append_nil _).symm
  exact first.trans
    (sendReads_works confined kept w.tallies.length w.requested.2 (first.keeps kept holds))

inductive Operation where
  | start
  | deliver (start position : Nat) (answer : Answer)
  | receive (position : Nat) (payload : Buffer)
  | fail (position : Nat)
  | external (position : Nat)
  | abort
  | free
  | decode (recreate : Bool)
  | view (position : Nat)
  | dropView

def perform (out : Outside ω) (w : World ω) : Operation → World ω
  | .start => (w.start out).1
  | .deliver start position answer => (w.deliver out start position answer).1
  | .receive position payload => (w.receive out position payload).1
  | .fail position => (w.fail out position).1
  | .external position => (w.external position).1
  | .abort => w.abort
  | .free => w.free.1
  | .decode recreate => (w.decode out recreate).1
  | .view position => (w.view position).1
  | .dropView => w.dropView

def sections (out : Outside ω) (w : World ω) : Operation → List Section
  | .start => .request :: (unsent out w.tallies.length w.requested.2 w.requested.1).map .fail
  | .deliver _ position answer => w.answerSections position answer
  | .receive position payload => [.receive position payload]
  | .fail position => [.fail position]
  | .external position => [.external position]
  | .abort => [.abort]
  | .free => [.free]
  | .decode recreate => decodeSections out recreate w
  | .view position => [.view position]
  | .dropView => [.dropView]

theorem perform_works (op : Operation) {w : World ω} (holds : P w.session) :
    Works allowed w (sections out w op) (w.perform out op) := by
  cases op with
  | start => exact start_works confined kept holds
  | deliver start position answer => exact deliver_works confined kept start position answer holds
  | receive position payload => exact receive_works confined kept position payload holds
  | fail position => exact fail_works confined kept position holds
  | external position =>
    refine .one (.external position) ?_ ?_ ?_
    all_goals
      simp only [perform, World.external, Section.step]
      cases w.session.external position <;> simp
  | abort => exact .one .abort rfl rfl (List.append_nil _).symm
  | free => exact .one .free rfl rfl (List.append_nil _).symm
  | decode recreate => exact decode_works kept confined.repair recreate holds
  | view position => exact .one (.view position) rfl rfl (List.append_nil _).symm
  | dropView => exact .one .dropView rfl rfl (List.append_nil _).symm

def performAll (out : Outside ω) : List Operation → World ω → World ω
  | [], w => w
  | op :: rest, w => performAll out rest (w.perform out op)

def allSections (out : Outside ω) : List Operation → World ω → List Section
  | [], _ => []
  | op :: rest, w => sections out w op ++ allSections out rest (w.perform out op)

theorem performAll_works (ops : List Operation) {w : World ω} (holds : P w.session) :
    Works allowed w (allSections out ops w) (performAll out ops w) := by
  induction ops generalizing w with
  | nil => exact .aside rfl rfl rfl
  | cons op rest ih =>
    have first := perform_works confined kept op holds
    exact first.trans (ih (first.keeps kept holds))

end World
end StripeRecovery
