import StripeRecovery.Proofs.Recording

/-!
What a start does at each of its positions: either the read is sent, or the position counts as
failed at once, and the first of these that finds the session aborted ends the start.
-/
namespace StripeRecovery

/-- What became of one position of a start: its read was sent, or why it was not. -/
structure Sending where
  position : Nat
  fault : Option Error
deriving DecidableEq, Repr

def Sending.refused (sendings : List Sending) : List Nat :=
  (sendings.filter (·.fault.isSome)).map (·.position)

def Sending.accepted (sendings : List Sending) : List Nat :=
  (sendings.filter (·.fault.isNone)).map (·.position)

namespace Sending

theorem accepted_sublist (sendings : List Sending) :
    (accepted sendings).Sublist (sendings.map (·.position)) :=
  List.filter_sublist.map _

theorem accepted_length (sendings : List Sending) :
    (accepted sendings).length + (refused sendings).length = sendings.length := by
  have split := List.length_eq_length_filter_add (l := sendings) (·.fault.isNone)
  simp only [accepted, refused, List.length_map]
  simpa using split.symm

end Sending

namespace Layout

theorem seenFrom_valid {p : Layout} (valid : p.Valid) {position : Nat}
    (inside : position < p.width) : p.seenFrom position = .ok { p with home := position } := by
  obtain ⟨data_pos, parity_pos, width_le, chunk_pos, _⟩ := valid
  have there : Valid { p with home := position } :=
    ⟨data_pos, parity_pos, width_le, chunk_pos, inside⟩
  exact make_eq_ok_iff.mpr ⟨rfl, there.checked⟩

end Layout

variable {ω : Type}

namespace World

/-- What a start does at each of its positions, up to the one at which it stops. -/
def sendings (out : Outside ω) (start : Nat) : List Nat → World ω → List Sending
  | [], _ => []
  | position :: rest, w =>
    match w.sendRead out start position with
    | (w, none) => ⟨position, none⟩ :: sendings out start rest w
    | (w, some e) =>
      let (w, outcome) := (w.account start Tally.quickFail).deliver out start position (.failure e)
      ⟨position, some e⟩ :: if outcome.shouldStop then [] else sendings out start rest w

variable (out : Outside ω) (start : Nat)

theorem sendings_prefix (positions : List Nat) (w : World ω) :
    (sendings out start positions w).map (·.position) <+: positions := by
  induction positions generalizing w with
  | nil => exact List.nil_prefix
  | cons position rest ih =>
    simp only [sendings]
    cases w.sendRead out start position with
    | mk v fault =>
      cases fault with
      | none => exact List.cons_prefix_cons.mpr ⟨rfl, ih v⟩
      | some e =>
        refine List.cons_prefix_cons.mpr ⟨rfl, ?_⟩
        split
        · exact List.nil_prefix
        · exact ih _

theorem requestFor_home {s : Session} {position : Nat} {request : ReadRequest}
    (asked : requestFor s position = .ok request) : request.layout.home = position := by
  unfold requestFor at asked
  cases seen : s.layout.seenFrom position with
  | error e => simp [seen, Except.map] at asked
  | ok layout =>
    simp only [seen, Except.map, Except.ok.injEq] at asked
    rw [← asked, (Layout.make_eq_ok_iff.mp seen).1]

/-- The calls that a start makes are those of its sendings, but for the ones that come to
    nothing before there is anybody to call. -/
structure CalledFor (start : Nat) (sendings : List Sending) (calls : List ReadCall) : Prop where
  positions : (calls.map (·.position)).Sublist (sendings.map (·.position))
  accepted : (calls.filter (·.fault.isNone)).map (·.position) = Sending.accepted sendings
  start : ∀ c ∈ calls, c.start = start

theorem sendRead_called (position : Nat) (w : World (ω × List ReadCall)) :
    ∃ calls, (w.sendRead out.recording start position).1.reads = w.reads ++ calls ∧
      CalledFor start [⟨position, (w.sendRead out.recording start position).2⟩] calls := by
  rw [sendRead_reads]
  refine ⟨_, rfl, ?_⟩
  rw [sendRead_eq]
  cases asked : requestFor w.session position with
  | error e => exact ⟨by simp, by simp [Sending.accepted], by simp⟩
  | ok request =>
    have home := requestFor_home asked
    cases w.session.routeOf position with
    | none => exact ⟨by simp, by simp [Sending.accepted], by simp⟩
    | some route =>
      exact ⟨by simp [ReadCall.position, home],
        by cases (out.recording.send start route request w).2 <;>
          simp [Sending.accepted, ReadCall.position, home], by simp⟩

variable {start}

theorem CalledFor.append {before after : List Sending} {calls more : List ReadCall}
    (first : CalledFor start before calls) (second : CalledFor start after more) :
    CalledFor start (before ++ after) (calls ++ more) := by
  refine ⟨?_, ?_, ?_⟩
  · simpa using first.positions.append second.positions
  · simp only [List.filter_append, List.map_append, first.accepted, second.accepted,
      Sending.accepted]
  · intro c member
    rcases List.mem_append.mp member with there | there
    · exact first.start c there
    · exact second.start c there

variable (start)

theorem sendReads_called (positions : List Nat) (w : World (ω × List ReadCall)) :
    ∃ calls, (w.sendReads out.recording start positions).reads = w.reads ++ calls ∧
      CalledFor start (sendings out.recording start positions w) calls := by
  induction positions generalizing w with
  | nil => exact ⟨[], (List.append_nil _).symm, .slnil, rfl, by simp⟩
  | cons position rest ih =>
    obtain ⟨calls, sent, called⟩ := sendRead_called out start position w
    simp only [sendReads, sendings]
    cases answer : w.sendRead out.recording start position with
    | mk v fault =>
      rw [answer] at sent called
      cases fault with
      | none =>
        obtain ⟨more, others, further⟩ := ih v
        refine ⟨calls ++ more, ?_, called.append further⟩
        rw [others, sent, List.append_assoc]
      | some e =>
        let failed := (v.account start Tally.quickFail).deliver out.recording start position
          (.failure e)
        have same : failed.1.reads = v.reads :=
          deliver_reads out (v.account start Tally.quickFail) start position (.failure e)
        by_cases stop : failed.2.shouldStop = true
        · refine ⟨calls, ?_, ?_⟩
          · simp only [failed] at stop
            simp only [stop, ↓reduceIte]
            exact same.trans sent
          · simp only [failed] at stop
            simpa only [stop, ↓reduceIte] using called
        · obtain ⟨more, others, further⟩ := ih failed.1
          simp only [failed] at stop
          simp only [stop, Bool.false_eq_true, ↓reduceIte]
          refine ⟨calls ++ more, ?_, called.append further⟩
          rw [others, same, sent, List.append_assoc]

end World

end StripeRecovery
