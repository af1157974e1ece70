import StripeRecovery.Proofs.DecodeBuffers
import StripeRecovery.Proofs.Repair
import StripeRecovery.Proofs.Payloads

/-!
What a decode asks the codec, and what it gets: from payloads that carry the shards of one
stripe, the shards of that stripe, and a note of which positions hold them.
-/
namespace StripeRecovery

theorem countP_eq_forces {α : Type} {l : List α} {p q : α → Bool}
    (stronger : ∀ a, p a = true → q a = true)
    (same : l.countP q ≤ l.countP p) {a : α} (member : a ∈ l) (weak : q a = true) : p a = true := by
  have both : (l.filter q).countP p = l.countP p := by
    rw [List.countP_filter]
    refine List.countP_congr fun b _ => ?_
    simp only [Bool.and_eq_true]
    exact ⟨And.left, fun h => ⟨h, stronger b h⟩⟩
  have whole : (l.filter q).countP p = (l.filter q).length := by
    have upper := List.countP_le_length (p := p) (l := l.filter q)
    rw [← List.countP_eq_length_filter] at upper ⊢
    omega
  exact List.countP_eq_length.mp whole a (List.mem_filter.mpr ⟨member, weak⟩)

def Code.answer (c : Code) (call : DecodeCall) : Attempt RepairCount :=
  c.repair call.shards call.present call.offset call.length call.recreate

namespace Session

def Received (payloads : List (Nat × Buffer)) (position : Nat) : Prop :=
  ∃ b, (position, b) ∈ payloads

def Served (payloads : List (Nat × Buffer)) (data : Nat) (recreate : Bool) (position : Nat) : Prop :=
  position < data ∨ Received payloads position ∨ recreate = true ∨
    ∀ other < data, Received payloads other

/-- All payloads taken carry the shards of their positions. -/
def Faithful (stripe : List Shard) (payloads : List (Nat × Buffer)) : Prop :=
  ∀ position b, (position, b) ∈ payloads →
    ∃ shard, stripe[position]? = some shard ∧ Carries shard b.bytes

def offered (s : Session) : List (Option Buffer) := s.roster.takePayloads.2

variable {s : Session} {payloads : List (Nat × Buffer)} {code : Code} {stripe : List Shard}

theorem offered_get {i : Nat} {payload : Option Buffer} (found : s.offered[i]? = some payload) :
    ∃ c, s.roster.chunks[i]? = some c ∧ Roster.payload? c = payload := by
  simpa [offered, Roster.takePayloads] using found

theorem payload?_isSome {c : Chunk} (owns : (Roster.payload? c).isSome = true) :
    c.state = .complete := by
  unfold Roster.payload? at owns
  split at owns
  · assumption
  · simp at owns

theorem offered_received (counted : s.Counted) (completed : s.phase = .completed)
    (holds : Holds s.roster payloads)
    (enough : s.layout.data ≤ (s.offered.map Option.isSome).count true) {i : Nat}
    (inside : i < s.layout.width) :
    ((s.offered.map Option.isSome)[i]? = some true) ↔ Received payloads i := by
  have bound : i < s.roster.chunks.length := by rw [counted.width]; exact inside
  have found := List.getElem?_eq_getElem bound
  have flag : (s.offered.map Option.isSome)[i]? =
      some (Roster.payload? s.roster.chunks[i]).isSome := by
    simp [offered, Roster.takePayloads, found]
  have full : s.roster.chunks.countP (·.state == .complete) ≤
      s.roster.chunks.countP fun c => (Roster.payload? c).isSome := by
    have complete := counted.successes_eq.symm.trans (counted.decided (.inl completed)).1
    have owners : (s.offered.map Option.isSome).count true =
        s.roster.chunks.countP fun c => (Roster.payload? c).isSome := by
      simp [offered, Roster.takePayloads, List.count, List.countP_map, Function.comp_def]
    rw [owners] at enough
    exact Nat.le_trans (Nat.le_of_eq complete) enough
  rw [flag, Option.some.injEq, Received, ← holds.complete i _ found]
  constructor
  · exact payload?_isSome
  · intro complete
    exact countP_eq_forces (fun c owns => by simpa using payload?_isSome owns) full
      (List.getElem_mem bound) (by simpa using complete)

theorem offered_shard (holds : Holds s.roster payloads) (faithful : Faithful stripe payloads)
    {size : Nat} (even : ∀ t ∈ stripe, t.length = size) {i : Nat}
    (flag : (s.offered.map Option.isSome)[i]? = some true) :
    (s.offered.map (contents size))[i]? = stripe[i]? := by
  rw [List.getElem?_map] at flag
  obtain ⟨payload, at_i, isSome⟩ := Option.map_eq_some_iff.mp flag
  obtain ⟨c, found, offers⟩ := offered_get at_i
  obtain ⟨b, rfl⟩ := Option.isSome_iff_exists.mp isSome
  have complete : c.state = .complete := payload?_isSome (by simp [offers])
  have owns : c.buffer = some b := by simpa [Roster.payload?, complete] using offers
  obtain ⟨shard, there, carries⟩ := faithful i b (holds.buffer i c b found owns)
  rw [List.getElem?_map, at_i, there, Option.map_some, contents,
    ← even shard (List.mem_of_getElem? there), carries.fit]

def callOf (s : Session) (recreate : Bool) : DecodeCall :=
  ⟨s.offered.map (contents s.layout.chunkSize), s.offered.map Option.isSome, 0, s.layout.chunkSize,
    recreate⟩

theorem offered_length (counted : s.Counted) : s.offered.length = s.layout.width := by
  simp [offered, Roster.takePayloads, counted.width]

theorem callOf_even (s : Session) (recreate : Bool) :
    ∀ t ∈ (s.callOf recreate).shards, t.length = s.layout.chunkSize := by
  intro t member
  obtain ⟨payload, _, rfl⟩ := List.mem_map.mp member
  exact contents_length _ payload

structure Decodes (code : Code) (stripe : List Shard) (payloads : List (Nat × Buffer)) (s : Session)
    (recreate : Bool) (count : RepairCount) : Prop where
  invariant : s.Invariant
  completed : s.phase = .completed
  holds : Holds s.roster payloads
  faithful : Faithful stripe payloads
  data : code.data = s.layout.data
  parity : code.parity = s.layout.parity
  isStripe : code.IsStripe s.layout.chunkSize stripe
  positive : 0 < s.layout.chunkSize
  done : (code.answer (s.callOf recreate)).result = .ok count

namespace Decodes
variable {recreate : Bool} {count : RepairCount}
  (decodes : Decodes code stripe payloads s recreate count)
include decodes

theorem width : code.width = s.layout.width := by
  simp only [Code.width, Layout.width, decodes.data, decodes.parity]

theorem offers : s.offered.length = code.width :=
  (offered_length decodes.invariant.counted).trans decodes.width.symm

theorem flags : (s.callOf recreate).present.length = code.width := by
  simp [callOf, decodes.offers]

theorem received {i : Nat} (inside : i < s.layout.width) :
    (s.callOf recreate).present[i]? = some true ↔ Received payloads i :=
  offered_received decodes.invariant.counted decodes.completed decodes.holds
    (decodes.data ▸ (Code.enough_of_ok decodes.done).2) inside

theorem wants : code.wantsParity (s.callOf recreate).present recreate = true ↔
    recreate = true ∨ ∀ other < s.layout.data, Received payloads other := by
  have bound : code.data ≤ (s.callOf recreate).present.length := by
    rw [decodes.flags, Code.width]
    omega
  rw [Code.wantsParity_iff bound, decodes.data]
  refine or_congr Iff.rfl (forall₂_congr fun other isData => decodes.received ?_)
  simp only [Layout.width]
  omega

theorem served_iff {i : Nat} (inside : i < s.layout.width) :
    Served payloads s.layout.data recreate i ↔ (s.callOf recreate).present[i]? = some true ∨
      i < s.layout.data ∨ code.wantsParity (s.callOf recreate).present recreate = true := by
  rw [decodes.received inside, decodes.wants, Served]
  tauto

theorem shards : (code.answer (s.callOf recreate)).shards.length = s.layout.width ∧
    ∀ i < s.layout.width, Served payloads s.layout.data recreate i →
      (code.answer (s.callOf recreate)).shards[i]? = stripe[i]? := by
  have agree : ∀ i : Nat, (s.callOf recreate).present[i]? = some true →
      (s.callOf recreate).shards[i]? = stripe[i]? :=
    fun i flag => offered_shard decodes.holds decodes.faithful decodes.isStripe.even flag
  obtain ⟨length, values⟩ := Code.repair_whole decodes.isStripe decodes.positive
    (by simp [callOf, decodes.offers]) decodes.flags (Code.enough_of_ok decodes.done).2
    (s.callOf_even recreate) agree recreate
  refine ⟨length.trans decodes.width, fun i inside served => ?_⟩
  have inFlags : i < (s.callOf recreate).present.length := by
    rw [decodes.flags, decodes.width]
    exact inside
  have value := values i
  rcases Code.flag_cases inFlags with flag | flag
  · rw [agree i flag, ite_self] at value
    exact value
  · rcases (decodes.served_iff inside).mp served with there | wanted
    · rw [flag] at there
      simp at there
    · rw [if_pos (Code.writes_iff.mpr ⟨flag, decodes.data ▸ wanted⟩)] at value
      exact value

theorem filled {i : Nat} (inside : i < s.layout.width) :
    (filledAfter s.layout (s.callOf recreate).present count)[i]? = some true ↔
      Served payloads s.layout.data recreate i := by
  have inFlags : i < (s.callOf recreate).present.length := by
    rw [decodes.flags, decodes.width]
    exact inside
  have counted := decodes.done
  rw [Code.answer, Code.repair_result (Code.enough_of_ok decodes.done).1 decodes.positive,
    Except.ok.injEq, show (s.callOf recreate).recreate = recreate from rfl] at counted
  rw [decodes.served_iff inside]
  rcases Code.flag_cases inFlags with flag | flag
  · simp [filledAfter_get flag, flag]
  · by_cases isData : i < s.layout.data
    · simp [filledAfter_get flag, isData]
    · -- The absent parity counts, so the codec answers a positive number if it writes parity.
      have absent : 0 < ((s.callOf recreate).present.drop code.data).count false := by
        refine List.count_pos_iff.mpr (List.mem_of_getElem? (i := i - code.data) ?_)
        rw [List.getElem?_drop, Nat.add_sub_cancel' (by have := decodes.data; omega)]
        exact flag
      rw [filledAfter_get flag, flag, ← counted]
      by_cases wanted : code.wantsParity (s.callOf recreate).present recreate = true
      · simp [isData, wanted, absent]
      · simp [isData, wanted]

end Decodes

end Session
end StripeRecovery
