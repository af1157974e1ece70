import StripeRecovery.Proofs.Sound

/-!
Chunks keep their places: the chunk at index `i` of a roster is the one of position `i`, and
once something is known about it, this is never forgotten.
-/
namespace StripeRecovery

namespace Roster

def positions (t : Roster) : List Nat := t.chunks.map (·.position)

def Numbered (t : Roster) : Prop := t.positions = List.range t.width

def Absent (t : Roster) (position : Nat) : Prop :=
  ∃ c, t.chunks[position]? = some c ∧ c.state = .absent

variable {t : Roster}

theorem positions_map {f : Chunk → Chunk} (same : ∀ c, (f c).position = c.position) :
    positions ⟨t.chunks.map f⟩ = t.positions := by
  simp [positions, Function.comp_def, same]

theorem positions_update {position : Nat} {f : Chunk → Chunk}
    (same : ∀ c, (f c).position = c.position) : (t.update position f).positions = t.positions := by
  unfold positions update
  refine List.ext_getElem? fun i => ?_
  rw [List.getElem?_map, List.getElem?_map, List.getElem?_modify]
  cases t.chunks[i]? with
  | none => rfl
  | some c => by_cases here : position = i <;> simp [here, same]

theorem make_numbered (layout : Layout) (stripe : Nat) : (make layout stripe).Numbered := by
  simp [Numbered, positions, make, width, Function.comp_def]

theorem Numbered.position (numbered : t.Numbered) {i : Nat} {c : Chunk}
    (found : t.chunks[i]? = some c) : c.position = i := by
  have listed : t.positions[i]? = some c.position := by simp [positions, found]
  rw [numbered] at listed
  obtain ⟨inside, eq⟩ := List.getElem?_eq_some_iff.mp listed
  simpa using eq.symm

theorem Numbered.mem_positionsOf (numbered : t.Numbered) {state : ChunkStatus} {position : Nat} :
    position ∈ t.positionsOf state ↔ ∃ c, t.chunks[position]? = some c ∧ c.state = state := by
  simp only [positionsOf, List.mem_map, List.mem_filter, beq_iff_eq]
  constructor
  · rintro ⟨c, ⟨member, holds⟩, rfl⟩
    obtain ⟨i, found⟩ := List.mem_iff_getElem?.mp member
    exact ⟨c, numbered.position found ▸ found, holds⟩
  · rintro ⟨c, found, holds⟩
    exact ⟨c, ⟨List.mem_of_getElem? found, holds⟩, numbered.position found⟩

theorem Numbered.ascending (numbered : t.Numbered) (state : ChunkStatus) :
    (t.positionsOf state).Pairwise (· < ·) := by
  have sub : (t.positionsOf state).Sublist t.positions := List.filter_sublist.map _
  rw [numbered] at sub
  exact List.pairwise_lt_range.sublist sub

theorem absent_of_map {f : Chunk → Chunk} {position : Nat}
    (only : ∀ c, (f c).state = .absent → c.state = .absent)
    (absent : Absent ⟨t.chunks.map f⟩ position) : t.Absent position := by
  obtain ⟨c, found, state⟩ := absent
  obtain ⟨d, there, rfl⟩ : ∃ d, t.chunks[position]? = some d ∧ f d = c := by simpa using found
  exact ⟨d, there, only d state⟩

theorem absent_of_update {place : Nat} {f : Chunk → Chunk} {position : Nat}
    (never : ∀ c, (f c).state ≠ .absent) (absent : (t.update place f).Absent position) :
    t.Absent position := by
  obtain ⟨c, found, state⟩ := absent
  rw [update, List.getElem?_modify] at found
  obtain ⟨d, there, rfl⟩ := Option.map_eq_some_iff.mp found
  by_cases here : place = position
  · simp only [here, ↓reduceIte] at state
    exact absurd state (never d)
  · exact ⟨d, there, by simpa [here] using state⟩

end Roster

namespace Session
variable {s after : Session} {e : Section} {told : List Notice}

theorem Change.positions (change : Change s e after told) :
    after.roster.positions = s.roster.positions := by
  have bare : ∀ t : Roster, t.withoutBuffers.positions = t.positions := fun t =>
    Roster.positions_map fun _ => rfl
  cases change with
  | requested =>
    refine Roster.positions_map fun c => ?_
    split <;> rfl
  | external => exact Roster.positions_update fun _ => rfl
  | failed => exact Roster.positions_update fun _ => rfl
  | lost => exact (bare _).trans (Roster.positions_update fun _ => rfl)
  | received => exact Roster.positions_update fun _ => rfl
  | completed => exact Roster.positions_update fun _ => rfl
  | aborted => exact bare _
  | freed => exact bare _
  | begun => exact Roster.positions_map fun _ => rfl
  | still | viewed | unviewed | unleased | stopped | stored => rfl

theorem Change.numbered (change : Change s e after told) (numbered : s.roster.Numbered) :
    after.roster.Numbered := by
  have same := change.positions
  have width : after.roster.width = s.roster.width := by
    simpa [Roster.positions, Roster.width] using congrArg List.length same
  rw [Roster.Numbered, same, width]
  exact numbered

theorem Change.absent (change : Change s e after told) {position : Nat}
    (absent : after.roster.Absent position) : s.roster.Absent position := by
  have bare : ∀ t : Roster, t.withoutBuffers.Absent position → t.Absent position := fun t =>
    Roster.absent_of_map fun _ state => state
  cases change with
  | requested =>
    refine Roster.absent_of_map (fun c state => ?_) absent
    split at state
    · simp at state
    · exact state
  | external => exact Roster.absent_of_update (by simp) absent
  | failed => exact Roster.absent_of_update (by simp) absent
  | lost => exact Roster.absent_of_update (by simp) (bare _ absent)
  | received => exact Roster.absent_of_update (by simp) absent
  | completed => exact Roster.absent_of_update (by simp) absent
  | aborted => exact bare _ absent
  | freed => exact bare _ absent
  | begun =>
    refine Roster.absent_of_map (fun c state => ?_) absent
    split at state
    · simp at state
    · exact state
  | still | viewed | unviewed | unleased | stopped | stored => exact absent

theorem make_numbered {target : Target} {data parity : Nat} {settings : Settings}
    (made : make target data parity settings = .ok s) : s.roster.Numbered := by
  obtain ⟨_, _, rfl⟩ := make_ok made
  exact Roster.make_numbered _ _

theorem play_numbered (numbered : s.roster.Numbered) (history : List Section) (pool : Pool) :
    (play history s pool).session.roster.Numbered :=
  play_keeps (P := fun s => s.roster.Numbered)
    (fun e s pool held => (step_change s pool e).numbered held) history numbered pool

theorem play_absent (history : List Section) (pool : Pool) {position : Nat}
    (absent : (play history s pool).session.roster.Absent position) :
    s.roster.Absent position := by
  induction history generalizing s pool with
  | nil => exact absent
  | cons e rest ih => exact (step_change s pool e).absent (ih _ absent)

end Session
end StripeRecovery
