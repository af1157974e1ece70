import StripeRecovery.Roster
import Mathlib.Data.List.Basic

/-!
What the operations of a roster do to its chunks: how many are in each state, and who owns
a buffer.
-/
namespace StripeRecovery
namespace Roster

def moved (t : Roster) (position : Nat) (after : ChunkStatus) : Roster :=
  t.update position fun c => { c with state := after }

def loaded (t : Roster) (position : Nat) (payload : Buffer) : Roster :=
  t.update position fun c => { c with state := .complete, buffer := some payload }

def requested (t : Roster) : Roster :=
  ⟨t.chunks.map fun c => if c.state = .absent then { c with state := .requested } else c⟩

def MayMove (t : Roster) (position : Nat) (after : ChunkStatus) : Prop :=
  ∃ c, t.chunks[position]? = some c ∧ c.state.canMove after = true

theorem move_cases (t : Roster) (position : Nat) (after : ChunkStatus) :
    (∃ c, t.chunks[position]? = some c ∧ c.state.canMove after = true ∧
        t.move position after = .ok (t.moved position after, c.state)) ∨
      ((¬ t.MayMove position after) ∧ ∃ e, t.move position after = .error e) := by
  unfold move get MayMove
  cases found : t.chunks[position]? with
  | none => exact .inr ⟨by simp, _, rfl⟩
  | some c =>
    by_cases can : c.state.canMove after = true
    · exact .inl ⟨c, rfl, can, by simp [can, moved]⟩
    · exact .inr
        ⟨by simpa using can, .internal (.illegalMove c.state after position), by simp [can]⟩

theorem complete_cases (t : Roster) (position : Nat) (payload : Buffer) :
    (∃ c, t.chunks[position]? = some c ∧ c.state.canMove .complete = true ∧
        t.complete position payload = .ok (t.loaded position payload)) ∨
      ((¬ t.MayMove position .complete) ∧ ∃ e, t.complete position payload = .error e) := by
  unfold complete
  rcases move_cases t position .complete with ⟨c, found, can, done⟩ | ⟨cannot, e, failed⟩
  · refine .inl ⟨c, found, can, ?_⟩
    rw [done]
    simp only [moved, loaded, update, List.modify_modify_eq]
    rfl
  · exact .inr ⟨cannot, e, by rw [failed]⟩

theorem update_split {t : Roster} {position : Nat} {c : Chunk}
    (found : t.chunks[position]? = some c) : ∃ before rest, t.chunks = before ++ c :: rest ∧
      ∀ f, (t.update position f).chunks = before ++ f c :: rest := by
  obtain ⟨inside, at_⟩ := List.getElem?_eq_some_iff.mp found
  refine ⟨t.chunks.take position, t.chunks.drop (position + 1), ?_, fun f => ?_⟩
  · rw [← at_, ← List.drop_eq_getElem_cons inside, List.take_append_drop]
  · rw [update, List.modify_eq_take_cons_drop inside, at_]

theorem countOf_update {t : Roster} {position : Nat} {c : Chunk} {f : Chunk → Chunk}
    (found : t.chunks[position]? = some c) (state : ChunkStatus) :
    (t.update position f).countOf state + (if c.state = state then 1 else 0) =
      t.countOf state + (if (f c).state = state then 1 else 0) := by
  obtain ⟨before, rest, whole, updated⟩ := update_split found
  simp only [countOf, updated, whole, List.countP_append, List.countP_cons, beq_iff_eq]
  omega

theorem may_from {before after : ChunkStatus} (can : before.canMove after = true) :
    before = .absent ∨ before = .requested ∨ before = .external := by
  cases before <;> cases after <;> simp_all [ChunkStatus.canMove]

theorem countOf_after {t : Roster} {position : Nat} {after : ChunkStatus} {f : Chunk → Chunk}
    (may : t.MayMove position after) (sets : ∀ c, (f c).state = after) {state : ChunkStatus}
    (final : state = .complete ∨ state = .failed) :
    (t.update position f).countOf state = t.countOf state + if after = state then 1 else 0 := by
  obtain ⟨c, found, can⟩ := may
  have counts := countOf_update (f := f) found state
  have other : c.state ≠ state := by
    rcases may_from can with h | h | h <;> rcases final with rfl | rfl <;> simp [h]
  rw [sets c] at counts
  simp only [other, ↓reduceIte, Nat.add_zero] at counts
  exact counts

theorem mem_update {t : Roster} {position : Nat} {f : Chunk → Chunk} {c : Chunk}
    (member : c ∈ (t.update position f).chunks) :
    c ∈ t.chunks ∨ ∃ old, t.chunks[position]? = some old ∧ c = f old := by
  obtain ⟨i, at_i⟩ := List.mem_iff_getElem?.mp member
  rw [update, List.getElem?_modify] at at_i
  obtain ⟨old, found, rfl⟩ := Option.map_eq_some_iff.mp at_i
  by_cases here : position = i
  · subst here
    exact .inr ⟨old, found, by simp⟩
  · exact .inl (by simpa [here] using List.mem_of_getElem? found)

theorem length_update (t : Roster) (position : Nat) (f : Chunk → Chunk) :
    (t.update position f).chunks.length = t.chunks.length := by
  simp [update]

theorem update_not_rebuilt {t : Roster} {position : Nat} {after : ChunkStatus} {f : Chunk → Chunk}
    (notRebuilt : ∀ c ∈ t.chunks, c.state ≠ .rebuilt) (sets : ∀ c, (f c).state = after)
    (other : after ≠ .rebuilt) : ∀ c ∈ (t.update position f).chunks, c.state ≠ .rebuilt := by
  intro c member
  rcases mem_update member with there | ⟨old, _, rfl⟩
  · exact notRebuilt c there
  · rw [sets]
    exact other

theorem countOf_map {t : Roster} {g : Chunk → Chunk} {state : ChunkStatus}
    (same : ∀ c, (g c).state = state ↔ c.state = state) :
    (Roster.mk (t.chunks.map g)).countOf state = t.countOf state := by
  simp only [countOf, List.countP_map]
  congr 1
  funext c
  simp [same c]

def Awaited (c : Chunk) : Prop :=
  c.state = .absent ∨ c.state = .requested ∨ c.state = .external

theorem mayMove_final {t : Roster} {position : Nat} {after : ChunkStatus}
    (final : after = .complete ∨ after = .failed) :
    t.MayMove position after ↔ ∃ c, t.chunks[position]? = some c ∧ Awaited c := by
  constructor
  · rintro ⟨c, found, can⟩
    exact ⟨c, found, may_from can⟩
  · rintro ⟨c, found, awaited⟩
    refine ⟨c, found, ?_⟩
    rcases awaited with h | h | h <;> rcases final with rfl | rfl <;> simp [h, ChunkStatus.canMove]

end Roster
end StripeRecovery
