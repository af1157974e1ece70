import StripeRecovery.Proofs.NormalForm

/-!
When a byte range is committed. The sweep over the extents of a normal form is exact: it ends
with yes just if the list that was normalized has an extent, of whatever version, for each byte
of the range.
-/
namespace StripeRecovery
namespace Committed

def Covered (extents : List Extent) (first past : Nat) : Prop :=
  ∀ byte, first ≤ byte → byte < past → ∃ e ∈ extents, e.Contains byte

variable {raw other extents rest : List Extent} {e : Extent} {first past cursor : Nat}

theorem covered_of_le (reversed : past ≤ first) : Covered extents first past := by
  intro byte from_first before
  omega

theorem covered_nil : Covered [] first past ↔ past ≤ first := by
  constructor
  · intro covered
    by_contra some
    obtain ⟨e, member, _⟩ := covered first (Nat.le_refl _) (by omega)
    simp at member
  · exact covered_of_le

theorem Covered.congr (covered : Covered raw first past)
    (same : ∀ version byte, Assigns raw version byte → Assigns other version byte) :
    Covered other first past := by
  intro byte from_first before
  obtain ⟨e, member, inside⟩ := covered byte from_first before
  obtain ⟨d, member', _, inside'⟩ := same _ _ (assigns_of_mem member inside)
  exact ⟨d, member', inside'⟩

theorem Normal.covered_gap (normal : Normal (e :: rest)) (gap : cursor < e.first) :
    Covered (e :: rest) cursor past ↔ past ≤ cursor := by
  constructor
  · intro covered
    by_contra some
    obtain ⟨d, member, inside⟩ := covered cursor (Nat.le_refl _) (by omega)
    have starts := inside.1
    rcases List.mem_cons.mp member with rfl | later
    · omega
    · have filled := normal.filled e (by simp)
      have behind := normal.later d later
      omega
  · exact covered_of_le

theorem Normal.covered_cons (normal : Normal (e :: rest)) (starts : e.first ≤ cursor) :
    Covered (e :: rest) cursor past ↔ Covered rest (max cursor e.past) past := by
  constructor
  · intro covered byte behind before
    obtain ⟨d, member, inside⟩ := covered byte (by omega) before
    rcases List.mem_cons.mp member with rfl | later
    · have ends := inside.2
      omega
    · exact ⟨d, later, inside⟩
  · intro covered byte from_cursor before
    by_cases inside : byte < e.past
    · exact ⟨e, by simp, by omega, inside⟩
    · obtain ⟨d, later, contains⟩ := covered byte (by omega) before
      exact ⟨d, List.mem_cons_of_mem e later, contains⟩

/-- The sweep is exact from any cursor on: extents that end before it change nothing. -/
theorem Normal.reaches_iff (normal : Normal extents) :
    reaches past cursor extents = true ↔ Covered extents cursor past := by
  induction extents generalizing cursor with
  | nil => simp [reaches, covered_nil]
  | cons e rest ih =>
    by_cases gap : cursor < e.first
    · simp [reaches, gap, normal.covered_gap gap]
    · rw [normal.covered_cons (Nat.le_of_not_lt gap)]
      by_cases done : past ≤ max cursor e.past
      · have covered : Covered rest (max cursor e.past) past := covered_of_le done
        simp only [reaches, gap, done, covered, ↓reduceIte]
      · rw [reaches, if_neg gap, if_neg done]
        exact ih normal.tail

/-- A range is covered by a normal form just if the list itself has an extent for each of its
    bytes, whatever their versions. A range without bytes is covered by anything. -/
theorem covers_iff_each_byte {raw : List Extent} {c : Committed} (done : normalize raw = .ok c)
    (first past : Nat) :
    (c.covers first past = true ↔
      ∀ byte, first ≤ byte → byte < past → ∃ e ∈ raw, e.Contains byte) ∧
    (past ≤ first → c.covers first past = true) := by
  obtain ⟨normal, means⟩ := normalize_ok done
  have swept : c.covers first past = true ↔ Covered c.extents first past := normal.reaches_iff
  constructor
  · rw [swept]
    constructor
    · intro covered
      exact covered.congr fun version byte => (means version byte).mp
    · intro (covered : Covered raw first past)
      exact covered.congr fun version byte => (means version byte).mpr
  · intro reversed
    exact swept.mpr (covered_of_le reversed)

/-- Extents of three versions, out of order, two of them touching and one apart. -/
theorem covers_iff_each_byte_three_versions :
    let raw : List Extent := [⟨300, 320, 5⟩, ⟨100, 200, 2⟩, ⟨0, 60, 1⟩, ⟨60, 100, 1⟩, ⟨150, 250, 2⟩]
    ∃ c, normalize raw = .ok c ∧
      (∀ byte, 20 ≤ byte → byte < 250 → ∃ e ∈ raw, e.Contains byte) ∧
      ¬ (∀ byte, 20 ≤ byte → byte < 301 → ∃ e ∈ raw, e.Contains byte) ∧
      c.covers 280 270 = true := by
  intro raw
  have done : normalize raw = .ok ⟨[⟨0, 100, 1⟩, ⟨100, 250, 2⟩, ⟨300, 320, 5⟩]⟩ := by cbv
  obtain ⟨within, _⟩ := covers_iff_each_byte done 20 250
  obtain ⟨across, _⟩ := covers_iff_each_byte done 20 301
  obtain ⟨_, reversed⟩ := covers_iff_each_byte done 280 270
  refine ⟨_, done, within.mp (by decide), ?_, reversed (by decide)⟩
  rw [← across]
  decide

end Committed
end StripeRecovery
