import StripeRecovery.Code.Slots
import StripeRecovery.Proofs.Touched

/-!
What the filler of a code makes of slots. Of the shards that are there it reads the first
`data`, at whatever positions they are; the data shards among those that are there are always
among the first, so the parity, which is made from the data, does not depend on any other.
-/
namespace StripeRecovery

namespace Slots
variable {slots : Slots} {size n : Nat}

theorem mem_held {s : Sample} : s ∈ slots.held ↔ slots[s.position]? = some (some s.shard) := by
  simp only [held, List.mem_filterMap, Prod.exists, Option.map_eq_some_iff]
  constructor
  · rintro ⟨slot, i, member, shard, rfl, rfl⟩
    exact List.mem_zipIdx_iff_getElem?.mp member
  · intro there
    exact ⟨some s.shard, s.position, List.mem_zipIdx_iff_getElem?.mpr there, s.shard, rfl, rfl⟩

theorem held_length (slots : Slots) : slots.held.length = slots.countP (·.isSome) := by
  have first : slots.zipIdx.map Prod.fst = slots := List.zipIdx_map_fst 0 slots
  rw [held, List.length_filterMap_eq_countP]
  conv_rhs => rw [← first, List.countP_map]
  congr 1
  funext pair
  simp

theorem held_distinct (slots : Slots) : (slots.held.map (·.position)).Nodup := by
  have pairs : slots.zipIdx.Nodup := by
    apply List.Nodup.of_map Prod.snd
    rw [List.zipIdx_map_snd]
    exact List.nodup_range'
  have nodup : slots.held.Nodup := by
    apply pairs.filterMap
    rintro ⟨slot, i⟩ ⟨slot', i'⟩ s first second
    simp only [Option.mem_def, Option.map_eq_some_iff] at first second
    obtain ⟨shard, rfl, rfl⟩ := first
    obtain ⟨shard', rfl, same⟩ := second
    simp only [Sample.mk.injEq] at same
    rw [same.1, same.2]
  apply nodup.map_on
  intro s hs t ht same
  have shards := mem_held.mp hs
  rw [same, mem_held.mp ht] at shards
  cases s
  cases t
  simp_all

theorem held_points {c : Code} (count : slots.length = c.width) :
    (pointsOf (slots.held.take n)).Nodup := by
  apply points_distinct
  · rw [List.map_take]
    exact (held_distinct slots).sublist (List.take_sublist _ _)
  · intro s member
    have found := mem_held.mp (List.mem_of_mem_take member)
    have bound := (List.getElem?_eq_some_iff.mp found).1
    have := c.width_le_256
    omega

theorem held_append (first second : Slots) :
    ∃ later, held (first ++ second) = held first ++ later := by
  rw [held, List.zipIdx_append, List.filterMap_append]
  exact ⟨_, rfl⟩

theorem held_early {i : Nat} {s : Shard} (there : slots[i]? = some (some s)) (early : i < n) :
    ⟨i, s⟩ ∈ slots.held.take n := by
  obtain ⟨later, parts⟩ := held_append (slots.take n) (slots.drop n)
  rw [List.take_append_drop] at parts
  have few : (held (slots.take n)).length ≤ n := by
    calc (held (slots.take n)).length ≤ (slots.take n).zipIdx.length := List.length_filterMap_le _ _
      _ ≤ n := by rw [List.length_zipIdx]; exact List.length_take_le n slots
  have member : (⟨i, s⟩ : Sample) ∈ held (slots.take n) := by
    rw [mem_held, List.getElem?_take, if_pos early]
    exact there
  rw [parts, List.take_append, List.take_of_length_le few]
  exact List.mem_append_left _ member

end Slots

namespace Code
variable {c : Code} {slots : Slots} {size : Nat}

/-- What is relied on of a filler: it leaves the shards that it finds, fills the data slots and,
    if it is told to, the parity slots, and keeps to the size of the shards. -/
structure Filled (c : Code) (parity : Bool) (size : Nat) (before after : Slots) : Prop where
  length : after.length = before.length
  kept : ∀ (i : Nat) (s : Shard), before[i]? = some (some s) → after[i]? = some (some s)
  filled : ∀ i : Nat, before[i]? = some none → i < c.data ∨ parity = true →
    ∃ s : Shard, after[i]? = some (some s) ∧ s.length = size
  spared : ∀ i : Nat, before[i]? = some none → ¬ (i < c.data ∨ parity = true) →
    after[i]? = some none

/-- A filler that completes slots whenever they hold at least `data` shards of one positive
    size. -/
def Completes (c : Code) (fill : Filler) : Prop :=
  ∀ (parity : Bool) (slots : Slots) (size : Nat), slots.length = c.width → 0 < size →
    (∀ s, some s ∈ slots → s.length = size) → c.data ≤ slots.countP (·.isSome) →
    (fill parity slots).complaint? = none ∧ c.Filled parity size slots (fill parity slots).slots

section Complete
variable (count : slots.length = c.width) (positive : 0 < size)
  (even : ∀ s, some s ∈ slots → s.length = size) (enough : c.data ≤ slots.countP (·.isSome))
include even

theorem held_even : ∀ s ∈ slots.held, s.shard.length = size := fun s member =>
  even s.shard (List.mem_of_getElem? (Slots.mem_held.mp member))

include count

theorem complete_data : ((List.range c.data).map fun i =>
      (slots.getD i none).getD (interpolate (slots.held.take c.data) size i)) =
    (List.range c.data).map (interpolate (slots.held.take c.data) size) := by
  apply List.map_congr_left
  intro i member
  have isData := List.mem_range.mp member
  rw [List.getD_eq_getElem?_getD]
  cases found : slots[i]? with
  | none => rfl
  | some slot =>
    cases slot with
    | none => rfl
    | some s =>
      have chosen := Slots.held_early found isData
      have evenChosen : ∀ t ∈ slots.held.take c.data, t.shard.length = size := fun t member =>
        held_even even t (List.mem_of_mem_take member)
      exact (interpolate_at_sample evenChosen (Slots.held_points count) chosen).symm

include positive enough

theorem complete_eq (parity : Bool) : c.complete parity slots =
    ⟨slots.zipIdx.map fun (slot, i) => slot.or
      (if i < c.data ∨ parity = true then
        some (interpolate (slots.held.take c.data) size i) else none), none⟩ := by
  have several : slots.held.length = slots.countP (·.isSome) := Slots.held_length slots
  have evenShards : ∀ s ∈ slots.held.map (·.shard), s.length = size := by
    intro s member
    obtain ⟨t, inside, rfl⟩ := List.mem_map.mp member
    exact held_even even t inside
  have head : ((slots.held.map (·.shard)).headD []).length = size :=
    headD_length (by rw [List.length_map]; have := c.data_pos; omega) evenShards
  have evenChosen : ∀ t ∈ slots.held.take c.data, t.shard.length = size := fun t member =>
    held_even even t (List.mem_of_mem_take member)
  have chosen : (slots.held.take c.data).length = c.data := by
    rw [List.length_take]
    omega
  simp only [complete, shardFault_none positive evenShards, head,
    if_neg (show ¬ slots.held.length < c.data by omega), complete_data count even]
  congr 1
  apply List.map_congr_left
  rintro ⟨slot, i⟩ member
  have inside : i < c.width := by
    have bound := (List.getElem?_eq_some_iff.mp (List.mem_zipIdx_iff_getElem?.mp member)).1
    omega
  simp only
  congr 1
  cases parity with
  | false => by_cases isData : i < c.data <;> simp [isData]
  | true =>
    simp only [↓reduceIte, or_true]
    by_cases isData : i < c.data
    · rw [List.getElem?_append_left (by simpa using isData)]
      simp [isData]
    · rw [List.getElem?_append_right (by simpa using isData), List.length_map, List.length_range]
      exact parityOf_spanned chosen evenChosen (Slots.held_points count) (by omega) inside

theorem complete_get (parity : Bool) (i : Nat) : (c.complete parity slots).slots[i]? =
    slots[i]?.map fun slot => slot.or
      (if i < c.data ∨ parity = true then
        some (interpolate (slots.held.take c.data) size i) else none) := by
  rw [complete_eq count positive even enough parity]
  simp [List.getElem?_map, List.getElem?_zipIdx, Option.map_map, Function.comp_def]

theorem complete_filled (parity : Bool) :
    c.Filled parity size slots (c.complete parity slots).slots := by
  have after := complete_get count positive even enough parity
  refine ⟨by rw [complete_eq count positive even enough parity]; simp, ?_, ?_, ?_⟩
  · intro i s there
    rw [after, there]
    rfl
  · intro i empty due
    refine ⟨_, by rw [after, empty, Option.map_some, if_pos due]; rfl, ?_⟩
    exact interpolate_length _ _ _ fun t member => held_even even t (List.mem_of_mem_take member)
  · intro i empty undue
    rw [after, empty, Option.map_some, if_neg undue]
    rfl

end Complete

theorem complete_completes (c : Code) : c.Completes c.complete := by
  intro parity slots size count positive even enough
  refine ⟨?_, complete_filled count positive even enough parity⟩
  rw [complete_eq count positive even enough parity]

end Code
end StripeRecovery
