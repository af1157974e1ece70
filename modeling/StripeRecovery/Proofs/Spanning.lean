import StripeRecovery.Proofs.Detection
import StripeRecovery.Proofs.Repair

/-!
As many samples as there are data positions span a stripe: whatever bytes they hold, there is
one stripe that has them at their positions. The samples that a repair reads are of that kind.
-/
namespace StripeRecovery

variable {samples : List Sample} {size : Nat}

theorem interpolate_at_sample (even : ∀ s ∈ samples, s.shard.length = size)
    (distinct : (pointsOf samples).Nodup) {s : Sample} (member : s ∈ samples) :
    interpolate samples size s.position = s.shard := by
  apply shard_ext (interpolate_length samples size _ even) (even s member)
  intro j _
  obtain ⟨f, small, values⟩ := exists_column distinct j
  rw [interpolate_symbol even distinct small values, values s member]

namespace Code
variable {c : Code} {shards : List Shard} {present : List Bool} {offset length i : Nat}

theorem width_le_256 (c : Code) : c.width ≤ 256 := c.width_le

def spanned (c : Code) (samples : List Sample) (size : Nat) : List Shard :=
  (List.range c.width).map (interpolate samples size)

theorem spanned_get (inside : i < c.width) :
    (c.spanned samples size)[i]? = some (interpolate samples size i) := by
  simp [spanned, inside]

theorem spanned_isStripe (enough : samples.length = c.data)
    (even : ∀ s ∈ samples, s.shard.length = size) (distinct : (pointsOf samples).Nodup) :
    c.IsStripe size (c.spanned samples size) := by
  refine ⟨by simp [spanned], ?_, ?_⟩
  · intro s member
    obtain ⟨i, _, rfl⟩ := List.mem_map.mp member
    exact interpolate_length samples size i even
  · intro j
    obtain ⟨f, small, values⟩ := exists_column distinct j
    refine ⟨f, by rwa [enough] at small, ?_⟩
    intro i s there
    have inside : i < c.width := by
      have bound := (List.getElem?_eq_some_iff.mp there).1
      simpa [spanned] using bound
    rw [spanned_get inside, Option.some_inj] at there
    rw [← there, interpolate_symbol even distinct small values]

theorem parityOf_spanned (enough : samples.length = c.data)
    (even : ∀ s ∈ samples, s.shard.length = size) (distinct : (pointsOf samples).Nodup)
    (isParity : c.data ≤ i) (inside : i < c.width) :
    (c.parityOf ((List.range c.data).map (interpolate samples size)) size)[i - c.data]? =
      some (interpolate samples size i) := by
  have code := spanned_isStripe (c := c) enough even distinct
  have data : (c.spanned samples size).take c.data =
      (List.range c.data).map (interpolate samples size) := by
    rw [spanned, ← List.map_take, List.take_range, Nat.min_eq_left (by simp only [width]; omega)]
  have same := (recode_same_iff code.width code.even).mpr code
  rw [recode_eq code.width code.even, data] at same
  rw [← spanned_get inside, ← same, List.getElem?_append_right (by simpa using isParity),
    List.length_map, List.length_range]

def firstPresent (c : Code) (present : List Bool) : List Nat :=
  ((List.range present.length).filter fun i => present.getD i false).take c.data

theorem mem_firstPresent (member : i ∈ c.firstPresent present) : present[i]? = some true := by
  have chosen := List.of_mem_filter (List.mem_of_mem_take member)
  rw [List.getD_eq_getElem?_getD] at chosen
  cases found : present[i]? with
  | none => simp [found] at chosen
  | some flag => simpa [found] using chosen

theorem witnesses_eq (flags : present.length = shards.length) :
    c.witnesses shards present offset length =
      (c.firstPresent present).map fun i => ⟨i, (shards.getD i []).cut offset length⟩ := by
  have pairs : (samplesOf shards).zip present =
      (List.range present.length).map fun i => (⟨i, shards.getD i []⟩, present.getD i false) := by
    apply List.ext_getElem
    · simp [samplesOf_length, flags]
    · intro i hi hi'
      have inside : i < present.length := by simpa using hi'
      have inside' : i < shards.length := by omega
      simp [samplesOf, inside, inside']
  rw [witnesses, pairs, firstPresent, List.filter_map, List.map_map, List.map_take]
  rfl

theorem witnesses_even (long : ∀ s ∈ shards, offset + length ≤ s.length) :
    ∀ s ∈ c.witnesses shards present offset length, s.shard.length = length := by
  intro s member
  obtain ⟨shard, found, _, cut⟩ := mem_witnesses member
  rw [cut]
  exact cut_length (long shard (List.mem_of_getElem? found))

end Code
end StripeRecovery
