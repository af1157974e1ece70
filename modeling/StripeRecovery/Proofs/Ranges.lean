import StripeRecovery.Proofs.Slots

/-!
A repair works column by column: what it writes at an offset depends on the bytes at that offset
only. So the range may be cut out first, or repaired piece by piece.
-/
namespace StripeRecovery

theorem cut_cut (s : Shard) {offset length start size : Nat} (inside : start + size ≤ length) :
    (s.cut offset length).cut start size = s.cut (offset + start) size := by
  rw [Shard.cut, Shard.cut, Shard.cut, List.drop_take, List.take_take, List.drop_drop,
    Nat.min_eq_left (by omega)]

theorem cut_append (s : Shard) (first second : Nat) :
    s.cut 0 first ++ s.cut first second = s.cut 0 (first + second) := by
  simp only [Shard.cut, List.drop_zero]
  rw [List.take_add]

theorem splice_halves {s piece : Shard} {offset first second : Nat}
    (size : piece.length = first + second) (inside : offset + (first + second) ≤ s.length) :
    (s.splice offset (piece.cut 0 first)).splice (offset + first) (piece.cut first second) =
      s.splice offset piece := by
  have sizeFirst : (piece.cut 0 first).length = first := cut_length (by omega)
  have sizeSecond : (piece.cut first second).length = second := cut_length (by omega)
  calc (s.splice offset (piece.cut 0 first)).splice (offset + first) (piece.cut first second)
      = s.splice offset (piece.cut 0 first ++ piece.cut first second) := by
        rw [← splice_append (by omega), sizeFirst]
    _ = s.splice offset piece := by rw [cut_append, cut_whole size]

theorem interpolate_cut {samples : List Sample} {size start length : Nat} (target : Nat)
    (even : ∀ s ∈ samples, s.shard.length = size) (inside : start + length ≤ size) :
    (interpolate samples size target).cut start length =
      interpolate (samples.map fun s => ⟨s.position, s.shard.cut start length⟩) length target := by
  have evenCuts : ∀ s ∈ samples.map fun s => (⟨s.position, s.shard.cut start length⟩ : Sample),
      s.shard.length = length := by
    intro s member
    obtain ⟨t, sample, rfl⟩ := List.mem_map.mp member
    exact cut_length (by rw [even t sample]; exact inside)
  have whole := interpolate_length samples size target even
  apply shard_ext (cut_length (by omega)) (interpolate_length _ length target evenCuts)
  intro j within
  rw [cut_symbol _ within, interpolate_eq, weightedSum_symbol _ size _ samples even,
    interpolate_eq, weightedSum_symbol _ length j _ evenCuts, List.map_map]
  congr 1
  apply List.map_congr_left
  intro s _
  simp only [Function.comp_apply, cut_symbol _ within, pointsOf, List.map_map, Function.comp_def]

namespace Code
variable {c : Code} {shards others : List Shard} {present : List Bool} {offset length : Nat}
  {recreate : Bool}

theorem witnesses_cut (flags : present.length = shards.length) {start size : Nat}
    (inside : start + size ≤ length) : ((c.witnesses shards present offset length).map fun s =>
      ⟨s.position, s.shard.cut start size⟩) = c.witnesses shards present (offset + start) size := by
  rw [witnesses_eq flags, witnesses_eq flags, List.map_map]
  apply List.map_congr_left
  intro i _
  simp only [Function.comp_apply, cut_cut _ inside]

theorem interpolate_part (accepts : c.Accepts shards present (offset + length)) {start size : Nat}
    (inside : start + size ≤ length) (i : Nat) :
    interpolate (c.witnesses shards present (offset + start) size) size i =
      (interpolate (c.witnesses shards present offset length) length i).cut start size := by
  rw [interpolate_cut i (witnesses_even accepts.long) inside,
    witnesses_cut accepts.sameLength inside]

theorem witnesses_of_cuts (flags : present.length = shards.length) :
    c.witnesses (shards.map (·.cut offset length)) present 0 length =
      c.witnesses shards present offset length := by
  rw [witnesses_eq (by rw [flags, List.length_map]), witnesses_eq flags]
  apply List.map_congr_left
  intro i member
  have inside : i < shards.length := by
    have := (List.getElem?_eq_some_iff.mp (mem_firstPresent member)).1
    omega
  simp [inside, cut_cut]

theorem witnesses_congr (flags : present.length = shards.length)
    (count : others.length = shards.length)
    (agree : ∀ i ∈ c.firstPresent present, (shards.getD i []).cut offset length =
      (others.getD i []).cut offset length) :
    c.witnesses others present offset length = c.witnesses shards present offset length := by
  rw [witnesses_eq (by omega), witnesses_eq flags]
  apply List.map_congr_left
  intro i member
  rw [agree i member]

theorem witnesses_repaired (flags : present.length = shards.length) (start size : Nat) :
    c.witnesses (c.repair shards present offset length recreate).shards present start size =
      c.witnesses shards present start size := by
  apply witnesses_congr flags repair_length
  intro i member
  have spared : ¬ c.Regenerates present recreate i := by
    simp [Regenerates, mem_firstPresent member]
  rw [List.getD_eq_getElem?_getD, List.getD_eq_getElem?_getD, repair_spares spared]

theorem repair_cuts (accepts : c.Accepts shards present (offset + length)) (recreate : Bool) :
    let cuts := c.repair (shards.map (·.cut offset length)) present 0 length recreate
    (c.repair shards present offset length recreate).shards =
        (shards.zipIdx.map fun (s, i) => if c.Regenerates present recreate i then
          s.splice offset (cuts.shards.getD i []) else s) ∧
      (c.repair shards present offset length recreate).result = cuts.result := by
  intro cuts
  have acceptsCuts : c.Accepts (shards.map (·.cut offset length)) present (0 + length) := by
    refine ⟨by rw [List.length_map, accepts.count], accepts.flags, accepts.enough, ?_⟩
    intro t member
    obtain ⟨s, shard, rfl⟩ := List.mem_map.mp member
    rw [cut_length (accepts.long s shard)]
    omega
  constructor
  · apply List.ext_getElem?
    intro i
    rw [repair_get accepts, List.getElem?_map, List.getElem?_zipIdx]
    cases shard : shards[i]? with
    | none => rfl
    | some s =>
      simp only [Option.map_some, Nat.zero_add]
      split
      · rename_i regenerates
        have cutLength := cut_length (accepts.long s (List.mem_of_getElem? shard))
        have piece := interpolate_witnesses_length accepts i
        rw [List.getD_eq_getElem?_getD, repair_get acceptsCuts, List.getElem?_map, shard,
          witnesses_of_cuts accepts.sameLength]
        simp only [Option.map_some, if_pos regenerates, Option.getD_some]
        rw [splice_whole (by omega)]
      · rfl
  · rw [repair_counts accepts, repair_counts acceptsCuts]

theorem repair_split {first second : Nat}
    (accepts : c.Accepts shards present (offset + (first + second))) :
    (c.repair (c.repair shards present offset first recreate).shards present (offset + first)
        second recreate).shards =
      (c.repair shards present offset (first + second) recreate).shards := by
  have flags := accepts.sameLength
  have acceptsFirst : c.Accepts shards present (offset + first) :=
    ⟨accepts.count, accepts.flags, accepts.enough, fun s member => by
      have := accepts.long s member
      omega⟩
  have acceptsSecond : c.Accepts (c.repair shards present offset first recreate).shards present
      (offset + first + second) := by
    rw [Nat.add_assoc]
    exact accepts.congr repair_sizes
  apply List.ext_getElem?
  intro i
  rw [repair_get acceptsSecond, repair_get acceptsFirst, repair_get accepts,
    witnesses_repaired flags, Option.map_map]
  cases shard : shards[i]? with
  | none => rfl
  | some s =>
    have long := accepts.long s (List.mem_of_getElem? shard)
    have size := interpolate_witnesses_length accepts i
    have pieceFirst := interpolate_part accepts (show 0 + first ≤ first + second by omega) i
    have pieceSecond := interpolate_part accepts (show first + second ≤ first + second by omega) i
    rw [Nat.add_zero] at pieceFirst
    simp only [Option.map_some, Function.comp_apply]
    split
    · rw [pieceFirst, pieceSecond, splice_halves size long]
    · rfl

/-- A repair of a range gives the same shards as a repair of the shards cut to the range, after
    which the regenerated cuts are put back; the cuts are repaired as a whole, so theirs go into
    the slots themselves and not as copies. Of two repairs one after the other, of adjacent
    ranges, it gives the same shards as well. -/
theorem repair_range_by_range (c : Code) {shards : List Shard} {present : List Bool}
    {offset length : Nat} (count : shards.length = c.width) (flags : present.length = c.width)
    (enough : c.data ≤ present.count true) (long : ∀ s ∈ shards, offset + length ≤ s.length)
    (recreate : Bool) :
    let attempt := c.repairWith c.complete shards present offset length recreate
    let cuts := c.repairWith c.complete (shards.map (·.cut offset length)) present 0 length recreate
    attempt = c.repair shards present offset length recreate ∧
      (∃ counts, attempt.result = .ok counts ∧ cuts.result = .ok counts) ∧
      (attempt.shards = shards.zipIdx.map fun (s, i) =>
        if c.Regenerates present recreate i then s.splice offset (cuts.shards.getD i []) else s) ∧
      ∀ first second, first + second = length →
        let half := c.repairWith c.complete shards present offset first recreate
        (c.repairWith c.complete half.shards present (offset + first) second recreate).shards =
          attempt.shards := by
  intro attempt cuts
  have accepts : c.Accepts shards present (offset + length) := ⟨count, flags, enough, long⟩
  have direct : attempt = c.repair shards present offset length recreate :=
    repairWith_complete c shards present offset length recreate
  have directCuts : cuts =
      c.repair (shards.map (·.cut offset length)) present 0 length recreate :=
    repairWith_complete c _ present 0 length recreate
  obtain ⟨places, result⟩ := repair_cuts accepts recreate
  have counts := repair_counts accepts recreate
  refine ⟨direct, ⟨_, by rw [direct]; exact counts, ?_⟩, ?_, ?_⟩
  · rw [directCuts, ← result]
    exact counts
  · rw [direct, directCuts]
    exact places
  · rintro first second rfl half
    have directHalf : half = c.repair shards present offset first recreate :=
      repairWith_complete c shards present offset first recreate
    rw [direct, directHalf, repairWith_complete]
    exact repair_split accepts

/-- Shards that are no stripe, of different sizes; two bytes of a lost data shard. -/
theorem repair_range_by_range_uneven :
    let c : Code := ⟨2, 1, by decide, by decide, by decide⟩
    let shards : List Shard := [[0, 0, 0, 0], [1, 2, 3], [4, 5, 6, 7, 8]]
    let present := [false, true, true]
    let attempt := c.repairWith c.complete shards present 1 2 false
    let cuts := c.repairWith c.complete [[0, 0], [2, 3], [5, 6]] present 0 2 false
    (∀ s ∈ shards, 1 + 2 ≤ s.length) ∧ c.data ≤ present.count true ∧
      attempt.shards = [0 :: (cuts.shards.getD 0 []) ++ [0], [1, 2, 3], [4, 5, 6, 7, 8]] ∧
      (c.repairWith c.complete (c.repairWith c.complete shards present 1 1 false).shards present 2 1
        false).shards = attempt.shards ∧ attempt.shards.getD 0 [] ≠ [0, 0, 0, 0] := by
  intro c shards present attempt cuts
  have long : ∀ s ∈ shards, 1 + 2 ≤ s.length := by decide
  have enough : c.data ≤ present.count true := by decide
  obtain ⟨_, _, places, halves⟩ :=
    @repair_range_by_range c shards present 1 2 rfl rfl enough long false
  refine ⟨long, enough, ?_, halves 1 1 rfl, by decide +kernel⟩
  exact places.trans (by decide +kernel)

end Code
end StripeRecovery
