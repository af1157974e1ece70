import StripeRecovery.Proofs.Ranges

/-!
What a repair reads. The range of the first `data` shards that are present decides all that is
written, parity included, though that is made from regenerated data as well. So a second call
has nothing to change, and with no shard to spare every content can be completed to a stripe.
-/
namespace StripeRecovery
namespace Code

variable {c : Code} {shards others : List Shard} {present : List Bool} {offset length i : Nat}
  {recreate : Bool}

theorem cut_regenerated (accepts : c.Accepts shards present (offset + length))
    (regenerates : c.Regenerates present recreate i) :
    ∃ s, (c.repair shards present offset length recreate).shards[i]? = some s ∧
      s.cut offset length =
        interpolate (c.witnesses shards present offset length) length i := by
  have inside : i < shards.length := by
    have := (List.getElem?_eq_some_iff.mp regenerates.1).1
    have := accepts.sameLength
    omega
  have shard := List.getElem?_eq_getElem inside
  have long := accepts.long _ (List.mem_of_getElem? shard)
  have size := interpolate_witnesses_length accepts i
  refine ⟨_, by rw [repair_get accepts, shard, Option.map_some, if_pos regenerates], ?_⟩
  generalize interpolate (c.witnesses shards present offset length) length i = piece at size ⊢
  have back : (shards[i].splice offset piece).cut offset piece.length = piece :=
    cut_splice (by omega)
  rwa [size] at back

theorem agree_getD (count : shards.length = c.width) (countOthers : others.length = c.width)
    (agree : ∀ i ∈ c.firstPresent present, ∀ s t : Shard, shards[i]? = some s →
      others[i]? = some t → s.cut offset length = t.cut offset length) :
    ∀ i ∈ c.firstPresent present,
      (shards.getD i []).cut offset length = (others.getD i []).cut offset length := by
  intro i member
  by_cases inside : i < c.width
  · have shard := List.getElem?_eq_getElem (l := shards) (i := i) (by omega)
    have other := List.getElem?_eq_getElem (l := others) (i := i) (by omega)
    rw [List.getD_eq_getElem?_getD, List.getD_eq_getElem?_getD, shard, other]
    exact agree i member _ _ shard other
  · rw [List.getD_eq_getElem?_getD, List.getD_eq_getElem?_getD,
      List.getElem?_eq_none (by omega), List.getElem?_eq_none (by omega)]

theorem repair_again : c.repair (c.repair shards present offset length recreate).shards present
    offset length recreate = c.repair shards present offset length recreate := by
  cases refused : c.refusal? shards present (offset + length) with
  | some e => rw [repair_refused refused, repair_refused refused]
  | none =>
    have accepts := accepts_iff.mpr refused
    have acceptsAgain : c.Accepts (c.repair shards present offset length recreate).shards present
        (offset + length) := accepts.congr repair_sizes
    have same : (c.repair (c.repair shards present offset length recreate).shards present offset
        length recreate).shards = (c.repair shards present offset length recreate).shards := by
      apply List.ext_getElem?
      intro i
      rw [repair_get acceptsAgain, repair_get accepts, witnesses_repaired accepts.sameLength,
        Option.map_map]
      cases shard : shards[i]? with
      | none => rfl
      | some s =>
        have long := accepts.long s (List.mem_of_getElem? shard)
        have size := interpolate_witnesses_length accepts i
        simp only [Option.map_some, Function.comp_apply]
        split
        · rw [splice_again (by omega) rfl]
        · rfl
    rw [repair_pair acceptsAgain, same, ← repair_pair accepts]

theorem firstPresent_all (exact : present.count true = c.data) (there : present[i]? = some true) :
    i ∈ c.firstPresent present := by
  have chosen : ((List.range present.length).filter fun i => present.getD i false).length =
      c.data := by
    have whole : present = (List.range present.length).map fun i => present.getD i false := by
      apply List.ext_getElem
      · simp
      · intro i hi hi'
        simp [hi]
    rw [← exact, ← List.countP_eq_length_filter]
    conv_rhs => rw [whole, List.count, List.countP_map]
    congr 1
    funext i
    simp
  rw [firstPresent, List.take_of_length_le (by omega), List.mem_filter, List.mem_range,
    List.getD_eq_getElem?_getD, there]
  exact ⟨(List.getElem?_eq_some_iff.mp there).1, rfl⟩

theorem repair_spans {size : Nat} (count : shards.length = c.width)
    (flags : present.length = c.width) (exact : present.count true = c.data)
    (even : ∀ s ∈ shards, s.length = size) :
    (c.repair shards present 0 size true).shards =
      c.spanned (c.witnesses shards present 0 size) size := by
  have accepts : c.Accepts shards present (0 + size) := .whole count flags (by omega) even
  have same := accepts.sameLength
  have distinct : (pointsOf (c.witnesses shards present 0 size)).Nodup :=
    witnesses_distinct same (by rw [count]; exact c.width_le_256)
  apply List.ext_getElem?
  intro i
  rw [repair_get accepts]
  by_cases inside : i < c.width
  · have shard := List.getElem?_eq_getElem (l := shards) (i := i) (by omega)
    have shardSize := even _ (List.mem_of_getElem? shard)
    have pieceSize := interpolate_witnesses_length accepts i
    rw [spanned_get inside, shard, Option.map_some, Option.some_inj]
    rcases flag_cases (i := i) (by omega : i < present.length) with flag | flag
    · have sample : (⟨i, shards[i]⟩ : Sample) ∈ c.witnesses shards present 0 size := by
        rw [witnesses_eq same, List.mem_map]
        refine ⟨i, firstPresent_all exact flag, ?_⟩
        rw [List.getD_eq_getElem?_getD, shard, Option.getD_some, cut_whole shardSize]
      rw [if_neg (by simp [Regenerates, flag])]
      exact (interpolate_at_sample (witnesses_even accepts.long) distinct sample).symm
    · rw [if_pos ⟨flag, .inr (.inl rfl)⟩, splice_whole (by omega)]
  · rw [List.getElem?_eq_none (by omega), List.getElem?_eq_none (by simp [spanned]; omega)]
    rfl

theorem repair_verifies {size : Nat} (positive : 0 < size) (count : shards.length = c.width)
    (flags : present.length = c.width) (exact : present.count true = c.data)
    (even : ∀ s ∈ shards, s.length = size) :
    c.verify (c.repair shards present 0 size true).shards = .ok true := by
  have accepts : c.Accepts shards present (0 + size) := .whole count flags (by omega) even
  have same := accepts.sameLength
  have code : c.IsStripe size (c.repair shards present 0 size true).shards := by
    rw [repair_spans count flags exact even]
    apply spanned_isStripe
    · exact witnesses_length same (by omega)
    · exact witnesses_even accepts.long
    · exact witnesses_distinct same (by rw [count]; exact c.width_le_256)
  rw [verify_eq positive code.width code.even, (recode_same_iff code.width code.even).mpr code]
  simp

/-- Two calls for a repair that find the same bytes in the range of the first `data` present
    shards write the same bytes into the range of every shard they regenerate, whatever the
    absent shards were filled with and whatever other shards are present. A call repeated on
    what it left changes nothing and counts the same. If just `data` shards are present, of any
    content, then a repair of all bytes, parity included, leaves a stripe. -/
theorem repair_reads_first_present (c : Code) {present : List Bool}
    (flags : present.length = c.width) (enough : c.data ≤ present.count true) (recreate : Bool) :
    (∀ (shards others : List Shard) (offset length : Nat), shards.length = c.width →
      others.length = c.width → (∀ s ∈ shards, offset + length ≤ s.length) →
      (∀ s ∈ others, offset + length ≤ s.length) →
      (∀ i ∈ c.firstPresent present, ∀ s t : Shard, shards[i]? = some s → others[i]? = some t →
        s.cut offset length = t.cut offset length) →
      let attempt := c.repairWith c.complete shards present offset length recreate
      let other := c.repairWith c.complete others present offset length recreate
      (∃ counts, attempt.result = .ok counts ∧ other.result = .ok counts) ∧
        ∀ i, c.Regenerates present recreate i → ∃ s t, attempt.shards[i]? = some s ∧
          other.shards[i]? = some t ∧ s.cut offset length = t.cut offset length) ∧
    (∀ (shards : List Shard) (offset length : Nat),
      let attempt := c.repairWith c.complete shards present offset length recreate
      c.repairWith c.complete attempt.shards present offset length recreate = attempt ∧
        attempt = c.repair shards present offset length recreate) ∧
    ∀ (shards : List Shard) (size : Nat), 0 < size → shards.length = c.width →
      (∀ s ∈ shards, s.length = size) → present.count true = c.data →
      let attempt := c.repairWith c.complete shards present 0 size true
      (∃ counts, attempt.result = .ok counts) ∧ c.verify attempt.shards = .ok true := by
  refine ⟨?_, ?_, ?_⟩
  · intro shards others offset length count countOthers long longOthers agree attempt other
    have accepts : c.Accepts shards present (offset + length) := ⟨count, flags, enough, long⟩
    have acceptsOther : c.Accepts others present (offset + length) :=
      ⟨countOthers, flags, enough, longOthers⟩
    have reads : c.witnesses others present offset length =
        c.witnesses shards present offset length :=
      witnesses_congr accepts.sameLength (by omega) (agree_getD count countOthers agree)
    simp only [attempt, other, repairWith_complete]
    refine ⟨⟨_, repair_counts accepts recreate, repair_counts acceptsOther recreate⟩, ?_⟩
    intro i regenerates
    obtain ⟨s, shard, cut⟩ := cut_regenerated accepts regenerates
    obtain ⟨t, shard', cut'⟩ := cut_regenerated acceptsOther regenerates
    exact ⟨s, t, shard, shard', by rw [cut, cut', reads]⟩
  · intro shards offset length attempt
    simp only [attempt, repairWith_complete]
    exact ⟨repair_again, trivial⟩
  · intro shards size positive count even exact attempt
    simp only [attempt, repairWith_complete]
    exact ⟨⟨_, repair_counts (.whole count flags enough even) true⟩,
      repair_verifies positive count flags exact even⟩

/-- The absent shards and the parity to spare differ; then there is none to spare. -/
theorem repair_reads_first_present_other_rest :
    let c : Code := ⟨2, 2, by decide, by decide, by decide⟩
    let present := [false, true, true, true]
    let shards : List Shard := [[0, 0], [3, 4], [5, 77], [7, 129]]
    let others : List Shard := [[9, 9, 9], [3, 4], [5, 77], [1, 1]]
    let attempt := c.repairWith c.complete shards present 0 2 false
    let other := c.repairWith c.complete others present 0 2 false
    c.firstPresent present = [1, 2] ∧ c.Regenerates present false 0 ∧
      (∃ s t, attempt.shards[0]? = some s ∧ other.shards[0]? = some t ∧ s.cut 0 2 = t.cut 0 2) ∧
      c.repairWith c.complete other.shards present 0 2 false = other ∧
      other.shards = [[1, 200, 9], [3, 4], [5, 77], [1, 1]] ∧
      c.verify (c.repairWith c.complete [[9, 9], [3, 4], [0, 0], [1, 1]]
        [false, true, false, true] 0 2 true).shards = .ok true := by
  intro c present shards others attempt other
  have first : c.firstPresent present = [1, 2] := by decide
  have regenerates : c.Regenerates present false 0 := by decide
  have agree : ∀ i ∈ c.firstPresent present, ∀ s t : Shard, shards[i]? = some s →
      others[i]? = some t → s.cut 0 2 = t.cut 0 2 := by
    intro i member s t shard shard'
    rw [first] at member
    rcases List.mem_cons.mp member with rfl | last
    · exact congrArg (Shard.cut · 0 2) (Option.some.inj (shard.symm.trans shard'))
    · obtain rfl := List.mem_singleton.mp last
      exact congrArg (Shard.cut · 0 2) (Option.some.inj (shard.symm.trans shard'))
  obtain ⟨same, again, _⟩ :=
    @repair_reads_first_present c present rfl (by decide) false
  obtain ⟨_, ranges⟩ := same shards others 0 2 rfl rfl (by decide) (by decide) agree
  obtain ⟨_, _, stripe⟩ :=
    @repair_reads_first_present c [false, true, false, true] rfl (by decide) true
  exact ⟨first, regenerates, ranges 0 regenerates, (again others 0 2).1, by decide +kernel,
    (stripe [[9, 9], [3, 4], [0, 0], [1, 1]] 2 (by decide) rfl (by decide) (by decide)).2⟩

end Code
end StripeRecovery
