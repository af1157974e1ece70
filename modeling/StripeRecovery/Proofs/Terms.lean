import StripeRecovery.Proofs.Slots

/-!
The terms of a repair: what it refuses, what it counts and what it leaves alone. They hold
whatever the filler of the slots writes, as long as it completes them.
-/
namespace StripeRecovery
namespace Code

variable {c : Code} {shards : List Shard} {present : List Bool} {offset length : Nat}
  {recreate : Bool}

/-- What a call for a repair may do. A call that is refused has touched nothing. Else all absent
    data are counted, and absent parity if it is regenerated; no shard changes its size, only
    regenerated ones change at all, and these only in the range. -/
structure Terms (c : Code) (shards : List Shard) (present : List Bool) (offset length : Nat)
    (recreate : Bool) (attempt : Attempt RepairCount) : Prop where
  refused : (∃ e, attempt.result = .error e) ↔
    shards.length ≠ c.width ∨ present.length ≠ c.width ∨ present.count true < c.data ∨
      ∃ s ∈ shards, s.length < offset + length
  untouched : ∀ e, attempt.result = .error e →
    attempt.shards = shards ∧ ∀ stripe reason, e ≠ .decoding stripe reason
  counts : ∀ count, attempt.result = .ok count → count =
    if length = 0 then ⟨0, 0⟩
    else ⟨(present.take c.data).count false,
      if recreate = true ∨ ∀ j < c.data, present[j]? = some true then
        (present.drop c.data).count false else 0⟩
  size : attempt.shards.length = shards.length
  frame : ∀ (i : Nat) (s t : Shard), shards[i]? = some s → attempt.shards[i]? = some t →
    t.length = s.length ∧ (present[i]? = some true → t = s) ∧
      (∀ j, j < offset ∨ offset + length ≤ j → t[j]? = s[j]?) ∧
      (¬ c.Regenerates present recreate i → t = s)

theorem terms_of_refused {e : Error}
    (refused : c.refusal? shards present (offset + length) = some e) :
    c.Terms shards present offset length recreate ⟨shards, .error e⟩ := by
  obtain ⟨unfit, other⟩ := refusal_cases refused
  refine ⟨⟨fun _ => unfit, fun _ => ⟨e, rfl⟩⟩, ?_, by simp, rfl, ?_⟩
  · intro e' failed
    obtain rfl := Except.error.inj failed
    exact ⟨rfl, other⟩
  · intro i s t before after
    obtain rfl := Option.some.inj (before.symm.trans after)
    exact ⟨rfl, fun _ => rfl, fun _ _ => rfl, fun _ => rfl⟩

theorem terms_of_accepted (accepts : c.Accepts shards present (offset + length))
    {after : List Shard} {count : RepairCount} (size : after.length = shards.length)
    (places : ∀ (i : Nat) (s : Shard), shards[i]? = some s → after[i]? = some s ∨
      c.Regenerates present recreate i ∧
        ∃ piece : Shard, piece.length = length ∧ after[i]? = some (s.splice offset piece))
    (counts : count = c.counted present length recreate) :
    c.Terms shards present offset length recreate ⟨after, .ok count⟩ := by
  obtain ⟨shardCount, flagCount, enough, long⟩ := accepts
  refine ⟨⟨by simp, ?_⟩, by simp, ?_, size, ?_⟩
  · rintro (wrong | wrong | few | ⟨s, member, short⟩)
    · exact absurd shardCount wrong
    · exact absurd flagCount wrong
    · omega
    · have := long s member
      omega
  · intro count' done
    obtain rfl := Except.ok.inj done
    exact counts
  · intro i s t before there
    rcases places i s before with same | ⟨regenerates, piece, pieceSize, spliced⟩
    · obtain rfl := Option.some.inj (same.symm.trans there)
      exact ⟨rfl, fun _ => rfl, fun _ _ => rfl, fun _ => rfl⟩
    · obtain rfl := Option.some.inj (spliced.symm.trans there)
      have inside : offset + piece.length ≤ s.length := by
        rw [pieceSize]
        exact long s (List.mem_of_getElem? before)
      refine ⟨splice_length inside, ?_, ?_, fun spared => absurd regenerates spared⟩
      · intro isThere
        simp [Regenerates, isThere] at regenerates
      · intro j outside
        rw [splice_get inside, if_neg (by omega)]

theorem repairWith_terms {fill : Filler} (completes : c.Completes fill) :
    c.Terms shards present offset length recreate
      (c.repairWith fill shards present offset length recreate) := by
  cases refused : c.refusal? shards present (offset + length) with
  | some e =>
    rw [repairWith_refused refused]
    exact terms_of_refused refused
  | none =>
    have accepts := accepts_iff.mpr refused
    cases work : present.all id || length == 0 with
    | true =>
      rw [repairWith_idle accepts work]
      apply terms_of_accepted accepts rfl fun i s shard => .inl shard
      -- Nothing is due here; the direct repair says so too.
      have direct := repair_counts accepts recreate
      rw [repair_idle accepts work] at direct
      exact Except.ok.inj direct
    | false =>
      have positive := busy_positive work
      obtain ⟨after, done, filled⟩ := completes.filled accepts positive
        (c.wantsParity present recreate)
      rw [repairWith_filled accepts work done filled]
      apply terms_of_accepted accepts
      · simp
      · intro i s shard
        rw [List.getElem?_map, List.getElem?_zipIdx, shard]
        rcases filled_get accepts.flags accepts.count filled shard with ⟨_, spared, _⟩ |
          ⟨_, spared, _⟩ | ⟨_, regenerates, piece, slot, size⟩
        · exact .inl (by simp [spared])
        · exact .inl (by simp [spared])
        · exact .inr ⟨regenerates, piece, size, by simp [regenerates, slot]⟩
      · rfl

/-- Every call for a repair keeps to the terms, with any filler that completes the slots it is
    given; in particular no such call fails in the filler. The direct repair does the same: it is
    what the filler of the code makes of the call. -/
theorem repair_keeps_terms (c : Code) (fill : Filler) (completes : c.Completes fill)
    (shards : List Shard) (present : List Bool) (offset length : Nat) (recreate : Bool) :
    c.Terms shards present offset length recreate
        (c.repairWith fill shards present offset length recreate) ∧
      c.Terms shards present offset length recreate
        (c.repair shards present offset length recreate) ∧
      c.repairWith c.complete shards present offset length recreate =
        c.repair shards present offset length recreate := by
  have direct := repairWith_complete c shards present offset length recreate
  refine ⟨repairWith_terms completes, ?_, direct⟩
  rw [← direct]
  exact repairWith_terms c.complete_completes

/-- The middle bytes of a data shard and a parity shard are asked for; then one byte more than
    there is. -/
theorem repair_keeps_terms_middle_bytes :
    let c : Code := ⟨2, 2, by decide, by decide, by decide⟩
    let shards : List Shard := [[9, 9, 9], [3, 4, 5], [0, 0, 0], [7, 129, 1]]
    let present := [false, true, false, true]
    let attempt := c.repairWith c.complete shards present 1 1 true
    let past := c.repairWith c.complete shards present 1 3 true
    c.Completes c.complete ∧ attempt.shards = [[9, 200, 9], [3, 4, 5], [0, 77, 0], [7, 129, 1]] ∧
      attempt.result = .ok ⟨1, 1⟩ ∧ c.Terms shards present 1 1 true attempt ∧
      past.shards = shards ∧ past.result = .error (.code (.shortShard 0 3 4)) := by
  intro c shards present attempt past
  have completes := c.complete_completes
  have terms := (repair_keeps_terms c c.complete completes shards present 1 1 true).1
  have refused := (repair_keeps_terms c c.complete completes shards present 1 3 true).1
  have failed : past.result = .error (.code (.shortShard 0 3 4)) := by decide +kernel
  have done : attempt.result = .ok ⟨1, 1⟩ := by decide +kernel
  exact ⟨completes, by decide +kernel, done, terms, (refused.untouched _ failed).1, failed⟩

end Code
end StripeRecovery
