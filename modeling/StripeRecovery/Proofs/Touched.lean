import StripeRecovery.Proofs.Spanning

/-!
What a repair touches. A call that is refused touches nothing; the reasons for it can be seen
from the call. Else the range of each regenerated shard is replaced, and nothing else.
-/
namespace StripeRecovery

section Splice
variable {s piece : Shard} {offset j : Nat}

theorem splice_length (inside : offset + piece.length ≤ s.length) :
    (s.splice offset piece).length = s.length := by
  simp only [Shard.splice, List.length_append, List.length_take, List.length_drop]
  omega

theorem splice_get (inside : offset + piece.length ≤ s.length) : (s.splice offset piece)[j]? =
    if offset ≤ j ∧ j < offset + piece.length then piece[j - offset]? else s[j]? := by
  have start : (s.take offset).length = offset := by
    rw [List.length_take]
    omega
  rw [Shard.splice, List.append_assoc]
  by_cases early : j < offset
  · rw [if_neg (by omega), List.getElem?_append_left (by omega), List.getElem?_take, if_pos early]
  · rw [List.getElem?_append_right (by omega), start]
    by_cases within : j - offset < piece.length
    · rw [if_pos (by omega), List.getElem?_append_left within]
    · rw [if_neg (by omega), List.getElem?_append_right (by omega), List.getElem?_drop]
      congr 1
      omega

theorem splice_nil (s : Shard) (offset : Nat) : s.splice offset [] = s := by
  simp [Shard.splice]

theorem splice_again {other : Shard} (inside : offset + piece.length ≤ s.length)
    (same : other.length = piece.length) :
    (s.splice offset piece).splice offset other = s.splice offset other := by
  have size := splice_length inside
  apply List.ext_getElem?
  intro j
  rw [splice_get (by omega), splice_get inside, splice_get (by omega)]
  split
  · rfl
  · rw [if_neg (by omega)]

theorem splice_append {next : Shard} (inside : offset + piece.length + next.length ≤ s.length) :
    (s.splice offset piece).splice (offset + piece.length) next =
      s.splice offset (piece ++ next) := by
  have size : (s.splice offset piece).length = s.length := splice_length (by omega)
  apply List.ext_getElem?
  intro j
  rw [splice_get (by omega), splice_get (by omega),
    splice_get (by rw [List.length_append]; omega), List.length_append]
  by_cases early : j < offset + piece.length
  · rw [if_neg (by omega)]
    by_cases before : j < offset
    · rw [if_neg (by omega), if_neg (by omega)]
    · rw [if_pos (by omega), if_pos (by omega), List.getElem?_append_left (by omega)]
  · by_cases within : j < offset + piece.length + next.length
    · rw [if_pos (by omega), if_pos (by omega), List.getElem?_append_right (by omega)]
      congr 1
      omega
    · rw [if_neg (by omega), if_neg (by omega), if_neg (by omega)]

theorem cut_splice (inside : offset + piece.length ≤ s.length) :
    (s.splice offset piece).cut offset piece.length = piece := by
  apply List.ext_getElem?
  intro j
  rw [Shard.cut, List.getElem?_take]
  by_cases within : j < piece.length
  · rw [if_pos within, List.getElem?_drop, splice_get inside, if_pos (by omega)]
    congr 1
    omega
  · rw [if_neg within, List.getElem?_eq_none (by omega)]

end Splice

namespace Code
variable {c : Code} {shards : List Shard} {present : List Bool} {offset length : Nat}
  {recreate : Bool}

def Regenerates (c : Code) (present : List Bool) (recreate : Bool) (i : Nat) : Prop :=
  present[i]? = some false ∧ (i < c.data ∨ recreate = true ∨ ∀ j < c.data, present[j]? = some true)

instance (present : List Bool) (recreate : Bool) (i : Nat) :
    Decidable (c.Regenerates present recreate i) :=
  inferInstanceAs (Decidable (_ ∧ _))

/-- What a repair counts: absent data, and absent parity if it is regenerated; nothing if the
    range is empty. -/
def counted (c : Code) (present : List Bool) (length : Nat) (recreate : Bool) : RepairCount :=
  if length = 0 then ⟨0, 0⟩
  else ⟨(present.take c.data).count false,
    if recreate = true ∨ ∀ j < c.data, present[j]? = some true then
      (present.drop c.data).count false else 0⟩

theorem data_le_flags (flags : present.length = c.width) : c.data ≤ present.length := by
  simp only [flags, width]
  omega

theorem regenerates_iff (flags : present.length = c.width) {i : Nat} :
    c.Regenerates present recreate i ↔ c.writes present recreate i = true := by
  rw [writes_iff, wantsParity_iff (data_le_flags flags)]
  rfl

theorem refusal_cases {past : Nat} {e : Error} (refused : c.refusal? shards present past = some e) :
    (shards.length ≠ c.width ∨ present.length ≠ c.width ∨ present.count true < c.data ∨
      ∃ s ∈ shards, s.length < past) ∧ ∀ stripe reason, e ≠ .decoding stripe reason := by
  simp only [refusal?] at refused
  split at refused
  · rename_i shardCount
    obtain rfl := Option.some.inj refused
    exact ⟨.inl shardCount, by simp⟩
  · split at refused
    · rename_i flagCount
      obtain rfl := Option.some.inj refused
      exact ⟨.inr (.inl flagCount), by simp⟩
    · split at refused
      · rename_i few
        obtain rfl := Option.some.inj refused
        exact ⟨.inr (.inr (.inl few)), by simp⟩
      · split at refused
        · rename_i shard i found
          obtain rfl := Option.some.inj refused
          have short := List.find?_some found
          have member := List.fst_mem_of_mem_zipIdx (List.mem_of_find?_eq_some found)
          exact ⟨.inr (.inr (.inr ⟨shard, member, by simpa using short⟩)), by simp⟩
        · simp at refused

structure Accepts (c : Code) (shards : List Shard) (present : List Bool) (past : Nat) : Prop where
  count : shards.length = c.width
  flags : present.length = c.width
  enough : c.data ≤ present.count true
  long : ∀ s ∈ shards, past ≤ s.length

theorem accepts_iff {past : Nat} :
    c.Accepts shards present past ↔ c.refusal? shards present past = none := by
  constructor
  · rintro ⟨count, flags, enough, long⟩
    exact refusal_none count flags enough long
  · intro accepted
    by_contra unfit
    simp only [refusal?] at accepted
    split at accepted
    · simp at accepted
    · split at accepted
      · simp at accepted
      · split at accepted
        · simp at accepted
        · split at accepted
          · simp at accepted
          · rename_i count flags enough _ found
            refine unfit ⟨not_not.mp count, not_not.mp flags, Nat.not_lt.mp enough, ?_⟩
            intro s member
            obtain ⟨i, there⟩ := List.mem_iff_getElem?.mp member
            have pair : (s, i) ∈ shards.zipIdx := List.mem_zipIdx_iff_getElem?.mpr there
            have unshort := List.find?_eq_none.mp found (s, i) pair
            simpa using unshort

theorem Accepts.sameLength {past : Nat} (accepts : c.Accepts shards present past) :
    present.length = shards.length := by
  rw [accepts.flags, accepts.count]

theorem Accepts.whole {size : Nat} (count : shards.length = c.width)
    (flags : present.length = c.width) (enough : c.data ≤ present.count true)
    (even : ∀ s ∈ shards, s.length = size) : c.Accepts shards present (0 + size) := by
  refine ⟨count, flags, enough, ?_⟩
  intro s member
  have := even s member
  omega

theorem Accepts.congr {others : List Shard} {past : Nat} (accepts : c.Accepts shards present past)
    (sizes : others.map List.length = shards.map List.length) : c.Accepts others present past := by
  have count : others.length = shards.length := by simpa using congrArg List.length sizes
  refine ⟨count.trans accepts.count, accepts.flags, accepts.enough, ?_⟩
  intro s member
  have size : s.length ∈ shards.map List.length := by
    rw [← sizes]
    exact List.mem_map_of_mem member
  obtain ⟨t, shard, same⟩ := List.mem_map.mp size
  rw [← same]
  exact accepts.long t shard

theorem repair_nothing (accepts : c.Accepts shards present (offset + 0)) :
    c.repair shards present offset 0 recreate = ⟨shards, .ok ⟨0, 0⟩⟩ := by
  simp only [repair, accepts_iff.mp accepts, ↓reduceIte]

section Accepted
variable (accepts : c.Accepts shards present (offset + length))
include accepts

theorem interpolate_witnesses_length (i : Nat) :
    (interpolate (c.witnesses shards present offset length) length i).length = length :=
  interpolate_length _ length i (witnesses_even accepts.long)

theorem repair_get (i : Nat) : (c.repair shards present offset length recreate).shards[i]? =
    shards[i]?.map fun s => if c.Regenerates present recreate i then
      s.splice offset (interpolate (c.witnesses shards present offset length) length i) else s := by
  by_cases empty : length = 0
  · subst empty
    have nothing := List.length_eq_zero_iff.mp (interpolate_witnesses_length accepts i)
    simp [repair_nothing accepts, nothing, splice_nil]
  · rw [repair_eq (accepts_iff.mp accepts) (by omega)]
    simp [List.getElem?_map, List.getElem?_zipIdx, Option.map_map, Function.comp_def,
      regenerates_iff accepts.flags]

theorem repair_counts (recreate : Bool) :
    (c.repair shards present offset length recreate).result =
      .ok (c.counted present length recreate) := by
  rw [counted]
  by_cases empty : length = 0
  · subst empty
    rw [repair_nothing accepts, if_pos rfl]
  · rw [repair_result (accepts_iff.mp accepts) (by omega), if_neg empty]
    simp only [wantsParity_iff (data_le_flags accepts.flags)]

theorem repair_pair : c.repair shards present offset length recreate =
    ⟨(c.repair shards present offset length recreate).shards,
      .ok (c.counted present length recreate)⟩ := by
  rw [← repair_counts accepts recreate]

end Accepted

theorem repair_refused {e : Error}
    (refused : c.refusal? shards present (offset + length) = some e) :
    c.repair shards present offset length recreate = ⟨shards, .error e⟩ := by
  simp only [repair, refused]

theorem repair_spares {i : Nat} (spared : ¬ c.Regenerates present recreate i) :
    (c.repair shards present offset length recreate).shards[i]? = shards[i]? := by
  cases refused : c.refusal? shards present (offset + length) with
  | some e => rw [repair_refused refused]
  | none =>
    rw [repair_get (accepts_iff.mpr refused)]
    simp [spared]

theorem repair_sizes : (c.repair shards present offset length recreate).shards.map List.length =
    shards.map List.length := by
  cases refused : c.refusal? shards present (offset + length) with
  | some e => rw [repair_refused refused]
  | none =>
    have accepts := accepts_iff.mpr refused
    apply List.ext_getElem?
    intro i
    rw [List.getElem?_map, List.getElem?_map, repair_get accepts]
    cases shard : shards[i]? with
    | none => rfl
    | some s =>
      have long := accepts.long s (List.mem_of_getElem? shard)
      have size := interpolate_witnesses_length accepts i
      simp only [Option.map_some]
      split
      · rw [splice_length (by omega)]
      · rfl

theorem repair_length :
    (c.repair shards present offset length recreate).shards.length = shards.length := by
  have sizes : (c.repair shards present offset length recreate).shards.map List.length =
      shards.map List.length := repair_sizes
  simpa using congrArg List.length sizes

end Code
end StripeRecovery
