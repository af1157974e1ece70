import StripeRecovery.Code.Repair
import StripeRecovery.Proofs.Stripe

/-!
What a repair writes. The witnesses are `data` shards at distinct positions; when they agree
with a stripe over the range, every regenerated range is that of the stripe.
-/
namespace StripeRecovery
open Polynomial

theorem cut_length {s : Shard} {offset length : Nat} (inside : offset + length ≤ s.length) :
    (s.cut offset length).length = length := by
  simp only [Shard.cut, List.length_take, List.length_drop]
  omega

theorem cut_symbol (s : Shard) {offset length j : Nat} (inside : j < length) :
    (s.cut offset length).symbol j = s.symbol (offset + j) := by
  simp [Shard.cut, Shard.symbol, inside]

theorem cut_whole {s : Shard} {size : Nat} (even : s.length = size) : s.cut 0 size = s := by
  simp [Shard.cut, ← even]

theorem splice_whole {s piece : Shard} (same : piece.length = s.length) :
    s.splice 0 piece = piece := by
  simp [Shard.splice, same]

namespace Code

theorem present_pairs {shards : List Shard} {present : List Bool}
    {s : Sample} {there : Bool} (member : (s, there) ∈ (samplesOf shards).zip present) :
    shards[s.position]? = some s.shard ∧ present[s.position]? = some there := by
  obtain ⟨i, at_i⟩ := List.mem_iff_getElem?.mp member
  obtain ⟨sample, flag⟩ := List.getElem?_zip_eq_some.mp at_i
  obtain ⟨inside, rfl⟩ := List.getElem?_eq_some_iff.mp sample
  have bound : i < shards.length := by simpa [samplesOf_length] using inside
  simp only [samplesOf, List.getElem_map, List.getElem_zipIdx]
  exact ⟨by simp, by simpa using flag⟩

variable {c : Code} {shards : List Shard} {present : List Bool} {offset length : Nat}

theorem mem_witnesses {s : Sample} (member : s ∈ c.witnesses shards present offset length) :
    ∃ shard, shards[s.position]? = some shard ∧ present[s.position]? = some true ∧
      s.shard = shard.cut offset length := by
  have chosen := List.mem_of_mem_take member
  simp only [List.mem_map, List.mem_filter, Prod.exists] at chosen
  obtain ⟨t, there, ⟨pair, isThere⟩, rfl⟩ := chosen
  obtain ⟨shard, flag⟩ := present_pairs pair
  exact ⟨t.shard, shard, by simpa [isThere] using flag, rfl⟩

theorem witnesses_length (flags : present.length = shards.length)
    (enough : c.data ≤ present.count true) :
    (c.witnesses shards present offset length).length = c.data := by
  have counted : (((samplesOf shards).zip present).filter (·.2)).length = present.count true := by
    have second : ((samplesOf shards).zip present).map Prod.snd = present :=
      List.map_snd_zip (by rw [samplesOf_length]; omega)
    conv_rhs => rw [← second]
    rw [← List.countP_eq_length_filter, List.count, List.countP_map]
    congr 1
    funext pair
    simp
  simp only [witnesses, List.length_take, List.length_map, counted]
  omega

theorem witnesses_distinct (flags : present.length = shards.length) (width : shards.length ≤ 256) :
    (pointsOf (c.witnesses shards present offset length)).Nodup := by
  have whole : ((samplesOf shards).zip present).map (fun s => s.1.position) =
      List.range shards.length := by
    have first : ((samplesOf shards).zip present).map Prod.fst = samplesOf shards :=
      List.map_fst_zip (by rw [samplesOf_length]; omega)
    rw [← samplesOf_positions]
    conv_rhs => rw [← first]
    rw [List.map_map]
    rfl
  apply points_distinct
  · have part : ((c.witnesses shards present offset length).map (·.position)).Sublist
        (((samplesOf shards).zip present).map fun s => s.1.position) := by
      simp only [witnesses, List.map_take, List.map_map]
      exact (List.take_sublist _ _).trans (List.filter_sublist.map _)
    exact part.nodup (by rw [whole]; exact List.nodup_range)
  · intro s hs
    obtain ⟨_, shard, _, _⟩ := mem_witnesses hs
    have := (List.getElem?_eq_some_iff.mp shard).1
    omega

theorem interpolate_witnesses {size : Nat} {stripe : List Shard} (code : c.IsStripe size stripe)
    (inside : offset + length ≤ size) (flags : present.length = shards.length)
    (count : shards.length = c.width) (enough : c.data ≤ present.count true)
    (agree : ∀ (i : Nat) (s t : Shard), present[i]? = some true → shards[i]? = some s →
      stripe[i]? = some t →
      s.cut offset length = t.cut offset length)
    {i : Nat} {t : Shard} (target : stripe[i]? = some t) :
    interpolate (c.witnesses shards present offset length) length i = t.cut offset length := by
  -- A witness shows the range of the stripe's own shard at its position.
  have shown : ∀ s ∈ c.witnesses shards present offset length, ∃ u,
      stripe[s.position]? = some u ∧ s.shard = u.cut offset length := by
    intro s hs
    obtain ⟨shard, at_s, flag, cut⟩ := mem_witnesses hs
    have bound : s.position < stripe.length := by
      have := (List.getElem?_eq_some_iff.mp at_s).1
      have := code.width
      omega
    refine ⟨stripe[s.position], List.getElem?_eq_getElem bound, ?_⟩
    rw [cut]
    exact agree _ _ _ flag at_s (List.getElem?_eq_getElem bound)
  have cutLength : ∀ u ∈ stripe, (u.cut offset length).length = length := fun u hu =>
    cut_length (by rw [code.even u hu]; exact inside)
  have even : ∀ s ∈ c.witnesses shards present offset length, s.shard.length = length := by
    intro s hs
    obtain ⟨u, at_s, cut⟩ := shown s hs
    rw [cut]
    exact cutLength u (List.mem_of_getElem? at_s)
  apply shard_ext (interpolate_length _ length i even) (cutLength t (List.mem_of_getElem? target))
  intro j hj
  obtain ⟨f, small, values⟩ := code.columns (offset + j)
  have widthLe : shards.length ≤ 256 := by have := c.width_le; simp only [count, width]; omega
  rw [cut_symbol t hj, values i t target]
  apply interpolate_symbol even (witnesses_distinct flags widthLe)
  · rwa [witnesses_length flags enough]
  · intro s hs
    obtain ⟨u, at_s, cut⟩ := shown s hs
    rw [cut, cut_symbol u hj, values _ u at_s]

theorem refusal_none {past : Nat} (count : shards.length = c.width)
    (flags : present.length = c.width) (enough : c.data ≤ present.count true)
    (long : ∀ s ∈ shards, past ≤ s.length) : c.refusal? shards present past = none := by
  have noShort : shards.zipIdx.find? (fun s => s.1.length < past) = none := by
    rw [List.find?_eq_none]
    intro s hs
    have := long s.1 (List.fst_mem_of_mem_zipIdx hs)
    simp
    omega
  simp [refusal?, count, flags, noShort]
  omega

theorem enough_of_ok {recreate : Bool} {count : RepairCount}
    (done : (c.repair shards present offset length recreate).result = .ok count) :
    c.refusal? shards present (offset + length) = none ∧ c.data ≤ present.count true := by
  have accepted : c.refusal? shards present (offset + length) = none := by
    cases refused : c.refusal? shards present (offset + length) with
    | none => rfl
    | some e => simp [repair, refused] at done
  refine ⟨accepted, ?_⟩
  by_contra few
  simp only [refusal?] at accepted
  split at accepted
  · simp at accepted
  · split at accepted
    · simp at accepted
    · simp [show present.count true < c.data by omega] at accepted

theorem repair_eq {recreate : Bool} (accepted : c.refusal? shards present (offset + length) = none)
    (positive : 0 < length) : c.repair shards present offset length recreate =
      ⟨shards.zipIdx.map fun (shard, i) =>
          if c.writes present recreate i then
            shard.splice offset (interpolate (c.witnesses shards present offset length) length i)
          else shard,
        .ok ⟨(present.take c.data).count false,
          if c.wantsParity present recreate then (present.drop c.data).count false else 0⟩⟩ := by
  have nonzero : length ≠ 0 := by omega
  simp only [repair, accepted, nonzero, ↓reduceIte]

theorem wantsParity_iff {recreate : Bool} (flags : c.data ≤ present.length) :
    c.wantsParity present recreate = true ↔
      recreate = true ∨ ∀ j < c.data, present[j]? = some true := by
  simp only [wantsParity, Bool.or_eq_true, List.all_eq_true, id_eq]
  apply or_congr Iff.rfl
  constructor
  · intro all j hj
    have inside : j < present.length := by omega
    rw [List.getElem?_eq_getElem inside]
    congr 1
    apply all
    exact List.mem_take_iff_getElem.mpr ⟨j, by omega, rfl⟩
  · intro all b hb
    obtain ⟨j, hj, rfl⟩ := List.mem_take_iff_getElem.mp hb
    have flag := all j (by omega)
    rwa [List.getElem?_eq_getElem (by omega), Option.some_inj] at flag

theorem writes_iff {recreate : Bool} {i : Nat} : c.writes present recreate i = true ↔
    present[i]? = some false ∧ (i < c.data ∨ c.wantsParity present recreate = true) := by
  simp [writes]

theorem repair_result {recreate : Bool}
    (accepted : c.refusal? shards present (offset + length) = none) (positive : 0 < length) :
    (c.repair shards present offset length recreate).result =
      .ok ⟨(present.take c.data).count false,
        if c.wantsParity present recreate then (present.drop c.data).count false else 0⟩ := by
  rw [repair_eq accepted positive]

theorem flag_cases {i : Nat} (inside : i < present.length) :
    present[i]? = some true ∨ present[i]? = some false := by
  rw [List.getElem?_eq_getElem inside]
  cases present[i] with
  | true => exact .inl rfl
  | false => exact .inr rfl

theorem repair_whole {size : Nat} {stripe : List Shard} (code : c.IsStripe size stripe)
    (positive : 0 < size) (count : shards.length = c.width) (flags : present.length = c.width)
    (enough : c.data ≤ present.count true) (even : ∀ s ∈ shards, s.length = size)
    (agree : ∀ i : Nat, present[i]? = some true → shards[i]? = stripe[i]?) (recreate : Bool) :
    (c.repair shards present 0 size recreate).shards.length = c.width ∧
      ∀ i : Nat, (c.repair shards present 0 size recreate).shards[i]? =
        if c.writes present recreate i then stripe[i]? else shards[i]? := by
  have accepted : c.refusal? shards present (0 + size) = none :=
    refusal_none count flags enough fun s hs => by have := even s hs; omega
  rw [repair_eq accepted positive]
  refine ⟨by simp [count], ?_⟩
  intro i
  simp only [List.getElem?_map, List.getElem?_zipIdx, Option.map_map, Nat.zero_add]
  by_cases inside : i < c.width
  · obtain ⟨t, atStripe⟩ : ∃ t, stripe[i]? = some t :=
      ⟨_, List.getElem?_eq_getElem (by rw [code.width]; exact inside)⟩
    obtain ⟨s, atShards⟩ : ∃ s, shards[i]? = some s := ⟨_, List.getElem?_eq_getElem (by omega)⟩
    rw [atStripe, atShards]
    simp only [Option.map_some, Function.comp_apply]
    split
    · have sizeOf_t := code.even t (List.mem_of_getElem? atStripe)
      have sizeOf_s := even s (List.mem_of_getElem? atShards)
      rw [interpolate_witnesses code (by omega) (by omega) count enough _ atStripe,
        cut_whole sizeOf_t, splice_whole (by omega)]
      intro j u v flag hu hv
      have same := agree j flag
      rw [hu, hv, Option.some_inj] at same
      rw [same]
    · rfl
  · rw [List.getElem?_eq_none (by omega), List.getElem?_eq_none (by rw [code.width]; omega)]
    simp

end Code
end StripeRecovery
