import StripeRecovery.Proofs.Repair

/-!
Any `data` shards of a stripe bring back all others, whatever the places of the lost shards
were filled with. Parity stays as it was unless it is asked for or no data is lost.
-/
namespace StripeRecovery
namespace Code

theorem repair_recovers (c : Code) (chunks : List Shard) (size : Nat) (positive : 0 < size)
    (count : chunks.length = c.data) (even : ∀ s ∈ chunks, s.length = size)
    (present : List Bool) (flags : present.length = c.width)
    (enough : c.data ≤ present.count true) (recreate : Bool) :
    ∃ stripe, c.encode chunks = .ok stripe ∧
      (∀ (j : Nat) (r : Fin c.width), (stripe.getD r []).symbol j =
        (c.powers c.width * (c.powers c.data)⁻¹).mulVec
          (fun k : Fin c.data => (chunks.getD k []).symbol j) r) ∧
      ∀ shards : List Shard, shards.length = c.width → (∀ s ∈ shards, s.length = size) →
        (∀ i : Nat, present[i]? = some true → shards[i]? = stripe[i]?) →
        let attempt := c.repair shards present 0 size recreate
        (∃ regenerated, attempt.result = .ok regenerated) ∧ attempt.shards.length = c.width ∧
          (∀ i < c.data, attempt.shards[i]? = chunks[i]?) ∧
          ∀ i, c.data ≤ i → i < c.width → attempt.shards[i]? =
            if present[i]? = some true ∨ recreate = true ∨ (∀ j < c.data, present[j]? = some true)
            then stripe[i]? else shards[i]? := by
  have code := encode_isStripe c count even
  refine ⟨chunks ++ c.parityOf chunks size, encode_eq c positive count even, ?_, ?_⟩
  · intro j r
    rw [stripe_column c code j r]
    congr 1
    funext k
    have chunk : (k : Nat) < chunks.length := by omega
    rw [List.getD_eq_getElem?_getD, List.getElem?_append_left chunk, ← List.getD_eq_getElem?_getD]
  intro shards width evenShards agree attempt
  obtain ⟨length, values⟩ :=
    repair_whole code positive width flags enough evenShards agree recreate
  have accepted : c.refusal? shards present (0 + size) = none :=
    refusal_none width flags enough fun s hs => by have := evenShards s hs; omega
  refine ⟨⟨_, repair_result accepted positive⟩, length, ?_, ?_⟩
  · intro i isData
    have chunk : (chunks ++ c.parityOf chunks size)[i]? = chunks[i]? :=
      List.getElem?_append_left (by omega)
    rw [values i, ← chunk]
    have inside : i < present.length := by simp only [flags, Code.width]; omega
    rcases flag_cases inside with flag | flag
    · rw [agree i flag, ite_self]
    · rw [if_pos (writes_iff.mpr ⟨flag, .inl isData⟩)]
  · intro i isParity inside
    have dataFlags : c.data ≤ present.length := by simp only [flags, Code.width]; omega
    have notData : ¬ i < c.data := by omega
    rw [values i]
    have inFlags : i < present.length := by omega
    rcases flag_cases inFlags with flag | flag
    · rw [agree i flag, ite_self, ite_self]
    · simp only [writes_iff, wantsParity_iff dataFlags, flag, notData, Option.some.injEq,
        true_and, false_or, Bool.false_eq_true]

/-- A data shard and a parity shard are lost, and parity is asked for. -/
theorem repair_recovers_one_of_each :
    let c : Code := ⟨2, 2, by decide, by decide, by decide⟩
    let attempt := c.repair [[9, 9], [3, 4], [0, 0], [7, 129]] [false, true, false, true] 0 2 true
    c.encode [[1, 200], [3, 4]] = .ok [[1, 200], [3, 4], [5, 77], [7, 129]] ∧
      (∃ regenerated, attempt.result = .ok regenerated) ∧
      (∀ i < 2, attempt.shards[i]? = [[1, 200], [3, 4]][i]?) ∧
      attempt.shards[2]? = some [5, 77] ∧ attempt.shards[3]? = some [7, 129] := by
  intro c attempt
  have encoded : c.encode [[1, 200], [3, 4]] = .ok [[1, 200], [3, 4], [5, 77], [7, 129]] := by
    decide +kernel
  obtain ⟨stripe, isStripe, _, recovers⟩ := repair_recovers c [[1, 200], [3, 4]] 2 (by decide) rfl
    (by decide) [false, true, false, true] rfl (by decide) true
  obtain rfl : [[1, 200], [3, 4], [5, 77], [7, 129]] = stripe :=
    Except.ok.inj (encoded.symm.trans isStripe)
  have agree : ∀ i : Nat, [false, true, false, true][i]? = some true →
      ([[9, 9], [3, 4], [0, 0], [7, 129]] : List Shard)[i]? =
        [[1, 200], [3, 4], [5, 77], [7, 129]][i]? := by
    intro i flag
    match i with
    | 0 | 2 => simp at flag
    | 1 | 3 => rfl
    | i + 4 => simp at flag
  obtain ⟨regenerated, _, data, parity⟩ :=
    recovers [[9, 9], [3, 4], [0, 0], [7, 129]] rfl (by decide) agree
  exact ⟨encoded, regenerated, data, parity 2 (by decide) (by decide),
    parity 3 (by decide) (by decide)⟩

end Code
end StripeRecovery
