import StripeRecovery.Proofs.Stripe

/-!
What a check of shards can tell. Two stripes with the same shards at `data` positions are the
same stripe, so an altered stripe is a stripe again only if more than `parity` of its shards
were touched. A check accepts stripes and nothing else.
-/
namespace StripeRecovery
open Polynomial
namespace Code

variable {c : Code} {size : Nat} {shards stripe other : List Shard}

theorem IsStripe.get (code : c.IsStripe size stripe) {i : Nat} (inside : i < c.width) :
    ∃ s, stripe[i]? = some s ∧ s.length = size := by
  have bound : i < stripe.length := by rw [code.width]; exact inside
  have found := List.getElem?_eq_getElem bound
  exact ⟨stripe[i], found, code.even _ (List.mem_of_getElem? found)⟩

/-- Stripes that agree at `data` positions have the same polynomials, so they are the same. -/
theorem IsStripe.unique (code : c.IsStripe size stripe) (code' : c.IsStripe size other)
    (positions : Finset Nat) (enough : c.data ≤ positions.card)
    (agree : ∀ i ∈ positions, i < c.width ∧ stripe[i]? = other[i]?) : stripe = other := by
  have apart : Set.InjOn GF256.point positions := by
    intro i hi j hj same
    have inside := (agree i hi).1
    have inside' := (agree j hj).1
    have total : c.width ≤ 256 := c.width_le
    exact point_injective (by omega) (by omega) same
  apply List.ext_getElem?
  intro i
  by_cases inside : i < c.width
  · obtain ⟨s, at_i, size_s⟩ := code.get inside
    obtain ⟨t, at_i', size_t⟩ := code'.get inside
    rw [at_i, at_i', Option.some_inj]
    apply shard_ext size_s size_t
    intro j _
    obtain ⟨f, small, values⟩ := code.columns j
    obtain ⟨g, small', values'⟩ := code'.columns j
    have cards : (c.data : WithBot ℕ) ≤ positions.card := by exact_mod_cast enough
    have same : f = g := by
      apply eq_of_degrees_lt_of_eval_index_eq positions apart (small.trans_le cards)
        (small'.trans_le cards)
      intro p member
      obtain ⟨within, there⟩ := agree p member
      obtain ⟨u, at_p, _⟩ := code.get within
      rw [← values p u at_p, ← values' p u (there.symm.trans at_p)]
    rw [values i s at_i, values' i t at_i', same]
  · rw [List.getElem?_eq_none (by rw [code.width]; omega),
      List.getElem?_eq_none (by rw [code'.width]; omega)]

def differing (c : Code) (stripe altered : List Shard) : Nat :=
  ((Finset.range c.width).filter fun i => stripe[i]? ≠ altered[i]?).card

theorem IsStripe.differing (code : c.IsStripe size stripe) (code' : c.IsStripe size other)
    (unlike : other ≠ stripe) : c.parity < c.differing stripe other := by
  by_contra few
  have both := Finset.card_filter_add_card_filter_not (s := Finset.range c.width)
    (fun i => stripe[i]? = other[i]?)
  rw [Finset.card_range] at both
  refine unlike (Eq.symm (code.unique code'
    ((Finset.range c.width).filter fun i => stripe[i]? = other[i]?) ?_ ?_))
  · have total : c.width = c.data + c.parity := rfl
    simp only [Code.differing, ne_eq] at few
    omega
  · intro i member
    simpa using member

theorem shardFault_ok (found : shardFault? shards = none) (some : shards ≠ []) :
    ∃ size, 0 < size ∧ ∀ s ∈ shards, s.length = size := by
  cases shards with
  | nil => exact absurd rfl some
  | cons first rest =>
    simp only [shardFault?] at found
    split at found
    · simp at found
    · rename_i nonempty
      split at found
      · rename_i same
        refine ⟨first.length, ?_, ?_⟩
        · rw [List.length_pos_iff]
          simpa using nonempty
        · intro s member
          rcases List.mem_cons.mp member with rfl | there
          · rfl
          · simpa using List.all_eq_true.mp same s there
      · simp at found

theorem refresh_eq (positive : 0 < size) (count : shards.length = c.width)
    (even : ∀ s ∈ shards, s.length = size) : c.refresh shards = ⟨c.recode shards, .ok ()⟩ := by
  simp [refresh, checkCount, count, shardFault_none positive even]

theorem verify_eq (positive : 0 < size) (count : shards.length = c.width)
    (even : ∀ s ∈ shards, s.length = size) :
    c.verify shards = .ok (c.recode shards == shards) := by
  simp [verify, checkCount, count, shardFault_none positive even, bind, Except.bind]

theorem refresh_ok_iff : (c.refresh shards).result = .ok () ↔
    shards.length = c.width ∧ ∃ size, 0 < size ∧ ∀ s ∈ shards, s.length = size := by
  constructor
  · intro done
    by_cases count : shards.length = c.width
    · refine ⟨count, shardFault_ok ?_ ?_⟩
      · cases found : shardFault? shards with
        | none => rfl
        | some fault => simp [refresh, checkCount, count, found] at done
      · rintro rfl
        have := c.data_pos
        simp [width] at count
        omega
    · simp [refresh, checkCount, count] at done
  · rintro ⟨count, size, positive, even⟩
    rw [refresh_eq positive count even]

theorem refresh_failed {e : Error} (failed : (c.refresh shards).result = .error e) :
    (c.refresh shards).shards = shards := by
  unfold refresh at failed ⊢
  split
  · rfl
  · split
    · rfl
    · rename_i counted fault found
      simp [counted, found] at failed

theorem take_length (count : shards.length = c.width) :
    (shards.take c.data).length = c.data := by
  rw [List.length_take, count, width]
  omega

theorem recode_eq (count : shards.length = c.width) (even : ∀ s ∈ shards, s.length = size) :
    c.recode shards = shards.take c.data ++ c.parityOf (shards.take c.data) size := by
  have head : ((shards.take c.data).headD []).length = size :=
    headD_length (by rw [take_length count]; exact c.data_pos)
      fun s member => even s (List.mem_of_mem_take member)
  simp only [recode, head]

theorem recode_isStripe (count : shards.length = c.width) (even : ∀ s ∈ shards, s.length = size) :
    c.IsStripe size (c.recode shards) := by
  rw [recode_eq count even]
  exact c.encode_isStripe (take_length count) fun s member => even s (List.mem_of_mem_take member)

theorem take_recode (count : shards.length = c.width) (even : ∀ s ∈ shards, s.length = size) :
    (c.recode shards).take c.data = shards.take c.data := by
  rw [recode_eq count even]
  exact List.take_left' (take_length count)

theorem recode_same_iff (count : shards.length = c.width) (even : ∀ s ∈ shards, s.length = size) :
    c.recode shards = shards ↔ c.IsStripe size shards := by
  constructor
  · intro same
    rw [← same]
    exact recode_isStripe count even
  · intro code
    apply (recode_isStripe count even).unique code (Finset.range c.data)
    · rw [Finset.card_range]
    · intro i member
      have isData := Finset.mem_range.mp member
      have same := congrArg (·[i]?) (take_recode count even)
      simp only [List.getElem?_take, isData, ↓reduceIte] at same
      exact ⟨by simp only [width]; omega, same⟩

theorem encode_ok {chunks : List Shard} (encoded : c.encode chunks = .ok stripe) :
    ∃ size, 0 < size ∧ chunks.length = c.data ∧ (∀ s ∈ chunks, s.length = size) ∧
      stripe = chunks ++ c.parityOf chunks size := by
  have whole := encoded
  unfold encode at encoded
  split at encoded
  · simp at encoded
  · rename_i counted
    have count : chunks.length = c.data := not_not.mp counted
    simp only at encoded
    split at encoded
    · simp at encoded
    · generalize blank : chunks ++ List.replicate c.parity _ = shards at encoded
      cases done : (c.refresh shards).result with
      | error e => simp [done, Except.map] at encoded
      | ok _ =>
        obtain ⟨_, size, positive, evenAll⟩ := refresh_ok_iff.mp done
        have even : ∀ s ∈ chunks, s.length = size := fun s member =>
          evenAll s (by rw [← blank]; exact List.mem_append_left _ member)
        rw [encode_eq c positive count even, Except.ok.injEq] at whole
        exact ⟨size, positive, count, even, whole.symm⟩

/-- A check accepts just the shards that recomputing the parity leaves as they are. Recomputing
    keeps the data shards, and of the old parity it keeps nothing; a refused call touches nothing.
    The check finds every alteration of a stripe that touches at most `parity` shards. -/
theorem verify_finds_alterations (c : Code) :
    (∀ (shards : List Shard) (size : Nat), 0 < size → shards.length = c.width →
      (∀ s ∈ shards, s.length = size) →
      (c.refresh shards).result = .ok () ∧ (∃ answer, c.verify shards = .ok answer) ∧
        (c.verify shards = .ok true ↔ (c.refresh shards).shards = shards) ∧
        (c.refresh shards).shards.take c.data = shards.take c.data ∧
        (∀ other : List Shard, other.length = c.width → (∀ s ∈ other, s.length = size) →
          other.take c.data = shards.take c.data →
          (c.refresh other).shards = (c.refresh shards).shards) ∧
        ∀ (j : Nat) (r : Fin c.width), ((c.refresh shards).shards.getD r []).symbol j =
          (c.powers c.width * (c.powers c.data)⁻¹).mulVec
            (fun k : Fin c.data => (shards.getD k []).symbol j) r) ∧
    (∀ chunks stripe : List Shard, c.encode chunks = .ok stripe → c.verify stripe = .ok true ∧
      ∀ altered : List Shard, altered.map List.length = stripe.map List.length →
        altered ≠ stripe → c.differing stripe altered ≤ c.parity → c.verify altered = .ok false) ∧
    ∀ shards : List Shard, ((c.refresh shards).result = .ok () ↔
        shards.length = c.width ∧ ∃ size, 0 < size ∧ ∀ s ∈ shards, s.length = size) ∧
      ∀ e, (c.refresh shards).result = .error e → (c.refresh shards).shards = shards := by
  refine ⟨?_, ?_, ?_⟩
  · intro shards size positive count even
    rw [refresh_eq positive count even, verify_eq positive count even]
    refine ⟨rfl, ⟨_, rfl⟩, by simp, take_recode count even, ?_, ?_⟩
    · intro other count' even' same
      rw [refresh_eq positive count' even', recode_eq count' even', recode_eq count even, same]
    · intro j r
      rw [stripe_column c (recode_isStripe count even) j r]
      congr 1
      funext k
      have kept := congrArg (·.getD k []) (take_recode count even)
      simp only [List.getD_eq_getElem?_getD, List.getElem?_take, k.isLt, ↓reduceIte] at kept ⊢
      rw [kept]
  · intro chunks stripe encoded
    obtain ⟨size, positive, count, even, rfl⟩ := encode_ok encoded
    have code := encode_isStripe c count even
    constructor
    · rw [verify_eq positive code.width code.even, (recode_same_iff code.width code.even).mpr code]
      simp
    · intro altered lengths unlike few
      have count' : altered.length = c.width := by
        rw [← code.width]
        simpa using congrArg List.length lengths
      have even' : ∀ s ∈ altered, s.length = size := by
        intro s member
        have there : s.length ∈ (chunks ++ c.parityOf chunks size).map List.length := by
          rw [← lengths]
          exact List.mem_map_of_mem member
        obtain ⟨t, shard, same⟩ := List.mem_map.mp there
        rw [← same, code.even t shard]
      have changed : c.recode altered ≠ altered := by
        intro same
        have far := code.differing ((recode_same_iff count' even').mp same) unlike
        omega
      rw [verify_eq positive count' even']
      simpa using changed
  · intro shards
    exact ⟨refresh_ok_iff, fun e failed => refresh_failed failed⟩

/-- One data shard and one parity shard of a stripe are altered. -/
theorem verify_finds_alterations_two_shards :
    let c : Code := ⟨2, 2, by decide, by decide, by decide⟩
    let stripe : List Shard := [[1, 200], [3, 4], [5, 77], [7, 129]]
    let altered : List Shard := [[1, 200], [3, 5], [5, 77], [0, 129]]
    c.encode [[1, 200], [3, 4]] = .ok stripe ∧ c.differing stripe altered ≤ c.parity ∧
      altered ≠ stripe ∧ c.verify stripe = .ok true ∧ c.verify altered = .ok false ∧
      (c.refresh altered).shards ≠ altered ∧
      (c.refresh altered).shards.take 2 = [[1, 200], [3, 5]] ∧
      (c.refresh [[1], [2, 3]]).shards = [[1], [2, 3]] := by
  intro c stripe altered
  have encoded : c.encode [[1, 200], [3, 4]] = .ok stripe := by decide +kernel
  have few : c.differing stripe altered ≤ c.parity := by decide +kernel
  have unlike : altered ≠ stripe := by decide
  obtain ⟨whole, alterations, refused⟩ := verify_finds_alterations c
  obtain ⟨accepted, found⟩ := alterations _ stripe encoded
  have missed := found altered (by decide) unlike few
  obtain ⟨_, _, same, kept, _⟩ := whole altered 2 (by decide) rfl (by decide)
  refine ⟨encoded, few, unlike, accepted, missed, ?_, kept, ?_⟩
  · intro unchanged
    simpa [missed] using same.mpr unchanged
  · exact (refused [[1], [2, 3]]).2 (.code (.shardCount 4 2)) rfl

end Code
end StripeRecovery
