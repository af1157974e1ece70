import StripeRecovery.Proofs.Interpolation
import Mathlib.LinearAlgebra.Matrix.NonsingularInverse
import Mathlib.LinearAlgebra.Vandermonde

/-!
The stripes of a code. Their columns are the values of polynomials with at most `data`
coefficients, so any `data` of their shards determine all others. In terms of matrices, a
column is V * (top rows of V)⁻¹ times its data, where V holds the powers of the points.
-/
namespace StripeRecovery
open Polynomial

theorem point_injective {i j : Nat} (hi : i < 256) (hj : j < 256)
    (same : GF256.point i = GF256.point j) : i = j := by
  have bytes := congrArg (fun a => a.byte.toNat) same
  simpa [GF256.point, Nat.mod_eq_of_lt hi, Nat.mod_eq_of_lt hj] using bytes

theorem points_distinct {samples : List Sample} (distinct : (samples.map (·.position)).Nodup)
    (within : ∀ s ∈ samples, s.position < 256) : (pointsOf samples).Nodup := by
  have apart : ((samples.map (·.position)).map GF256.point).Nodup := by
    apply List.Nodup.map_on _ distinct
    intro i hi j hj same
    obtain ⟨s, hs, rfl⟩ := List.mem_map.mp hi
    obtain ⟨t, ht, rfl⟩ := List.mem_map.mp hj
    exact point_injective (within s hs) (within t ht) same
  rwa [List.map_map] at apart

theorem samplesOf_length (shards : List Shard) : (samplesOf shards).length = shards.length := by
  simp [samplesOf]

theorem samplesOf_positions (shards : List Shard) :
    (samplesOf shards).map (·.position) = List.range shards.length := by
  apply List.ext_getElem (by simp [samplesOf])
  intro i hi hi'
  simp [samplesOf]

theorem mem_samplesOf {shards : List Shard} {s : Sample} :
    s ∈ samplesOf shards ↔ shards[s.position]? = some s.shard := by
  simp only [samplesOf, List.mem_map, Prod.exists]
  constructor
  · rintro ⟨shard, i, member, rfl⟩
    exact List.mem_zipIdx_iff_getElem?.mp member
  · intro there
    exact ⟨s.shard, s.position, List.mem_zipIdx_iff_getElem?.mpr there, rfl⟩

theorem exists_column {samples : List Sample} (distinct : (pointsOf samples).Nodup) (j : Nat) :
    ∃ f : GF256[X], f.degree < samples.length ∧
      ∀ s ∈ samples, s.shard.symbol j = f.eval (GF256.point s.position) := by
  have apart : Set.InjOn (fun s : Sample => GF256.point s.position) samples.toFinset := by
    intro s hs t ht same
    exact List.inj_on_of_nodup_map distinct (by simpa using hs) (by simpa using ht) same
  refine ⟨Lagrange.interpolate samples.toFinset (fun s => GF256.point s.position)
    (fun s => s.shard.symbol j), ?_, ?_⟩
  · refine lt_of_lt_of_le (Lagrange.degree_interpolate_lt _ apart) ?_
    exact_mod_cast List.toFinset_card_le samples
  · intro s hs
    exact (Lagrange.eval_interpolate_at_node (fun s => s.shard.symbol j) apart
      (List.mem_toFinset.mpr hs)).symm

namespace Code

/-- Shards of one size whose columns are values of polynomials of degree below `data`. -/
structure IsStripe (c : Code) (size : Nat) (shards : List Shard) : Prop where
  width : shards.length = c.width
  even : ∀ s ∈ shards, s.length = size
  columns : ∀ j, ∃ f : GF256[X], f.degree < c.data ∧
    ∀ i s, shards[i]? = some s → s.symbol j = f.eval (GF256.point i)

theorem parityOf_length (c : Code) (chunks : List Shard) (size : Nat) :
    (c.parityOf chunks size).length = c.parity := by
  simp [parityOf]

theorem shardFault_none {shards : List Shard} {size : Nat} (positive : 0 < size)
    (even : ∀ s ∈ shards, s.length = size) : shardFault? shards = none := by
  cases shards with
  | nil => rfl
  | cons first rest =>
    have size_first := even first (by simp)
    have rest_even : rest.all (·.length == first.length) = true := by
      rw [List.all_eq_true]
      intro s hs
      simp [even s (by simp [hs]), size_first]
    have nonempty : first.isEmpty = false := by
      rw [List.isEmpty_eq_false_iff, ← List.length_pos_iff]
      omega
    simp [shardFault?, nonempty, rest_even]

theorem headD_length {chunks : List Shard} {size : Nat} (nonempty : 0 < chunks.length)
    (even : ∀ s ∈ chunks, s.length = size) : (chunks.headD []).length = size := by
  cases chunks with
  | nil => simp at nonempty
  | cons first rest => exact even first (by simp)

theorem encode_eq (c : Code) {chunks : List Shard} {size : Nat} (positive : 0 < size)
    (count : chunks.length = c.data) (even : ∀ s ∈ chunks, s.length = size) :
    c.encode chunks = .ok (chunks ++ c.parityOf chunks size) := by
  have head : (chunks.headD []).length = size := headD_length (by have := c.data_pos; omega) even
  have evenAll :
      ∀ s ∈ chunks ++ List.replicate c.parity (List.replicate size 0), s.length = size := by
    intro s hs
    rcases List.mem_append.mp hs with chunk | zeros
    · exact even s chunk
    · simp [List.eq_of_mem_replicate zeros]
  have anyUneven : chunks.any (·.length != size) = false := by
    rw [List.any_eq_false]
    intro s hs
    simp [even s hs]
  have taken : (chunks ++ List.replicate c.parity (List.replicate size 0)).take c.data = chunks := by
    rw [← count, List.take_left]
  have total : (chunks ++ List.replicate c.parity (List.replicate size 0)).length = c.width := by
    simp [count, width]
  simp only [encode, count, head, anyUneven, refresh, checkCount, total,
    shardFault_none positive evenAll, recode, taken]
  simp [Except.map]

theorem encode_isStripe (c : Code) {chunks : List Shard} {size : Nat}
    (count : chunks.length = c.data) (even : ∀ s ∈ chunks, s.length = size) :
    c.IsStripe size (chunks ++ c.parityOf chunks size) := by
  have evenSamples : ∀ s ∈ samplesOf chunks, s.shard.length = size := by
    intro s hs
    exact even _ (List.mem_of_getElem? (mem_samplesOf.mp hs))
  have distinct : (pointsOf (samplesOf chunks)).Nodup := by
    apply points_distinct
    · rw [samplesOf_positions]
      exact List.nodup_range
    · intro s hs
      have inside := (List.getElem?_eq_some_iff.mp (mem_samplesOf.mp hs)).1
      have := c.width_le
      omega
  have samples : (samplesOf chunks).length = c.data := by rw [samplesOf_length, count]
  refine ⟨by simp [count, parityOf_length, width], ?_, ?_⟩
  · intro s hs
    rcases List.mem_append.mp hs with chunk | parity
    · exact even s chunk
    · simp only [parityOf, List.mem_map] at parity
      obtain ⟨i, _, rfl⟩ := parity
      exact interpolate_length _ size _ evenSamples
  · intro j
    obtain ⟨f, small, values⟩ := exists_column distinct j
    refine ⟨f, by rwa [samples] at small, ?_⟩
    intro i s there
    by_cases isData : i < c.data
    · rw [List.getElem?_append_left (by omega)] at there
      exact values ⟨i, s⟩ (mem_samplesOf.mpr there)
    · rw [List.getElem?_append_right (by omega), count] at there
      simp only [parityOf, List.getElem?_map, Option.map_eq_some_iff] at there
      obtain ⟨k, hk, rfl⟩ := there
      obtain ⟨_, rfl⟩ := List.getElem?_eq_some_iff.mp hk
      rw [interpolate_symbol evenSamples distinct small values]
      simp only [List.getElem_range]
      congr 2
      omega

/-- The powers of the points of the first `rows` positions; `0 ^ 0` is one. -/
def powers (c : Code) (rows : Nat) : Matrix (Fin rows) (Fin c.data) GF256 :=
  Matrix.of fun r k => GF256.point r ^ (k : Nat)

theorem powers_top_det (c : Code) : (c.powers c.data).det ≠ 0 := by
  apply Matrix.det_vandermonde_ne_zero_iff.mpr
  intro i j same
  have := c.width_le
  exact Fin.ext (point_injective (by omega) (by omega) same)

theorem powers_mulVec (c : Code) (rows : Nat) {f : GF256[X]} (small : f.degree < c.data) :
    (c.powers rows).mulVec (fun k => f.coeff k) = fun r : Fin rows => f.eval (GF256.point r) := by
  have natSmall : f.natDegree < c.data := by
    by_cases zero : f = 0
    · simp [zero, c.data_pos]
    · exact (natDegree_lt_iff_degree_lt zero).mpr small
  funext r
  rw [eval_eq_sum_range' natSmall, Finset.sum_range]
  simp only [Matrix.mulVec, dotProduct, powers, Matrix.of_apply]
  exact Finset.sum_congr rfl fun k _ => mul_comm _ _

theorem stripe_column (c : Code) {size : Nat} {stripe : List Shard} (code : c.IsStripe size stripe)
    (j : Nat) (r : Fin c.width) : (stripe.getD r []).symbol j =
      (c.powers c.width * (c.powers c.data)⁻¹).mulVec
        (fun k : Fin c.data => (stripe.getD k []).symbol j) r := by
  obtain ⟨f, small, values⟩ := code.columns j
  have value : ∀ i < c.width, (stripe.getD i []).symbol j = f.eval (GF256.point i) := by
    intro i hi
    have inside : i < stripe.length := by rw [code.width]; exact hi
    rw [List.getD_eq_getElem?_getD, List.getElem?_eq_getElem inside, Option.getD_some]
    exact values i _ (List.getElem?_eq_getElem inside)
  have top : (fun k : Fin c.data => (stripe.getD k []).symbol j) =
      (c.powers c.data).mulVec fun k => f.coeff k := by
    rw [powers_mulVec c c.data small]
    funext k
    exact value k (by simp only [width]; omega)
  have invertible : IsUnit (c.powers c.data).det := isUnit_iff_ne_zero.mpr c.powers_top_det
  rw [top, Matrix.mulVec_mulVec, Matrix.mul_assoc, Matrix.nonsing_inv_mul _ invertible,
    Matrix.mul_one, powers_mulVec c c.width small]
  exact value r r.isLt

end Code
end StripeRecovery
