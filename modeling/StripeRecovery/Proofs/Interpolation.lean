import StripeRecovery.Code
import StripeRecovery.Proofs.Field
import Mathlib.LinearAlgebra.Lagrange

/-!
Interpolation reads the shards column by column: the bytes at one offset are the values of a
polynomial at the points of their positions, and Lagrange's weights give its other values.
-/
namespace StripeRecovery
open Polynomial

def Shard.symbol (s : Shard) (offset : Nat) : GF256 := ⟨s.getD offset 0⟩

theorem shard_ext {s t : Shard} {size : Nat} (hs : s.length = size) (ht : t.length = size)
    (same : ∀ j < size, s.symbol j = t.symbol j) : s = t := by
  apply List.ext_getElem (by omega)
  intro j hj hj'
  have symbols := congrArg GF256.byte (same j (by omega))
  simpa [Shard.symbol, hj, hj'] using symbols

theorem scale_length (c : GF256) (s : Shard) : (s.scale c).length = s.length := by
  simp [Shard.scale]

theorem scale_symbol (c : GF256) (s : Shard) (j : Nat) : (s.scale c).symbol j = c * s.symbol j := by
  simp only [Shard.scale, Shard.symbol, List.getD_eq_getElem?_getD, List.getElem?_map]
  cases s[j]? with
  | none => exact (mul_zero c).symm
  | some b => rfl

theorem add_length {s t : Shard} (same : s.length = t.length) : (s.add t).length = t.length := by
  simp [Shard.add, same]

theorem add_symbol {s t : Shard} (same : s.length = t.length) (j : Nat) :
    (s.add t).symbol j = s.symbol j + t.symbol j := by
  simp only [Shard.add, Shard.symbol, List.getD_eq_getElem?_getD, List.getElem?_zipWith]
  by_cases inside : j < t.length
  · simp [same, inside, GF256.add_eq]
  · simp [same, inside, GF256.add_eq]

theorem zeros_symbol (size j : Nat) : Shard.symbol (List.replicate size 0) j = 0 := by
  simp only [Shard.symbol, List.getD_eq_getElem?_getD, List.getElem?_replicate]
  split <;> rfl

/-- A sum of shards, each with a weight; `interpolate` is the case of Lagrange's weights. -/
def weightedSum (w : Sample → GF256) (size : Nat) (samples : List Sample) : Shard :=
  samples.foldr (fun s sum => (s.shard.scale (w s)).add sum) (List.replicate size 0)

theorem weightedSum_length (w : Sample → GF256) (size : Nat) (samples : List Sample)
    (even : ∀ s ∈ samples, s.shard.length = size) : (weightedSum w size samples).length = size := by
  induction samples with
  | nil => simp [weightedSum]
  | cons s rest ih =>
    have tail := ih fun t ht => even t (by simp [ht])
    have first := even s (by simp)
    change ((s.shard.scale (w s)).add (weightedSum w size rest)).length = size
    rw [add_length (by rw [scale_length, first, tail]), tail]

theorem weightedSum_symbol (w : Sample → GF256) (size j : Nat) (samples : List Sample)
    (even : ∀ s ∈ samples, s.shard.length = size) :
    (weightedSum w size samples).symbol j = (samples.map fun s => w s * s.shard.symbol j).sum := by
  induction samples with
  | nil => exact zeros_symbol size j
  | cons s rest ih =>
    have evenRest : ∀ t ∈ rest, t.shard.length = size := fun t ht => even t (by simp [ht])
    have same : (s.shard.scale (w s)).length = (weightedSum w size rest).length := by
      rw [scale_length, weightedSum_length w size rest evenRest, even s (by simp)]
    change ((s.shard.scale (w s)).add (weightedSum w size rest)).symbol j = _
    rw [add_symbol same, scale_symbol, ih evenRest, List.map_cons, List.sum_cons]

def pointsOf (samples : List Sample) : List GF256 :=
  samples.map fun s => GF256.point s.position

theorem interpolate_eq (samples : List Sample) (size target : Nat) :
    interpolate samples size target = weightedSum
      (fun s => weight (pointsOf samples) (GF256.point target) (GF256.point s.position))
      size samples := rfl

theorem interpolate_length (samples : List Sample) (size target : Nat)
    (even : ∀ s ∈ samples, s.shard.length = size) :
    (interpolate samples size target).length = size :=
  weightedSum_length _ size samples even

theorem differences_nil (t : GF256) : differences t [] = 1 := rfl

theorem differences_cons (t y : GF256) (ys : List GF256) :
    differences t (y :: ys) = (t + y) * differences t ys := rfl

theorem differences_eq_prod (t : GF256) (points : List GF256) :
    differences t points = (points.map fun y => t - y).prod := by
  induction points with
  | nil => rw [differences_nil, List.map_nil, List.prod_nil]
  | cons y ys ih =>
    rw [differences_cons, ih, List.map_cons, List.prod_cons, CharTwo.sub_eq_add]

theorem weight_eq_basis {points : List GF256} (distinct : points.Nodup) (t x : GF256) :
    weight points t x = (Lagrange.basis points.toFinset id x).eval t := by
  have others : (points.filter (· ≠ x)).toFinset = points.toFinset.erase x := by
    ext y
    simp [and_comm]
  have nodup : (points.filter (· ≠ x)).Nodup := distinct.filter _
  simp only [weight, differences_eq_prod, ← List.prod_toFinset _ nodup, others]
  rw [Lagrange.basis, eval_prod, div_eq_mul_inv, mul_comm, ← Finset.prod_inv_distrib,
    ← Finset.prod_mul_distrib]
  apply Finset.prod_congr rfl
  intro y _
  simp [Lagrange.basisDivisor]

/-- The value at `t` of the polynomial through the points is the sum of its values there with
    Lagrange's weights. -/
theorem weights_eval {points : List GF256} (distinct : points.Nodup) {f : GF256[X]}
    (small : f.degree < points.length) (t : GF256) :
    (points.map fun x => weight points t x * f.eval x).sum = f.eval t := by
  have card : points.toFinset.card = points.length := List.toFinset_card_of_nodup distinct
  have whole : f = Lagrange.interpolate points.toFinset id fun x => f.eval x :=
    Lagrange.eq_interpolate (Function.injective_id.injOn) (by rw [card]; exact small)
  conv_rhs => rw [whole]
  rw [Lagrange.interpolate_apply, eval_finsetSum, List.sum_toFinset _ distinct]
  congr 1
  apply List.map_congr_left
  intro x _
  rw [weight_eq_basis distinct, eval_mul, eval_C, mul_comm]

theorem interpolate_symbol {samples : List Sample} {size : Nat}
    (even : ∀ s ∈ samples, s.shard.length = size) (distinct : (pointsOf samples).Nodup)
    {f : GF256[X]} (small : f.degree < samples.length) {j : Nat}
    (values : ∀ s ∈ samples, s.shard.symbol j = f.eval (GF256.point s.position)) (target : Nat) :
    (interpolate samples size target).symbol j = f.eval (GF256.point target) := by
  rw [interpolate_eq, weightedSum_symbol _ size j samples even]
  rw [← weights_eval distinct (by simpa [pointsOf] using small) (GF256.point target)]
  simp only [pointsOf, List.map_map]
  congr 1
  apply List.map_congr_left
  intro s hs
  simp [values s hs]

end StripeRecovery
