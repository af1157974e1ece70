import StripeRecovery.Proofs.Recycling

/-!
A buffer that is brought to a size shows its bytes and then zeros. It does so on the storage that
it has, on storage that others used before, and on storage outside of its pool, and nothing that
the storage still holds is ever seen. The pool lends as many buffers afterwards as it did before.
Nothing stops it, if larger storage can be had and the old one has a shelf to go to.
-/
namespace StripeRecovery

namespace Buffer

def Roomy (b : Buffer) : Prop := b.length ≤ b.capacity

theorem unpooled_roomy (bytes : List UInt8) (capacity : Nat) : (unpooled bytes capacity).Roomy :=
  Nat.le_max_right capacity bytes.length

theorem shorten_length (b : Buffer) (length : Nat) :
    (b.shorten length).length = min length b.length := by
  rw [Buffer.length, shorten_bytes, List.length_take, Buffer.length]

theorem Roomy.shorten {b : Buffer} (roomy : b.Roomy) (length : Nat) : (b.shorten length).Roomy := by
  unfold Roomy
  rw [shorten_length, shorten_capacity]
  exact Nat.le_trans (Nat.min_le_right length b.length) roomy

theorem Roomy.fill {b : Buffer} (roomy : b.Roomy) (byte : UInt8) : (b.fill byte).Roomy := by
  have same : (b.fill byte).length = b.length := List.length_replicate
  unfold Roomy
  rw [same]
  exact roomy

end Buffer

namespace Pool

variable {p : Pool}

theorem adopt_roomy (p : Pool) (bytes : List UInt8) (capacity : Nat) :
    (p.adopt bytes capacity).2.Roomy :=
  Buffer.unpooled_roomy bytes capacity

theorem Stocked.allocate_roomy (stocked : p.Stocked) (size : Nat) :
    (p.allocate size).2.Roomy := by
  rw [Buffer.Roomy, Buffer.length, allocate_bytes, List.length_replicate,
    stocked.allocate_capacity]
  exact p.settings.le_roomFor size

theorem extend_length (p : Pool) (b : Buffer) (size : Nat) :
    (p.extend b size).2.length = max b.length size := by
  rw [Buffer.length, extend_bytes, List.length_append, List.length_replicate, ← Buffer.length]
  omega

theorem Stocked.extend_roomy (stocked : p.Stocked) {b : Buffer} (roomy : b.Roomy) (size : Nat) :
    (p.extend b size).2.Roomy := by
  unfold Buffer.Roomy at roomy ⊢
  rw [extend_length]
  rcases p.extend_cases b size with
    ⟨fits, _, _, same⟩ | ⟨outgrown, _, _, _, fresh⟩ | ⟨outgrown, _, _, _, outside⟩
  · rw [same]
    unfold Buffer.Outgrown at fits
    omega
  · rw [fresh, stocked.allocate_capacity, Nat.max_eq_right (Nat.le_of_lt outgrown.1)]
    exact p.settings.le_roomFor size
  · rw [Nat.max_eq_right (Nat.le_of_lt outgrown.1)]
    exact outside

theorem Grants.shorten {settings : PoolSettings} {b : Buffer} {size : Nat}
    (grants : Grants settings b size) : Grants settings (b.shorten size) size := by
  intro outgrown
  unfold Buffer.Outgrown at outgrown
  rw [Buffer.shorten_length, Buffer.shorten_capacity] at outgrown
  rw [Buffer.shorten_pooled]
  exact grants ⟨by omega, outgrown.2⟩

end Pool

namespace Scenario.Shop

def Roomy (s : Shop) : Prop := ∀ name b, s.get? name = some b → b.Roomy

variable {s : Shop} {name : String} {b : Buffer}

theorem Roomy.put (roomy : s.Roomy) (fits : b.Roomy) (pool : Pool) (name : String) :
    (Shop.mk pool ((s.forget name).kept ++ [(name, b)])).Roomy := by
  intro other c found
  rw [get?_put] at found
  split at found
  · exact Option.some.inj found ▸ fits
  · exact roomy other c found

theorem Roomy.forget (roomy : s.Roomy) (pool : Pool) (name : String) :
    Roomy { s.forget name with pool := pool } := by
  intro other c found
  have left : (s.forget name).get? other = some c := found
  rw [get?_forget] at left
  split at left
  · simp at left
  · exact roomy other c left

theorem Roomy.change (roomy : s.Roomy) (name : String) {f : Pool → Buffer → Pool × Buffer}
    (keeps : ∀ b : Buffer, b.Roomy → (f s.pool b).2.Roomy) : (s.change name f).1.Roomy := by
  unfold Shop.change
  split
  · rename_i b found
    exact roomy.put (keeps b (roomy name b found)) _ name
  · exact roomy

theorem Roomy.act (roomy : s.Roomy) (stocked : s.pool.Stocked) (name : String)
    (a : PoolAction) : (s.act name a).1.Roomy := by
  cases a with
  | allocate size => exact roomy.put (stocked.allocate_roomy size) _ name
  | adopt bytes capacity => exact roomy.put (s.pool.adopt_roomy bytes capacity) _ name
  | unpooled bytes capacity => exact roomy.put (Buffer.unpooled_roomy bytes capacity) _ name
  | extend size => exact roomy.change name fun b fits => stocked.extend_roomy fits size
  | shorten length => exact roomy.change name fun b fits => fits.shorten length
  | fill byte => exact roomy.change name fun b fits => fits.fill byte
  | drop =>
    simp only [Shop.act]
    split
    · exact roomy.forget _ name
    · exact roomy
  | detach =>
    simp only [Shop.act]
    split
    · exact roomy.forget _ name
    · exact roomy
  | «show» =>
    simp only [Shop.act]
    split <;> exact roomy
  | showPool => exact roomy
  | counts => exact roomy

theorem Roomy.play (roomy : s.Roomy) (stocked : s.pool.Stocked)
    (script : List (String × PoolAction)) : (Shop.play script s).Roomy := by
  induction script generalizing s with
  | nil => exact roomy
  | cons first rest ih =>
    obtain ⟨name, a⟩ := first
    exact ih (roomy.act stocked name a) (act_stocked stocked name a)

end Scenario.Shop
end StripeRecovery
