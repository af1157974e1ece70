import StripeRecovery.Proofs.Accounts
import StripeRecovery.Scenario.Buffers

/-!
The buffers that callers have at hand. Whatever a caller does with them, it settles with the
pool.
-/
namespace StripeRecovery
namespace Scenario.Shop

def hands (s : Shop) : List Buffer := s.kept.map (·.2)

def Named (s : Shop) : Prop := (s.kept.map (·.1)).Nodup

variable {s : Shop} {name : String} {n : Nat}

theorem Named.forget (named : s.Named) : (s.forget name).Named :=
  named.sublist (List.filter_sublist.map _)

theorem forget_absent (s : Shop) (name : String) : name ∉ (s.forget name).kept.map (·.1) := by
  simp [Shop.forget]

theorem Named.put (named : s.Named) (pool : Pool) (b : Buffer) :
    (Shop.mk pool ((s.forget name).kept ++ [(name, b)])).Named := by
  have apart : (s.forget name).Named := named.forget
  simp only [Named, List.map_append, List.map_cons, List.map_nil] at apart ⊢
  refine List.nodup_append.mpr ⟨apart, by simp, ?_⟩
  intro a there b new
  rw [List.mem_singleton.mp new]
  rintro rfl
  exact s.forget_absent _ there

theorem hands_put (s : Shop) (pool : Pool) (name : String) (b : Buffer) :
    tied (Shop.mk pool ((s.forget name).kept ++ [(name, b)])).hands =
      tied (s.forget name).hands + tied [b] := by
  simp only [hands, List.map_append, tied_append, List.map_cons, List.map_nil]

theorem tied_forget (named : s.Named) (name : String) :
    tied s.hands = tied (s.forget name).hands + tied (s.get? name).toList := by
  obtain ⟨pool, kept⟩ := s
  simp only [hands, Shop.forget, Shop.get?, Named] at named ⊢
  induction kept with
  | nil => rfl
  | cons first rest ih =>
    obtain ⟨other, b⟩ := first
    obtain ⟨new, named⟩ := List.nodup_cons.mp named
    have others := ih named
    by_cases here : other = name
    · subst here
      have gone : rest.filter (·.1 != other) = rest := by
        refine List.filter_eq_self.mpr fun a there => ?_
        have differs : a.1 ≠ other := fun same => new (List.mem_map.mpr ⟨a, there, same⟩)
        simpa using differs
      simp only [List.map_cons, List.filter_cons, bne_self_eq_false, Bool.false_eq_true, ↓reduceIte,
        List.lookup_cons, beq_self_eq_true, gone, Option.toList]
      rw [tied_cons b, Nat.add_comm]
    · have apart : (name == other) = false := by simpa using Ne.symm here
      simp only [List.map_cons, List.filter_cons, bne_iff_ne, ne_eq, here, not_false_eq_true,
        ↓reduceIte, List.lookup_cons, apart]
      rw [tied_cons b, others, tied_cons b (List.map _ _), Nat.add_assoc]

theorem taken_lent (named : s.Named) {b : Buffer} (found : s.get? name = some b)
    (lent : s.pool.Lent (n + tied s.hands)) :
    s.pool.Lent (n + tied (s.forget name).hands + tied [b]) := by
  rwa [tied_forget named name, found, ← Nat.add_assoc] at lent

theorem keep_lent (named : s.Named) {made : Pool × Buffer}
    (lent : made.1.Lent (n + tied s.hands + tied [made.2])) :
    (s.keep name made).1.pool.Lent (n + tied (s.keep name made).1.hands) := by
  rw [tied_forget named name] at lent
  simp only [keep, hands_put]
  cases found : s.get? name with
  | none =>
    rw [found] at lent
    convert lent using 1
    simp [Nat.add_assoc]
  | some b =>
    rw [found] at lent
    refine Pool.Lent.release ?_
    convert lent using 1
    simp only [Option.toList]
    omega

theorem change_lent (named : s.Named) {f : Pool → Buffer → Pool × Buffer}
    (fair : ∀ (pool : Pool) b k, pool.Lent (k + tied [b]) →
      (f pool b).1.Lent (k + tied [(f pool b).2]))
    (lent : s.pool.Lent (n + tied s.hands)) :
    (s.change name f).1.pool.Lent (n + tied (s.change name f).1.hands) := by
  unfold change
  cases found : s.get? name with
  | none => exact lent
  | some b =>
    simp only [hands_put]
    rw [← Nat.add_assoc]
    exact fair _ _ _ (taken_lent named found lent)

theorem act_lent (named : s.Named) (lent : s.pool.Lent (n + tied s.hands)) (name : String)
    (a : PoolAction) : (s.act name a).1.pool.Lent (n + tied (s.act name a).1.hands) := by
  cases a with
  | allocate size => exact keep_lent named (lent.allocate size)
  | adopt bytes capacity => exact keep_lent named (lent.adopt bytes capacity)
  | unpooled bytes capacity => exact keep_lent named (by simpa [tied, Buffer.unpooled] using lent)
  | drop =>
    simp only [act]
    cases found : s.get? name with
    | none => exact lent
    | some b => exact (taken_lent named found lent).release
  | extend size => exact change_lent named (fun _ _ _ lent => lent.extend size) lent
  | shorten length =>
    refine change_lent named (fun pool b k lent => ?_) lent
    rwa [tied_same (b.shorten_pooled length)]
  | fill byte => exact change_lent named (fun _ _ _ lent => lent) lent
  | detach =>
    simp only [act]
    cases found : s.get? name with
    | none => exact lent
    | some b => exact (taken_lent named found lent).detach
  | «show» =>
    simp only [act]
    split <;> exact lent
  | showPool => exact lent
  | counts => exact lent

theorem act_kept (s : Shop) (name : String) (a : PoolAction) :
    (s.act name a).1.kept = s.kept ∨ (s.act name a).1.kept = (s.forget name).kept ∨
      ∃ b, (s.act name a).1.kept = (s.forget name).kept ++ [(name, b)] := by
  have put : ∀ made, ∃ b, (s.keep name made).1.kept = (s.forget name).kept ++ [(name, b)] :=
    fun made => ⟨made.2, rfl⟩
  have changed : ∀ f, (s.change name f).1.kept = s.kept ∨
      ∃ b, (s.change name f).1.kept = (s.forget name).kept ++ [(name, b)] := by
    intro f
    unfold change
    split
    · exact .inr ⟨_, rfl⟩
    · exact .inl rfl
  cases a with
  | allocate size => exact .inr (.inr (put _))
  | adopt bytes capacity => exact .inr (.inr (put _))
  | unpooled bytes capacity => exact .inr (.inr (put _))
  | extend size => exact (changed _).imp_right .inr
  | shorten length => exact (changed _).imp_right .inr
  | fill byte => exact (changed _).imp_right .inr
  | drop =>
    simp only [act]
    split
    · exact .inr (.inl rfl)
    · exact .inl rfl
  | detach =>
    simp only [act]
    split
    · exact .inr (.inl rfl)
    · exact .inl rfl
  | «show» =>
    simp only [act]
    split <;> exact .inl rfl
  | showPool => exact .inl rfl
  | counts => exact .inl rfl

theorem Named.act (named : s.Named) (name : String) (a : PoolAction) : (s.act name a).1.Named := by
  unfold Named
  rcases s.act_kept name a with same | gone | ⟨b, put⟩
  · rw [same]
    exact named
  · rw [gone]
    exact named.forget
  · rw [put]
    exact named.put (s.act name a).1.pool b

end Scenario.Shop
end StripeRecovery
