import StripeRecovery.Proofs.Visible
import Mathlib.Algebra.Ring.Nat

/-!
The size classes of a pool, and what lies on its shelves. A request goes to the least class that
holds it, and storage comes back under its own capacity. Both are rounded up in the same way, so
what is on a shelf has the size of its class, however the settings are chosen.
-/
namespace StripeRecovery

theorem roundUp_of_le {n : Nat} (small : n ≤ 2 ^ 63) :
    roundUp n = if n ≤ 1 then 1 else 2 ^ ((n - 1).log2 + 1) := by
  unfold roundUp
  split
  · rfl
  · have short : (n - 1).log2 < 63 := (Nat.log2_lt (by omega)).mpr (by omega)
    have word : 2 ^ ((n - 1).log2 + 1) < UInt64.size :=
      Nat.pow_lt_pow_right (by omega) (show (n - 1).log2 + 1 < 64 by omega)
    rw [Nat.one_shiftLeft, Nat.mod_eq_of_lt word]

theorem roundUp_of_lt {n : Nat} (large : 2 ^ 63 < n) : roundUp n = 0 := by
  have long : 63 ≤ (n - 1).log2 := (Nat.le_log2 (by omega)).mpr (by omega)
  have wraps : UInt64.size ∣ 2 ^ ((n - 1).log2 + 1) :=
    Nat.pow_dvd_pow 2 (show 64 ≤ (n - 1).log2 + 1 by omega)
  unfold roundUp
  rw [if_neg (by omega), Nat.one_shiftLeft, Nat.mod_eq_zero_of_dvd wraps]

theorem roundUp_isPowerOfTwo {n : Nat} (small : n ≤ 2 ^ 63) : (roundUp n).isPowerOfTwo := by
  rw [roundUp_of_le small]
  split
  · exact Nat.isPowerOfTwo_one
  · exact ⟨_, rfl⟩

theorem roundUp_le_iff {n c : Nat} (small : n ≤ 2 ^ 63) (power : c.isPowerOfTwo) :
    roundUp n ≤ c ↔ n ≤ c := by
  obtain ⟨k, rfl⟩ := power
  rw [roundUp_of_le small]
  split
  · have one := Nat.two_pow_pos k
    omega
  · have nonzero : n - 1 ≠ 0 := by omega
    rw [Nat.pow_le_pow_iff_right (by omega), Nat.succ_le_iff, Nat.log2_lt nonzero]
    omega

theorem le_roundUp {n : Nat} (small : n ≤ 2 ^ 63) : n ≤ roundUp n :=
  (roundUp_le_iff small (roundUp_isPowerOfTwo small)).mp (Nat.le_refl _)

theorem isPowerOfTwo_iff {n : Nat} : isPowerOfTwo n = true ↔ n.isPowerOfTwo ∧ n ≤ 2 ^ 63 := by
  rw [isPowerOfTwo, beq_iff_eq]
  constructor
  · intro same
    have small : n ≤ 2 ^ 63 := by
      by_contra large
      rw [roundUp_of_lt (by omega)] at same
      omega
    exact ⟨same ▸ roundUp_isPowerOfTwo small, small⟩
  · rintro ⟨power, small⟩
    exact Nat.le_antisymm ((roundUp_le_iff small power).mpr (Nat.le_refl n)) (le_roundUp small)

theorem le_grownTo (capacity size : Nat) : size ≤ grownTo capacity size := by
  unfold grownTo
  split <;> omega

theorem grownTo_of_le {capacity size : Nat} (fits : size ≤ capacity) :
    grownTo capacity size = capacity := if_pos fits

namespace PoolSettings

structure IsClass (settings : PoolSettings) (c : Nat) : Prop where
  power : c.isPowerOfTwo
  word : c ≤ 2 ^ 63
  smallest_le : settings.smallest ≤ c
  le_largest : c ≤ settings.largest

structure LeastClass (settings : PoolSettings) (size c : Nat) : Prop where
  isClass : settings.IsClass c
  size_le : size ≤ c
  least : ∀ d, settings.IsClass d → size ≤ d → c ≤ d

variable {settings : PoolSettings} {size c : Nat}

theorem classFor?_eq_some_iff (least : settings.smallest ≤ 2 ^ 63) (small : size ≤ 2 ^ 63) :
    settings.classFor? size = some c ↔ settings.LeastClass size c := by
  have words : max size settings.smallest ≤ 2 ^ 63 := Nat.max_le.mpr ⟨small, least⟩
  have within : ∀ {d}, settings.IsClass d → size ≤ d →
      roundUp (max size settings.smallest) ≤ d := fun isClass holds =>
    (roundUp_le_iff words isClass.power).mpr (Nat.max_le.mpr ⟨holds, isClass.smallest_le⟩)
  have above := Nat.max_le.mp (le_roundUp words)
  have power := roundUp_isPowerOfTwo words
  have word : roundUp (max size settings.smallest) ≤ 2 ^ 63 :=
    (roundUp_le_iff words ⟨63, rfl⟩).mpr words
  simp only [classFor?]
  constructor
  · intro found
    split at found
    · rename_i fits
      obtain rfl := Option.some.inj found
      exact ⟨⟨power, word, above.2, fits⟩, above.1, fun _ isClass => within isClass⟩
    · simp at found
  · rintro ⟨isClass, holds, least⟩
    have fits : roundUp (max size settings.smallest) ≤ settings.largest :=
      Nat.le_trans (within isClass holds) isClass.le_largest
    have same : roundUp (max size settings.smallest) = c :=
      Nat.le_antisymm (within isClass holds) (least _ ⟨power, word, above.2, fits⟩ above.1)
    rw [if_pos fits, same]

theorem stored_iff :
    isPowerOfTwo c = true ∧ settings.classFor? c = some c ↔ settings.IsClass c := by
  constructor
  · rintro ⟨power, own⟩
    obtain ⟨power, word⟩ := isPowerOfTwo_iff.mp power
    have least : settings.smallest ≤ 2 ^ 63 := by
      by_contra large
      have none_left : roundUp (max c settings.smallest) = 0 := roundUp_of_lt (by omega)
      have positive := Nat.pos_of_isPowerOfTwo power
      simp only [classFor?, none_left] at own
      split at own
      · obtain rfl := Option.some.inj own
        omega
      · simp at own
    exact ((classFor?_eq_some_iff least word).mp own).isClass
  · intro isClass
    have least : settings.smallest ≤ 2 ^ 63 := Nat.le_trans isClass.smallest_le isClass.word
    refine ⟨isPowerOfTwo_iff.mpr ⟨isClass.power, isClass.word⟩, ?_⟩
    rw [classFor?_eq_some_iff least isClass.word]
    exact ⟨isClass, Nat.le_refl c, fun _ _ above => above⟩

instance (settings : PoolSettings) (c : Nat) : Decidable (settings.IsClass c) :=
  decidable_of_iff _ stored_iff

/-- A buffer that is given back to a class whose shelf is to be set up without room. -/
def Breaks (settings : PoolSettings) (b : Buffer) : Prop :=
  b.pooled = true ∧ settings.IsClass b.capacity ∧ settings.shelfRoom = 0

theorem le_roomFor (settings : PoolSettings) (size : Nat) : size ≤ settings.roomFor size :=
  le_grownTo _ size

theorem small_of_roomFor (fits : settings.roomFor size ≤ maxStorage) : size ≤ 2 ^ 63 := by
  have within := settings.le_roomFor size
  simp only [maxStorage] at fits
  omega

theorem roomFor_eq (least : settings.smallest ≤ 2 ^ 63) (small : size ≤ 2 ^ 63) :
    settings.roomFor size = (settings.classFor? size).getD size := by
  refine grownTo_of_le ?_
  cases found : settings.classFor? size with
  | none => exact Nat.le_refl size
  | some c => exact ((classFor?_eq_some_iff least small).mp found).size_le

end PoolSettings

/-- A shelf of a size class, with storage of just that size and not too much of it. -/
structure Shelf.Stocked (settings : PoolSettings) (shelf : Shelf) : Prop where
  isClass : settings.IsClass shelf.size
  fits : ∀ s ∈ shelf.idle, s.capacity = shelf.size
  room : shelf.idle.length ≤ settings.shelfRoom

namespace Pool

structure Stocked (p : Pool) : Prop where
  single : (p.shelves.map (·.size)).Nodup
  shelves : ∀ shelf ∈ p.shelves, shelf.Stocked p.settings

variable {p : Pool} {size c : Nat} {idle : List Storage} {shelves : List Shelf} {b : Buffer}

theorem mem_setShelf {shelf : Shelf} (member : shelf ∈ setShelf size idle shelves) :
    shelf = ⟨size, idle⟩ ∨ shelf ∈ shelves := by
  induction shelves with
  | nil => exact .inl (List.mem_singleton.mp member)
  | cons first rest ih =>
    unfold setShelf at member
    split at member
    · rcases List.mem_cons.mp member with new | later
      · exact .inl new
      · exact .inr (List.mem_cons_of_mem first later)
    · rcases List.mem_cons.mp member with rfl | later
      · exact .inr List.mem_cons_self
      · exact (ih later).imp_right (List.mem_cons_of_mem first)

theorem setShelf_single (single : (shelves.map (·.size)).Nodup) :
    ((setShelf size idle shelves).map (·.size)).Nodup := by
  induction shelves with
  | nil => simp [setShelf]
  | cons first rest ih =>
    obtain ⟨new, single⟩ := List.nodup_cons.mp single
    unfold setShelf
    split
    · rename_i here
      exact List.nodup_cons.mpr ⟨here ▸ new, single⟩
    · rename_i elsewhere
      refine List.nodup_cons.mpr ⟨fun again => ?_, ih single⟩
      obtain ⟨shelf, member, same⟩ := List.mem_map.mp again
      rcases mem_setShelf member with rfl | there
      · exact elsewhere same.symm
      · exact new (List.mem_map.mpr ⟨shelf, there, same⟩)

theorem Stocked.setShelf (stocked : p.Stocked) (shelf : Shelf.Stocked p.settings ⟨size, idle⟩)
    (counts : PoolCounts) (fault : Option PoolFault) :
    (Pool.mk p.settings (setShelf size idle p.shelves) counts fault).Stocked := by
  refine ⟨setShelf_single stocked.single, fun other member => ?_⟩
  rcases mem_setShelf member with rfl | there
  · exact shelf
  · exact stocked.shelves other there

theorem shelf_cases (p : Pool) (size : Nat) :
    p.shelf size = [] ∨ ⟨size, p.shelf size⟩ ∈ p.shelves := by
  unfold shelf
  split
  · rename_i shelf found
    have same : shelf.size = size := by simpa using List.find?_some found
    exact .inr (same ▸ List.mem_of_find?_eq_some found)
  · exact .inl rfl

theorem Stocked.shelf (stocked : p.Stocked) (isClass : p.settings.IsClass c) :
    Shelf.Stocked p.settings ⟨c, p.shelf c⟩ := by
  rcases p.shelf_cases c with none | there
  · rw [none]
    exact ⟨isClass, by simp, Nat.zero_le _⟩
  · exact stocked.shelves _ there

theorem Stocked.shelved (stocked : p.Stocked) : p.Shelved := by
  intro size s member
  rcases p.shelf_cases size with none | there
  · simp [none] at member
  · exact (stocked.shelves _ there).fits s member

def Takes (p : Pool) (b : Buffer) : Prop :=
  b.pooled = true ∧ p.settings.IsClass b.capacity ∧
    (p.shelf b.capacity).length < p.settings.shelfRoom

instance (p : Pool) (b : Buffer) : Decidable (p.Takes b) :=
  inferInstanceAs (Decidable (_ ∧ _ ∧ _))

theorem release_cases (p : Pool) (b : Buffer) :
    (p.Takes b ∧ p.release b = ⟨p.settings,
      setShelf b.capacity (p.shelf b.capacity ++ [⟨b.bytes ++ b.stale, b.capacity⟩]) p.shelves,
      { p.counts with released := p.counts.released + 1 }, p.fault⟩) ∨
    (p.settings.Breaks b ∧ p.release b =
      stop { p with counts := { p.counts with released := p.counts.released + 1 } } .noRoom) ∨
    (¬ p.Takes b ∧ ¬ p.settings.Breaks b ∧ p.release b =
      { p with counts := { p.counts with released := p.counts.released + tied [b] } }) := by
  unfold release Takes PoolSettings.Breaks
  by_cases pooled : b.pooled = true
  · have one : tied [b] = 1 := by simp [tied, pooled]
    rw [if_pos pooled, one]
    unfold store
    by_cases isClass : p.settings.IsClass b.capacity
    · rw [if_pos (PoolSettings.stored_iff.mpr isClass)]
      by_cases bare : p.settings.shelfRoom = 0
      · exact .inr (.inl ⟨⟨pooled, isClass, bare⟩, if_pos bare⟩)
      · rw [if_neg bare]
        by_cases room : (p.shelf b.capacity).length < p.settings.shelfRoom
        · exact .inl ⟨⟨pooled, isClass, room⟩, if_pos room⟩
        · exact .inr (.inr ⟨fun takes => room takes.2.2, fun breaks => bare breaks.2.2,
            if_neg room⟩)
    · exact .inr (.inr ⟨fun takes => isClass takes.2.1, fun breaks => isClass breaks.2.1,
        if_neg fun own => isClass (PoolSettings.stored_iff.mp own)⟩)
  · have none : tied [b] = 0 := by simp [tied, pooled]
    rw [none]
    exact .inr (.inr ⟨fun takes => pooled takes.1, fun breaks => pooled breaks.1, if_neg pooled⟩)

theorem Stocked.allocate (stocked : p.Stocked) (size : Nat) : (p.allocate size).1.Stocked := by
  rw [allocate_eq]
  rcases p.take_cases size with ⟨c, s, rest, found, idle, taken⟩ | ⟨_, taken⟩
  · have there : s ∈ p.shelf c := by simp [idle]
    have isClass : p.settings.IsClass c := by
      rcases p.shelf_cases c with none | member
      · simp [none] at there
      · exact (stocked.shelves _ member).isClass
    have shelf := stocked.shelf isClass
    rw [idle] at shelf
    have left : Shelf.Stocked p.settings ⟨c, rest⟩ := ⟨shelf.isClass,
      fun t later => shelf.fits t (List.mem_cons_of_mem s later), Nat.le_of_succ_le shelf.room⟩
    rw [taken]
    exact stocked.setShelf left _ _
  · rw [taken]
    exact ⟨stocked.single, stocked.shelves⟩

theorem Stocked.release (stocked : p.Stocked) (b : Buffer) : (p.release b).Stocked := by
  rcases p.release_cases b with ⟨⟨_, isClass, room⟩, done⟩ | ⟨_, done⟩ | ⟨_, _, done⟩
  · rw [done]
    have shelf := stocked.shelf isClass
    refine stocked.setShelf ⟨isClass, fun s member => ?_, ?_⟩ _ _
    · rcases List.mem_append.mp member with idle | new
      · exact shelf.fits s idle
      · rw [List.mem_singleton.mp new]
    · simpa using Nat.succ_le_of_lt room
  · rw [done]
    exact ⟨stocked.single, stocked.shelves⟩
  · rw [done]
    exact ⟨stocked.single, stocked.shelves⟩

theorem idle_eq_sum (p : Pool) : p.idle = (p.shelves.map (·.idle.length)).sum := by
  rw [idle, List.sum_eq_foldl, List.foldl_map]

theorem idle_setShelf (p : Pool) (size : Nat) (idle : List Storage) (counts : PoolCounts)
    (fault : Option PoolFault) :
    (Pool.mk p.settings (setShelf size idle p.shelves) counts fault).idle +
      (p.shelf size).length = p.idle + idle.length := by
  obtain ⟨settings, shelves, counts', fault'⟩ := p
  simp only [idle_eq_sum]
  -- The first shelf of a size is the one that is read and the one that is set, so this needs no
  -- order on the shelves.
  induction shelves with
  | nil => simp [setShelf, Pool.shelf]
  | cons first rest ih =>
    simp only [Pool.shelf, setShelf] at ih ⊢
    by_cases here : first.size = size
    · simp only [here, ↓reduceIte, List.map_cons, List.sum_cons, List.find?_cons, beq_self_eq_true]
      omega
    · have other : (first.size == size) = false := by simpa using here
      simp only [here, ↓reduceIte, List.map_cons, List.sum_cons, List.find?_cons, other]
      omega

end Pool
end StripeRecovery
