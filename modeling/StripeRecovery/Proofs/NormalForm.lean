import StripeRecovery.Committed
import Mathlib.Data.List.Chain
import Mathlib.Data.List.Permutation

/-!
What the normal form of a list of extents says: the same versions for the same bytes, in
extents that are sorted, disjoint and as long as they can be. It exists unless an extent is
reversed or a byte has two versions.
-/
namespace StripeRecovery
namespace Committed

/-- Some extent of the version contains the byte. -/
def Assigns (extents : List Extent) (version byte : Nat) : Prop :=
  ∃ e ∈ extents, e.version = version ∧ e.Contains byte

def Consistent (extents : List Extent) : Prop :=
  ∀ a ∈ extents, ∀ b ∈ extents, ∀ byte, a.Contains byte → b.Contains byte → a.version = b.version

/-- Extents in order, each with a byte, that neither overlap nor could be merged. -/
structure Normal (extents : List Extent) : Prop where
  filled : ∀ e ∈ extents, e.first < e.past
  apart : extents.IsChain fun a b => a.past ≤ b.first ∧ (a.past = b.first → a.version ≠ b.version)

variable {raw other extents rest : List Extent} {e last next : Extent} {version byte : Nat}

theorem assigns_nil : ¬ Assigns [] version byte := by
  rintro ⟨e, member, _⟩
  simp at member

theorem assigns_cons : Assigns (e :: rest) version byte ↔
    e.version = version ∧ e.Contains byte ∨ Assigns rest version byte := by
  simp [Assigns]

theorem assigns_of_mem (member : e ∈ extents) (contains : e.Contains byte) :
    Assigns extents e.version byte :=
  ⟨e, member, rfl, contains⟩

theorem Consistent.congr (consistent : Consistent raw)
    (same : ∀ version byte, Assigns other version byte → Assigns raw version byte) :
    Consistent other := by
  intro a ha b hb byte inside inside'
  obtain ⟨x, hx, version, contains⟩ := same _ _ (assigns_of_mem ha inside)
  obtain ⟨y, hy, version', contains'⟩ := same _ _ (assigns_of_mem hb inside')
  rw [← version, ← version']
  exact consistent x hx y hy byte contains contains'

theorem Normal.tail (normal : Normal (e :: rest)) : Normal rest where
  filled := fun d member => normal.filled d (by simp [member])
  apart := normal.apart.tail

theorem Normal.later (normal : Normal (e :: rest)) : ∀ d ∈ rest, e.past ≤ d.first := by
  induction rest generalizing e with
  | nil => simp
  | cons next rest ih =>
    have first := (List.isChain_cons_cons.mp normal.apart).1.1
    intro d member
    rcases List.mem_cons.mp member with rfl | there
    · exact first
    · have behind := ih normal.tail d there
      have filled := normal.filled next (by simp)
      omega

theorem Normal.disjoint (normal : Normal extents) :
    extents.Pairwise fun a b => a.past ≤ b.first := by
  induction extents with
  | nil => exact .nil
  | cons e rest ih => exact .cons normal.later (ih normal.tail)

theorem Normal.assigns_later (normal : Normal (e :: rest)) (assigned : Assigns rest version byte) :
    e.past ≤ byte := by
  obtain ⟨d, member, _, contains⟩ := assigned
  have behind := normal.later d member
  have inside := contains.1
  omega

theorem Normal.consistent (normal : Normal extents) : Consistent extents := by
  induction extents with
  | nil => simp [Consistent]
  | cons e rest ih =>
    have behind : ∀ d ∈ rest, ∀ byte, e.Contains byte → ¬ d.Contains byte := by
      intro d member byte inside inside'
      have := normal.later d member
      have := inside.2
      have := inside'.1
      omega
    intro a ha b hb byte inside inside'
    rcases List.mem_cons.mp ha with rfl | there <;> rcases List.mem_cons.mp hb with rfl | there'
    · rfl
    · exact absurd inside' (behind b there' byte inside)
    · exact absurd inside (behind a there byte inside')
    · exact ih normal.tail a there b there' byte inside inside'

/-- The four branches of a merge are three: join, refuse, go on. -/
theorem merge_cons (order : last.first ≤ next.first) (filled : next.first < next.past) :
    merge last (next :: rest) =
      if next.first ≤ last.past ∧ last.version = next.version then
        merge { last with past := max last.past next.past } rest
      else if next.first < last.past then .error (.conflict last next)
      else (merge next rest).map (last :: ·) := by
  have overlap : last.overlaps next = decide (next.first < last.past) := by
    have before : last.first < next.past := by omega
    simp [Extent.overlaps, before]
  rw [merge, overlap]
  rcases Nat.lt_trichotomy next.first last.past with inside | touching | behind
  · simp [inside, inside.le]
  · have longer : max last.past next.past = next.past := by omega
    simp [touching, longer]
  · have apart : last.past ≠ next.first := by omega
    have outside : ¬ next.first ≤ last.past := by omega
    have free : ¬ next.first < last.past := by omega
    simp [apart, outside, free]

theorem assigns_join (order : last.first ≤ next.first) (touching : next.first ≤ last.past)
    (version_eq : last.version = next.version) :
    Assigns ({ last with past := max last.past next.past } :: rest) version byte ↔
      Assigns (last :: next :: rest) version byte := by
  simp only [assigns_cons, Extent.Contains, ← version_eq, ← or_assoc, ← and_or_left]
  apply or_congr_left
  apply and_congr_right
  omega

structure Lined (extents : List Extent) : Prop where
  filled : ∀ e ∈ extents, e.first < e.past
  order : extents.Pairwise fun a b => a.first ≤ b.first

theorem Lined.tail (lined : Lined (e :: rest)) : Lined rest where
  filled := fun d member => lined.filled d (by simp [member])
  order := lined.order.tail

theorem Lined.join (lined : Lined (last :: next :: rest)) :
    Lined ({ last with past := max last.past next.past } :: rest) where
  filled := by
    intro d member
    rcases List.mem_cons.mp member with rfl | there
    · have := lined.filled last (by simp)
      simp only
      omega
    · exact lined.filled d (by simp [there])
  order := by
    have order := List.pairwise_cons.mp lined.order
    exact List.pairwise_cons.mpr ⟨fun d member => order.1 d (by simp [member]), order.2.tail⟩

theorem merge_ok (lined : Lined (last :: rest)) (done : merge last rest = .ok extents) :
    (∃ past later, extents = ⟨last.first, past, last.version⟩ :: later) ∧ Normal extents ∧
      ∀ version byte, Assigns extents version byte ↔ Assigns (last :: rest) version byte := by
  induction rest generalizing last extents with
  | nil =>
    obtain rfl : [last] = extents := by simpa [merge] using done
    exact ⟨⟨last.past, [], rfl⟩, ⟨lined.filled, by simp⟩, fun _ _ => Iff.rfl⟩
  | cons next rest ih =>
    have order := (List.pairwise_cons.mp lined.order).1 next (by simp)
    have filled := lined.filled next (by simp)
    rw [merge_cons order filled] at done
    split at done
    · rename_i joins
      obtain ⟨head, normal, same⟩ := ih lined.join done
      exact ⟨head, normal, fun version byte =>
        (same version byte).trans (assigns_join order joins.1 joins.2)⟩
    · rename_i separate
      split at done
      · simp at done
      · rename_i outside
        cases merged : merge next rest with
        | error fault => simp [merged, Except.map] at done
        | ok others =>
          obtain rfl : last :: others = extents := by simpa [merged, Except.map] using done
          obtain ⟨⟨past, later, rfl⟩, normal, same⟩ := ih lined.tail merged
          refine ⟨⟨last.past, _, rfl⟩, ⟨?_, ?_⟩, ?_⟩
          · intro d member
            rcases List.mem_cons.mp member with rfl | there
            · exact lined.filled d (by simp)
            · exact normal.filled d there
          · refine List.isChain_cons_cons.mpr ⟨⟨Nat.le_of_not_lt outside, ?_⟩, normal.apart⟩
            intro touching version_eq
            exact separate ⟨touching.ge, version_eq⟩
          · intro version byte
            rw [assigns_cons, same, ← assigns_cons]

theorem merge_error {fault : ExtentFault} (lined : Lined (last :: rest))
    (failed : merge last rest = .error fault) : ¬ Consistent (last :: rest) := by
  induction rest generalizing last fault with
  | nil => simp [merge] at failed
  | cons next rest ih =>
    have order := (List.pairwise_cons.mp lined.order).1 next (by simp)
    have filled := lined.filled next (by simp)
    rw [merge_cons order filled] at failed
    intro consistent
    split at failed
    · rename_i joins
      refine ih lined.join failed (consistent.congr fun version byte assigned => ?_)
      exact (assigns_join order joins.1 joins.2).mp assigned
    · rename_i separate
      split at failed
      · -- The first byte of `next` is also one of `last`.
        rename_i inside
        exact separate ⟨inside.le, consistent last (by simp) next (by simp) next.first
          ⟨order, inside⟩ ⟨Nat.le_refl _, filled⟩⟩
      · cases merged : merge next rest with
        | error fault =>
          exact ih lined.tail merged fun a ha b hb =>
            consistent a (by simp [ha]) b (by simp [hb])
        | ok others => simp [merged, Except.map] at failed

/-- The extents with a byte, in the order in which they are merged. -/
def arranged (raw : List Extent) : List Extent := (raw.filter (!·.isEmpty)).mergeSort inOrder

theorem isEmpty_eq_false : e.isEmpty = false ↔ e.first < e.past := by
  simp only [Extent.isEmpty, Extent.length, beq_eq_false_iff_ne]
  omega

theorem mem_arranged : e ∈ arranged raw ↔ e ∈ raw ∧ e.first < e.past := by
  rw [arranged, (List.mergeSort_perm _ _).mem_iff, List.mem_filter, Bool.not_eq_true',
    isEmpty_eq_false]

theorem arranged_lined (raw : List Extent) : Lined (arranged raw) where
  filled := fun _ member => (mem_arranged.mp member).2
  order := by
    have sorted : (arranged raw).Pairwise fun a b => inOrder a b = true := by
      apply List.pairwise_mergeSort
      · intro a b c
        simp only [inOrder, Bool.or_eq_true, Bool.and_eq_true, decide_eq_true_eq, beq_iff_eq]
        omega
      · intro a b
        simp only [inOrder, Bool.or_eq_true, Bool.and_eq_true, decide_eq_true_eq, beq_iff_eq]
        omega
    refine sorted.imp fun {a b} before => ?_
    simp only [inOrder, Bool.or_eq_true, Bool.and_eq_true, decide_eq_true_eq, beq_iff_eq] at before
    omega

theorem assigns_arranged : Assigns (arranged raw) version byte ↔ Assigns raw version byte := by
  constructor
  · rintro ⟨e, member, holds⟩
    exact ⟨e, (mem_arranged.mp member).1, holds⟩
  · rintro ⟨e, member, version_eq, contains⟩
    exact ⟨e, mem_arranged.mpr ⟨member, Nat.lt_of_le_of_lt contains.1 contains.2⟩, version_eq,
      contains⟩

theorem mergeAll_ok (lined : Lined raw) (done : mergeAll raw = .ok extents) :
    Normal extents ∧ ∀ version byte, Assigns extents version byte ↔ Assigns raw version byte := by
  cases raw with
  | nil =>
    obtain rfl : [] = extents := by simpa [mergeAll] using done
    exact ⟨⟨by simp, .nil⟩, fun _ _ => Iff.rfl⟩
  | cons first rest => exact (merge_ok lined done).2

theorem mergeAll_error {fault : ExtentFault} (lined : Lined raw)
    (failed : mergeAll raw = .error fault) : ¬ Consistent raw := by
  cases raw with
  | nil => simp [mergeAll] at failed
  | cons first rest => exact merge_error lined failed

/-- What a list of extents has to satisfy to have a normal form. -/
structure Sound (raw : List Extent) : Prop where
  forward : ∀ e ∈ raw, e.first ≤ e.past
  consistent : Consistent raw

variable {c : Committed}

theorem normalize_reversed (member : e ∈ raw) (reversed : e.past < e.first) :
    ∃ fault, normalize raw = .error fault := by
  unfold normalize
  split
  · exact ⟨_, rfl⟩
  · rename_i none
    have := List.find?_eq_none.mp none e member
    simp at this
    omega

theorem normalize_eq (forward : ∀ e ∈ raw, e.first ≤ e.past) :
    normalize raw = match mergeAll (arranged raw) with
      | .ok merged => .ok ⟨merged⟩
      | .error fault => .error (.extents fault) := by
  have none : raw.find? (fun e => e.past < e.first) = none := by
    rw [List.find?_eq_none]
    intro e member
    have := forward e member
    simp
    omega
  rw [normalize, none]
  rfl

theorem normalize_forward (done : normalize raw = .ok c) : ∀ e ∈ raw, e.first ≤ e.past := by
  intro e member
  by_contra reversed
  obtain ⟨fault, failed⟩ := normalize_reversed member (Nat.lt_of_not_le reversed)
  rw [failed] at done
  simp at done

theorem normalize_ok (done : normalize raw = .ok c) :
    Normal c.extents ∧
      ∀ version byte, Assigns c.extents version byte ↔ Assigns raw version byte := by
  rw [normalize_eq (normalize_forward done)] at done
  cases merged : mergeAll (arranged raw) with
  | error fault => simp [merged] at done
  | ok extents =>
    obtain rfl : ⟨extents⟩ = c := by simpa [merged] using done
    obtain ⟨normal, same⟩ := mergeAll_ok (arranged_lined raw) merged
    exact ⟨normal, fun version byte => (same version byte).trans assigns_arranged⟩

theorem normalize_ok_iff : (∃ c, normalize raw = .ok c) ↔ Sound raw := by
  constructor
  · rintro ⟨c, done⟩
    obtain ⟨normal, same⟩ := normalize_ok done
    exact ⟨normalize_forward done, normal.consistent.congr fun v b => (same v b).mpr⟩
  · intro sound
    rw [normalize_eq sound.forward]
    cases merged : mergeAll (arranged raw) with
    | ok extents => exact ⟨_, rfl⟩
    | error fault =>
      exact absurd (sound.consistent.congr fun _ _ => assigns_arranged.mp)
        (mergeAll_error (arranged_lined raw) merged)

/-- A list of extents has a normal form just if none of them is reversed and no byte has two
    versions. The normal form is sorted, its extents are not empty and share no byte, no two
    neighbours could be one, and it gives the bytes the versions that the list gives them. -/
theorem normalize_meaning (raw : List Extent) :
    ((∃ c, normalize raw = .ok c) ↔ (∀ e ∈ raw, e.first ≤ e.past) ∧
      ∀ a ∈ raw, ∀ b ∈ raw, a.isEmpty = false → b.isEmpty = false → a.version ≠ b.version →
        ∀ byte, ¬ (a.Contains byte ∧ b.Contains byte)) ∧
    ∀ c, normalize raw = .ok c →
      c.extents.Pairwise (fun a b => a.first < b.first) ∧
      (∀ e ∈ c.extents, e.isEmpty = false) ∧
      c.extents.Pairwise (fun a b => ∀ byte, ¬ (a.Contains byte ∧ b.Contains byte)) ∧
      c.extents.IsChain (fun a b => ¬ (a.past = b.first ∧ a.version = b.version)) ∧
      ∀ version byte, Assigns c.extents version byte ↔ Assigns raw version byte := by
  constructor
  · rw [normalize_ok_iff]
    constructor
    · intro sound
      refine ⟨sound.forward, fun a ha b hb _ _ unlike byte shared => unlike ?_⟩
      exact sound.consistent a ha b hb byte shared.1 shared.2
    · rintro ⟨forward, apart⟩
      refine ⟨forward, fun a ha b hb byte inside inside' => ?_⟩
      by_contra unlike
      refine apart a ha b hb ?_ ?_ unlike byte ⟨inside, inside'⟩
      · exact isEmpty_eq_false.mpr (Nat.lt_of_le_of_lt inside.1 inside.2)
      · exact isEmpty_eq_false.mpr (Nat.lt_of_le_of_lt inside'.1 inside'.2)
  · intro c done
    obtain ⟨normal, same⟩ := normalize_ok done
    refine ⟨?_, fun e member => isEmpty_eq_false.mpr (normal.filled e member), ?_, ?_, same⟩
    · refine normal.disjoint.imp_of_mem fun {a b} member _ before => ?_
      have filled := normal.filled a member
      omega
    · refine normal.disjoint.imp fun {a b} before byte shared => ?_
      have inside := shared.1.2
      have inside' := shared.2.1
      omega
    · exact normal.apart.imp fun a b apart joins => apart.2 joins.1 joins.2

/-- Touching, overlapping and empty extents of two versions, out of order. -/
theorem normalize_meaning_two_versions :
    let raw : List Extent :=
      [⟨100, 200, 2⟩, ⟨0, 50, 1⟩, ⟨50, 100, 1⟩, ⟨150, 250, 2⟩, ⟨120, 120, 7⟩]
    normalize raw = .ok ⟨[⟨0, 100, 1⟩, ⟨100, 250, 2⟩]⟩ ∧
      ¬ (∃ c, normalize (⟨99, 101, 1⟩ :: raw) = .ok c) ∧
      ∀ version byte, Assigns [⟨0, 100, 1⟩, ⟨100, 250, 2⟩] version byte ↔
        Assigns raw version byte := by
  intro raw
  have done : normalize raw = .ok ⟨[⟨0, 100, 1⟩, ⟨100, 250, 2⟩]⟩ := by cbv
  obtain ⟨_, means⟩ := normalize_meaning raw
  refine ⟨done, ?_, (means _ done).2.2.2.2⟩
  rw [(normalize_meaning _).1]
  rintro ⟨_, apart⟩
  exact apart ⟨99, 101, 1⟩ (by simp) ⟨100, 200, 2⟩ (by simp [raw]) (by decide) (by decide)
    (by decide) 100 (by decide)

end Committed
end StripeRecovery
