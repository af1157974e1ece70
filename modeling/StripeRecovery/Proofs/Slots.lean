import StripeRecovery.Proofs.Completion

/-!
A repair by way of slots, whoever fills them. What is lent comes back: a shard that is there is
the same afterwards, on both ways it can go, and an absent one has the filler's piece in its range
or is left alone. With the filler of the code it is the repair.
-/
namespace StripeRecovery

/-- What is lent of some shards: the ranges of those that are there. -/
def Slots.ofShards (shards : List Shard) (present : List Bool) (offset length : Nat) : Slots :=
  List.zipWith (fun s isThere => if isThere then some (s.cut offset length) else none)
    shards present

section Lend
variable {shards : List Shard} {present : List Bool} {whole : Bool} {offset length : Nat}

theorem lend_slot {s : Shard} (spans : whole = true → offset = 0 ∧ s.length = length)
    (isThere : Bool) : (s.lend whole offset length isThere).slot =
      if isThere then some (s.cut offset length) else none := by
  cases isThere with
  | false => rfl
  | true =>
    cases whole with
    | false => rfl
    | true =>
      obtain ⟨rfl, even⟩ := spans rfl
      exact congrArg some (cut_whole even).symm

theorem lent_slots (spans : whole = true → offset = 0 ∧ ∀ s ∈ shards, s.length = length) :
    (List.zipWith (Shard.lend whole offset length) shards present).map (·.slot) =
      Slots.ofShards shards present offset length := by
  induction shards generalizing present with
  | nil => rfl
  | cons s rest ih =>
    cases present with
    | nil => rfl
    | cons isThere flags =>
      have first : (s.lend whole offset length isThere).slot =
          if isThere then some (s.cut offset length) else none :=
        lend_slot (fun is => ⟨(spans is).1, (spans is).2 s (by simp)⟩) isThere
      have later : (List.zipWith (Shard.lend whole offset length) rest flags).map (·.slot) =
          Slots.ofShards rest flags offset length :=
        ih fun is => ⟨(spans is).1, fun t member => (spans is).2 t (by simp [member])⟩
      simp only [List.zipWith_cons_cons, List.map_cons, Slots.ofShards, first] at later ⊢
      rw [later]

theorem ofShards_length (flags : present.length = shards.length) :
    (Slots.ofShards shards present offset length).length = shards.length := by
  simp [Slots.ofShards, flags]

theorem ofShards_get {i : Nat} {s : Shard} {isThere : Bool} (shard : shards[i]? = some s)
    (flag : present[i]? = some isThere) : (Slots.ofShards shards present offset length)[i]? =
      some (if isThere then some (s.cut offset length) else none) := by
  simp [Slots.ofShards, List.getElem?_zipWith, shard, flag]

theorem mem_ofShards {t : Shard} (member : some t ∈ Slots.ofShards shards present offset length) :
    ∃ s ∈ shards, t = s.cut offset length := by
  obtain ⟨i, found⟩ := List.mem_iff_getElem?.mp member
  simp only [Slots.ofShards, List.getElem?_zipWith] at found
  split at found
  · rename_i s isThere shard flag
    simp only [Option.some.injEq, Option.ite_none_right_eq_some] at found
    exact ⟨s, List.mem_of_getElem? shard, found.2.symm⟩
  · simp at found

theorem ofShards_even (long : ∀ s ∈ shards, offset + length ≤ s.length) :
    ∀ t, some t ∈ Slots.ofShards shards present offset length → t.length = length := by
  intro t member
  obtain ⟨s, shard, rfl⟩ := mem_ofShards member
  exact cut_length (long s shard)

theorem ofShards_held : (Slots.ofShards shards present offset length).held =
    (((samplesOf shards).zip present).filter (·.2)).map fun s =>
      ⟨s.1.position, s.1.shard.cut offset length⟩ := by
  simp only [Slots.held, samplesOf, Slots.ofShards]
  generalize 0 = start
  induction shards generalizing present start with
  | nil => rfl
  | cons s rest ih =>
    cases present with
    | nil => rfl
    | cons isThere flags =>
      cases isThere with
      | false => simpa using ih (start + 1)
      | true => simpa using ih (start + 1)

theorem ofShards_witnesses {c : Code} :
    (Slots.ofShards shards present offset length).held.take c.data =
      c.witnesses shards present offset length := by
  rw [ofShards_held]
  rfl

theorem ofShards_count (flags : present.length = shards.length) :
    (Slots.ofShards shards present offset length).countP (·.isSome) = present.count true := by
  induction shards generalizing present with
  | nil =>
    obtain rfl := List.length_eq_zero_iff.mp flags
    rfl
  | cons s rest ih =>
    cases present with
    | nil => simp at flags
    | cons isThere more =>
      have later : (Slots.ofShards rest more offset length).countP (·.isSome) = more.count true :=
        ih (by simpa using flags)
      simp only [Slots.ofShards] at later
      cases isThere with
      | false => simp [Slots.ofShards, later]
      | true => simp [Slots.ofShards, later]

theorem whole_spans (is : (offset == 0 && shards.all (·.length == length)) = true) :
    offset = 0 ∧ ∀ s ∈ shards, s.length = length := by
  simpa using is

end Lend

namespace Code
variable {c : Code} {shards : List Shard} {present : List Bool} {offset length : Nat}
  {recreate : Bool}

theorem count_true_not (flags : List Bool) :
    (flags.map fun flag => !flag).count true = flags.count false := by
  rw [List.count, List.countP_map]
  congr 1
  funext flag
  cases flag <;> rfl

section Counts
variable (flags : present.length = c.width)
include flags

theorem regenerated_data :
    (((List.range c.width).map fun i => decide (c.Regenerates present recreate i)).take
      c.data).count true = (present.take c.data).count false := by
  rw [← count_true_not]
  congr 1
  apply List.ext_getElem
  · simp [flags]
  · intro i hi hi'
    have isData : i < c.data := by simp at hi; omega
    have inside : i < present.length := by simp at hi'; omega
    simp [Regenerates, isData, inside]

theorem regenerated_parity :
    (((List.range c.width).map fun i => decide (c.Regenerates present recreate i)).drop
      c.data).count true =
    if recreate = true ∨ ∀ j < c.data, present[j]? = some true then
      (present.drop c.data).count false else 0 := by
  have flagged : ((List.range c.width).map fun i => decide (c.Regenerates present recreate i)).drop
      c.data = (present.drop c.data).map fun flag =>
        !flag && decide (recreate = true ∨ ∀ j < c.data, present[j]? = some true) := by
    apply List.ext_getElem
    · simp [flags]
    · intro i hi hi'
      have inside : c.data + i < present.length := by simp at hi'; omega
      simp [Regenerates, inside]
  rw [flagged]
  by_cases wanted : recreate = true ∨ ∀ j < c.data, present[j]? = some true
  · simpa [wanted] using count_true_not (present.drop c.data)
  · simp [wanted, List.count]

end Counts

theorem nothing_absent (c : Code) (recreate : Bool) (whole : present.all id = true) :
    (present.take c.data).count false = 0 ∧ (present.drop c.data).count false = 0 ∧
      ∀ i, ¬ c.Regenerates present recreate i := by
  have all : false ∉ present := by
    intro lost
    simpa using List.all_eq_true.mp whole false lost
  refine ⟨?_, ?_, ?_⟩
  · exact List.count_eq_zero.mpr fun member => all (List.mem_of_mem_take member)
  · exact List.count_eq_zero.mpr fun member => all (List.mem_of_mem_drop member)
  · intro i regenerates
    exact all (List.mem_of_getElem? regenerates.1)

section Filled
variable {whole : Bool} {after : Slots} (flags : present.length = c.width)
  (count : shards.length = c.width)
  (spans : whole = true → offset = 0 ∧ ∀ s ∈ shards, s.length = length)
  (filled : c.Filled (c.wantsParity present recreate) length
    (Slots.ofShards shards present offset length) after)
include flags count filled

theorem filled_get {i : Nat} {s : Shard} (shard : shards[i]? = some s) :
    (present[i]? = some true ∧ ¬ c.Regenerates present recreate i ∧
      after[i]? = some (some (s.cut offset length))) ∨
    (present[i]? = some false ∧ ¬ c.Regenerates present recreate i ∧ after[i]? = some none) ∨
    (present[i]? = some false ∧ c.Regenerates present recreate i ∧
      ∃ piece : Shard, after[i]? = some (some piece) ∧ piece.length = length) := by
  have inside : i < present.length := by
    have := (List.getElem?_eq_some_iff.mp shard).1
    omega
  have due : c.Regenerates present recreate i ↔
      present[i]? = some false ∧ (i < c.data ∨ c.wantsParity present recreate = true) :=
    (regenerates_iff flags).trans writes_iff
  rcases flag_cases inside with flag | flag
  · have slot : (Slots.ofShards shards present offset length)[i]? =
        some (some (s.cut offset length)) := ofShards_get shard flag
    exact .inl ⟨flag, by simp [Regenerates, flag], filled.kept i _ slot⟩
  · have slot : (Slots.ofShards shards present offset length)[i]? = some none :=
      ofShards_get shard flag
    by_cases regenerates : c.Regenerates present recreate i
    · exact .inr (.inr ⟨flag, regenerates, filled.filled i slot (due.mp regenerates).2⟩)
    · refine .inr (.inl ⟨flag, regenerates, filled.spared i slot fun wanted => ?_⟩)
      exact regenerates (due.mpr ⟨flag, wanted⟩)

theorem regenerated_eq : List.zipWith (fun loan slot => !loan.isThere && slot.isSome)
      (List.zipWith (Shard.lend whole offset length) shards present) after =
    (List.range c.width).map fun i => decide (c.Regenerates present recreate i) := by
  have afterSize : after.length = shards.length := by
    rw [filled.length, ofShards_length (flags.trans count.symm)]
  apply List.ext_getElem?
  intro i
  by_cases inside : i < shards.length
  · have within : i < c.width := by omega
    have shard := List.getElem?_eq_getElem inside
    rcases filled_get flags count filled shard with ⟨flag, spared, slot⟩ | ⟨flag, spared, slot⟩ |
      ⟨flag, regenerates, piece, slot, _⟩
    · cases whole <;>
        simp [List.getElem?_zipWith, flag, slot, spared, inside, within, Shard.lend]
    · simp [List.getElem?_zipWith, flag, slot, spared, inside, within, Shard.lend]
    · simp [List.getElem?_zipWith, flag, slot, regenerates, inside, within, Shard.lend]
  · rw [List.getElem?_eq_none (by simp; omega), List.getElem?_eq_none (by simp; omega)]

include spans

theorem returned_get {i : Nat} {s : Shard} (shard : shards[i]? = some s) :
    (List.zipWith (·.settle whole offset ·)
      (List.zipWith (Shard.lend whole offset length) shards present) after)[i]? =
      some (if c.Regenerates present recreate i then
        s.splice offset ((after.getD i none).getD []) else s) := by
  rcases filled_get flags count filled shard with ⟨flag, spared, slot⟩ | ⟨flag, spared, slot⟩ |
    ⟨flag, regenerates, piece, slot, _⟩
  · cases whole with
    | false => simp [List.getElem?_zipWith, shard, flag, slot, spared, Shard.lend, Loan.settle]
    | true =>
      obtain ⟨rfl, even⟩ := spans rfl
      have same : s.cut 0 length = s := cut_whole (even s (List.mem_of_getElem? shard))
      simp [List.getElem?_zipWith, shard, flag, slot, spared, Shard.lend, Loan.settle, same]
  · simp [List.getElem?_zipWith, shard, flag, slot, spared, Shard.lend, Loan.settle]
  · simp [List.getElem?_zipWith, shard, flag, slot, regenerates, Shard.lend, Loan.settle]

end Filled

theorem busy_positive (busy : (present.all id || length == 0) = false) : 0 < length := by
  rw [Nat.pos_iff_ne_zero]
  rintro rfl
  simp at busy

section Accepted
variable (accepts : c.Accepts shards present (offset + length)) {fill : Filler}
include accepts

theorem repairWith_idle (idle : (present.all id || length == 0) = true) :
    c.repairWith fill shards present offset length recreate = ⟨shards, .ok ⟨0, 0⟩⟩ := by
  simp only [repairWith, accepts_iff.mp accepts, idle, ↓reduceIte]

theorem repair_idle (idle : (present.all id || length == 0) = true) :
    c.repair shards present offset length recreate = ⟨shards, .ok ⟨0, 0⟩⟩ := by
  by_cases empty : length = 0
  · subst empty
    exact repair_nothing accepts
  · have whole : present.all id = true := by simpa [empty] using idle
    obtain ⟨noData, noParity, spared⟩ := nothing_absent c recreate whole
    rw [repair_pair accepts, counted, if_neg empty, noData, noParity, ite_self]
    congr 1
    apply List.ext_getElem?
    exact fun i => repair_spares (spared i)

theorem repairWith_filled (busy : (present.all id || length == 0) = false) {after : Slots}
    (done : fill (c.wantsParity present recreate) (Slots.ofShards shards present offset length) =
      ⟨after, none⟩)
    (filled : c.Filled (c.wantsParity present recreate) length
      (Slots.ofShards shards present offset length) after) :
    c.repairWith fill shards present offset length recreate =
      ⟨shards.zipIdx.map fun (s, i) => if c.Regenerates present recreate i then
          s.splice offset ((after.getD i none).getD []) else s,
        .ok (c.counted present length recreate)⟩ := by
  have flags := accepts.flags
  have count := accepts.count
  have positive := busy_positive busy
  simp only [repairWith, accepts_iff.mp accepts, busy, Bool.false_eq_true, ↓reduceIte,
    lent_slots whole_spans, done, regenerated_eq flags count filled, regenerated_data flags,
    regenerated_parity flags, counted, Nat.ne_of_gt positive]
  congr 1
  apply List.ext_getElem?
  intro i
  cases shard : shards[i]? with
  | none => simp [List.getElem?_zipWith, List.getElem?_zipIdx, shard]
  | some s =>
    rw [returned_get flags count whole_spans filled shard]
    simp [List.getElem?_map, List.getElem?_zipIdx, shard]

theorem Completes.filled (completes : c.Completes fill) (positive : 0 < length) (parity : Bool) :
    ∃ after, fill parity (Slots.ofShards shards present offset length) = ⟨after, none⟩ ∧
      c.Filled parity length (Slots.ofShards shards present offset length) after := by
  have same := accepts.sameLength
  obtain ⟨silent, filled⟩ := completes parity (Slots.ofShards shards present offset length) length
    (by rw [ofShards_length same, accepts.count]) positive (ofShards_even accepts.long)
    (by rw [ofShards_count same]; exact accepts.enough)
  refine ⟨_, ?_, filled⟩
  rw [← silent]

theorem complete_regenerated (positive : 0 < length) {i : Nat} {s : Shard}
    (shard : shards[i]? = some s) (regenerates : c.Regenerates present recreate i) :
    (c.complete (c.wantsParity present recreate)
      (Slots.ofShards shards present offset length)).slots[i]? =
        some (some (interpolate (c.witnesses shards present offset length) length i)) := by
  have same := accepts.sameLength
  obtain ⟨flag, due⟩ := writes_iff.mp ((regenerates_iff accepts.flags).mp regenerates)
  rw [complete_get (by rw [ofShards_length same, accepts.count]) positive
    (ofShards_even accepts.long) (by rw [ofShards_count same]; exact accepts.enough),
    ofShards_get shard flag, ofShards_witnesses, Option.map_some, if_pos due]
  rfl

end Accepted

theorem repairWith_refused {fill : Filler} {e : Error}
    (refused : c.refusal? shards present (offset + length) = some e) :
    c.repairWith fill shards present offset length recreate = ⟨shards, .error e⟩ := by
  simp only [repairWith, refused]

/-- Filled in two stages, the slots give what the direct repair gives. -/
theorem repairWith_complete (c : Code) (shards : List Shard) (present : List Bool)
    (offset length : Nat) (recreate : Bool) :
    c.repairWith c.complete shards present offset length recreate =
      c.repair shards present offset length recreate := by
  cases refused : c.refusal? shards present (offset + length) with
  | some e => rw [repairWith_refused refused, repair_refused refused]
  | none =>
    have accepts := accepts_iff.mpr refused
    cases work : present.all id || length == 0 with
    | true => rw [repairWith_idle accepts work, repair_idle accepts work]
    | false =>
      have positive := busy_positive work
      obtain ⟨after, done, filled⟩ := c.complete_completes.filled accepts positive
        (c.wantsParity present recreate)
      rw [repairWith_filled accepts work done filled, repair_pair accepts]
      congr 1
      apply List.ext_getElem?
      intro i
      rw [repair_get accepts, List.getElem?_map, List.getElem?_zipIdx]
      cases shard : shards[i]? with
      | none => rfl
      | some s =>
        simp only [Option.map_some, Nat.zero_add]
        by_cases regenerates : c.Regenerates present recreate i
        · have slot := complete_regenerated accepts positive shard regenerates
          rw [done] at slot
          rw [if_pos regenerates, if_pos regenerates, List.getD_eq_getElem?_getD, slot]
          rfl
        · rw [if_neg regenerates, if_neg regenerates]

end Code
end StripeRecovery

