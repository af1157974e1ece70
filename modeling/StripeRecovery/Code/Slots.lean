import StripeRecovery.Code.Repair

/-!
Repair by way of slots. Every present shard goes into a slot, itself if the range is the whole
of every shard and as a copy of the range otherwise; a filler completes the slots; then each
shard gets back what is its. The filler is a parameter. That of a code works in two stages: the
data come from the first `data` shards that the slots hold, the parity then from the data.
-/
namespace StripeRecovery

abbrev Slots := List (Option Shard)

structure Filling where
  slots : Slots
  complaint? : Option String

/-- Fills empty slots; those of parity shards only when it is told to. -/
abbrev Filler := Bool → Slots → Filling

namespace Slots

def held (slots : Slots) : List Sample :=
  slots.zipIdx.filterMap fun (slot, i) => slot.map (⟨i, ·⟩)

end Slots

/-- A shard while its slot is worked on: what stays in its place, and what is in the slot. -/
structure Loan where
  isThere : Bool
  kept : Shard
  slot : Option Shard

/-- A shard that is there leaves an empty one behind if it goes as a whole. -/
def Shard.lend (whole : Bool) (offset length : Nat) (s : Shard) (isThere : Bool) : Loan :=
  if isThere then
    if whole then ⟨true, [], some s⟩ else ⟨true, s, some (s.cut offset length)⟩
  else ⟨false, s, none⟩

/-- Of a shard that was there only the whole goes back; an absent one gets its range. -/
def Loan.settle (loan : Loan) (whole : Bool) (offset : Nat) (slot : Option Shard) : Shard :=
  match slot with
  | none => loan.kept
  | some piece =>
    if loan.isThere then if whole then piece else loan.kept
    else loan.kept.splice offset piece

namespace Code

def complete (c : Code) : Filler := fun parity slots =>
  let held := slots.held
  match shardFault? (held.map (·.shard)) with
  | some fault => ⟨slots, some fault.text⟩
  | none =>
    if held.length < c.data then
      ⟨slots, some ("The number of shards present is smaller than number of parity shards, " ++
        "cannot reconstruct missing shards")⟩
    else
      let size := ((held.map (·.shard)).headD []).length
      let data := (List.range c.data).map fun i =>
        (slots.getD i none).getD (interpolate (held.take c.data) size i)
      let stripe := if parity then data ++ c.parityOf data size else data
      ⟨slots.zipIdx.map fun (slot, i) => slot.or stripe[i]?, none⟩

/-- Regenerates absent shards over `[offset, offset + length)` with the help of a filler. The
    shards go back to their places whether the filler succeeds or not. -/
def repairWith (c : Code) (fill : Filler) (shards : List Shard) (present : List Bool)
    (offset length : Nat) (recreate : Bool) : Attempt RepairCount :=
  match c.refusal? shards present (offset + length) with
  | some e => ⟨shards, .error e⟩
  | none =>
    if present.all id || length == 0 then ⟨shards, .ok ⟨0, 0⟩⟩
    else
      let whole := offset == 0 && shards.all (·.length == length)
      let loans := List.zipWith (Shard.lend whole offset length) shards present
      let filling := fill (c.wantsParity present recreate) (loans.map (·.slot))
      let returned := List.zipWith (·.settle whole offset ·) loans filling.slots
      let regenerated := List.zipWith (fun loan slot => !loan.isThere && slot.isSome) loans
        filling.slots
      match filling.complaint? with
      | some reason => ⟨returned, .error (.decoding 0 ("Reed-Solomon decode failed: " ++ reason))⟩
      | none => ⟨returned, .ok ⟨(regenerated.take c.data).count true,
          (regenerated.drop c.data).count true⟩⟩

end Code
end StripeRecovery
