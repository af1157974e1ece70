import StripeRecovery.Layout
import StripeRecovery.Pool

/-!
The chunks of one stripe, by position. A chunk may own the buffer of its payload. Outside of
a decode states change by `move` and `complete` alone, along `ChunkStatus.canMove`.
-/
namespace StripeRecovery

structure Chunk where
  position : Nat
  object : Nat
  state : ChunkStatus
  buffer : Option Buffer
deriving DecidableEq, Repr

def Chunk.text (c : Chunk) : String :=
  "Chunk [position=" ++ toString c.position ++ ", object=" ++ toString c.object ++
    ", state=" ++ c.state.name ++ "]"

/-- The chunk at position `i` is `chunks[i]`. -/
structure Roster where
  chunks : List Chunk
deriving DecidableEq, Repr

namespace Roster

def make (layout : Layout) (stripe : Nat) : Roster :=
  ⟨(List.range layout.width).map fun i => ⟨i, layout.objectAt stripe i, .absent, none⟩⟩

def width (t : Roster) : Nat := t.chunks.length

def get (t : Roster) (position : Nat) : Except Error Chunk :=
  match t.chunks[position]? with
  | some c => .ok c
  | none => .error (.outOfRange position t.width)

def state (t : Roster) (position : Nat) : Except Error ChunkStatus :=
  (t.get position).map (·.state)

def update (t : Roster) (position : Nat) (f : Chunk → Chunk) : Roster :=
  ⟨t.chunks.modify position f⟩

def move (t : Roster) (position : Nat) (after : ChunkStatus) :
    Except Error (Roster × ChunkStatus) :=
  match t.get position with
  | .error e => .error e
  | .ok c =>
    if c.state.canMove after then
      .ok (t.update position fun c => { c with state := after }, c.state)
    else .error (.internal (.illegalMove c.state after position))

def complete (t : Roster) (position : Nat) (payload : Buffer) : Except Error Roster :=
  match t.move position .complete with
  | .error e => .error e
  | .ok (moved, _) => .ok (moved.update position fun c => { c with buffer := some payload })

def positionsOf (t : Roster) (state : ChunkStatus) : List Nat :=
  (t.chunks.filter (·.state == state)).map (·.position)

def countOf (t : Roster) (state : ChunkStatus) : Nat := t.chunks.countP (·.state == state)

def buffers (t : Roster) : List Buffer := t.chunks.filterMap (·.buffer)

def buffered (t : Roster) : Nat := t.buffers.length

def withoutBuffers (t : Roster) : Roster :=
  ⟨t.chunks.map fun c => { c with buffer := none }⟩

def payload? (c : Chunk) : Option Buffer :=
  if c.state = .complete then c.buffer else none

/-- Takes every payload out for a decode, which makes all other chunks. -/
def takePayloads (t : Roster) : Roster × List (Option Buffer) :=
  (⟨t.chunks.map fun c =>
      { c with state := if c.state.canRebuild then .rebuilt else c.state, buffer := none }⟩,
    t.chunks.map payload?)

end Roster
end StripeRecovery
