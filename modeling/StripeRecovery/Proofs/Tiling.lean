import StripeRecovery.Layout
import Mathlib.Algebra.Ring.Nat
import Mathlib.Data.List.Basic

/-!
How a byte range is cut into parts of data objects. The parts tile the range: each follows the
one before, only the first may start inside its object and only the last may end there, and the
byte of a part at some place of the buffer is the byte of the file that belongs there.
-/
namespace StripeRecovery

def ReadPart.Holds (r : ReadPart) (j : Nat) : Prop :=
  r.bufferOffset ≤ j ∧ j < r.bufferOffset + r.length

namespace Layout
variable {p : Layout} {offset done remaining : Nat} {parts : List ReadPart}

theorem Checked.chunkSize_pos (checked : p.Checked) : 0 < p.chunkSize := by
  have := checked.chunk_pos
  simp only [chunkSize]
  omega

theorem objectAt_data {stripe position : Nat} (isData : position < p.data) :
    p.objectAt stripe position = p.data * stripe + position := by
  simp [objectAt, isData]

theorem stripeOf_objectAt {stripe position : Nat} (isData : position < p.data) :
    p.stripeOf (p.objectAt stripe position) = .ok stripe := by
  have positive : 0 < p.data := by omega
  rw [stripeOf, if_neg (by omega), objectAt_data isData, Nat.mul_add_div positive,
    Nat.div_eq_of_lt isData, Nat.add_zero]

theorem positionOf_objectAt {stripe position : Nat} (isData : position < p.data) :
    p.positionOf (p.objectAt stripe position) = .ok position := by
  rw [positionOf, if_neg (by omega), objectAt_data isData, Nat.mul_add_mod,
    Nat.mod_eq_of_lt isData]

theorem objectAt_div_mod (positive : 0 < p.data) (object : Nat) :
    p.objectAt (object / p.data) (object % p.data) = object := by
  rw [objectAt_data (Nat.mod_lt object positive)]
  exact Nat.div_add_mod object p.data

theorem objectAt_bijective (positive : 0 < p.data) :
    Function.Bijective fun place : Nat × Fin p.data => p.objectAt place.1 place.2 := by
  constructor
  · rintro ⟨stripe, position⟩ ⟨stripe', position'⟩ same
    have stripes := congrArg p.stripeOf same
    have positions := congrArg p.positionOf same
    simp only [stripeOf_objectAt position.isLt, stripeOf_objectAt position'.isLt,
      Except.ok.injEq] at stripes
    simp only [positionOf_objectAt position.isLt, positionOf_objectAt position'.isLt,
      Except.ok.injEq] at positions
    exact Prod.ext stripes (Fin.ext positions)
  · intro object
    exact ⟨(object / p.data, ⟨object % p.data, Nat.mod_lt object positive⟩),
      objectAt_div_mod positive object⟩

/-- A part is a non-empty piece of the data object at its position of its stripe. -/
structure Placed (p : Layout) (r : ReadPart) : Prop where
  nonempty : 0 < r.length
  inside : r.offset + r.length ≤ p.chunkSize
  isData : r.position < p.data
  object : p.objectAt r.stripe r.position = r.object

/-- Parts that follow one another from the byte `offset` of the file and the place `done` of
    the buffer on. A part that has a successor fills its object to the end. -/
inductive Tiles (p : Layout) : Nat → Nat → Nat → List ReadPart → Prop where
  | nil (offset done : Nat) : Tiles p offset done 0 []
  | cons {offset done remaining : Nat} {r : ReadPart} {rest : List ReadPart}
      (placed : p.Placed r) (starts : r.object * p.chunkSize + r.offset = offset)
      (place : r.bufferOffset = done) (fits : r.length ≤ remaining)
      (fills : rest ≠ [] → r.offset + r.length = p.chunkSize)
      (tail : Tiles p (offset + r.length) (done + r.length) (remaining - r.length) rest) :
      Tiles p offset done remaining (r :: rest)

theorem partsFrom_tiles (positive : 0 < p.data) (chunk_pos : 0 < p.chunkSize) :
    Tiles p offset done remaining (p.partsFrom chunk_pos offset remaining done) := by
  fun_induction partsFrom p chunk_pos offset remaining done with
  | case1 offset done => exact .nil offset done
  | case2 offset remaining done some object inner length ih =>
    have inside : inner < p.chunkSize := Nat.mod_lt offset chunk_pos
    have least : length = min remaining (p.chunkSize - inner) := rfl
    have nonempty : 0 < length := by omega
    have short : inner + length ≤ p.chunkSize := by omega
    refine .cons ⟨nonempty, short, Nat.mod_lt object positive, objectAt_div_mod positive object⟩
      ?_ rfl (by simp only; omega) ?_ ih
    · simp only
      rw [Nat.mul_comm]
      exact Nat.div_add_mod offset p.chunkSize
    · intro more
      simp only
      -- The rest of the range is empty when the part ends before its object does.
      by_contra early
      apply more
      have last : remaining - length = 0 := by omega
      rw [partsFrom, if_pos last]

theorem Tiles.placed (tiles : Tiles p offset done remaining parts) :
    ∀ r ∈ parts, p.Placed r := by
  induction tiles with
  | nil => simp
  | cons placed starts place fits fills tail ih =>
    intro r member
    rcases List.mem_cons.mp member with rfl | later
    · exact placed
    · exact ih r later

theorem Tiles.total (tiles : Tiles p offset done remaining parts) :
    (parts.map (·.length)).sum = remaining := by
  induction tiles with
  | nil => rfl
  | cons placed starts place fits fills tail ih =>
    rw [List.map_cons, List.sum_cons, ih]
    omega

theorem Tiles.at_part (tiles : Tiles p offset done remaining parts) :
    ∀ r ∈ parts, ∃ before, r.bufferOffset = done + before ∧
      r.object * p.chunkSize + r.offset = offset + before ∧ before + r.length ≤ remaining := by
  induction tiles with
  | nil => simp
  | @cons offset done remaining first rest placed starts place fits fills tail ih =>
    intro r member
    rcases List.mem_cons.mp member with rfl | later
    · exact ⟨0, by omega, by omega, by omega⟩
    · obtain ⟨before, inBuffer, inFile, short⟩ := ih r later
      exact ⟨first.length + before, by omega, by omega, by omega⟩

theorem Tiles.head (tiles : Tiles p offset done remaining parts) {r : ReadPart}
    (first : parts[0]? = some r) :
    r.bufferOffset = done ∧ r.object * p.chunkSize + r.offset = offset := by
  cases tiles with
  | nil => simp at first
  | cons placed starts place fits fills tail =>
    obtain rfl := Option.some.inj first
    exact ⟨place, starts⟩

theorem next_object {object next start size : Nat} (inside : start < size)
    (meets : next * size + start = object * size + size) : next = object + 1 ∧ start = 0 := by
  have whole : (next * size + start) / size = next := by
    rw [Nat.mul_comm, Nat.mul_add_div (by omega), Nat.div_eq_of_lt inside, Nat.add_zero]
  have same : (object * size + size) / size = object + 1 := by
    rw [← Nat.succ_mul, Nat.mul_div_cancel _ (by omega)]
  have objects : next = object + 1 := by rw [← whole, meets, same]
  refine ⟨objects, ?_⟩
  rw [objects, Nat.succ_mul] at meets
  omega

theorem Tiles.neighbours (tiles : Tiles p offset done remaining parts) {i : Nat} {a b : ReadPart}
    (first : parts[i]? = some a) (second : parts[i + 1]? = some b) :
    b.bufferOffset = a.bufferOffset + a.length ∧ b.object = a.object + 1 ∧ b.offset = 0 ∧
      a.offset + a.length = p.chunkSize := by
  induction tiles generalizing i with
  | nil => simp at first
  | @cons offset done remaining r rest placed starts place fits fills tail ih =>
    cases i with
    | zero =>
      obtain rfl : r = a := Option.some.inj first
      rw [List.getElem?_cons_succ] at second
      have filled := fills (by rintro rfl; simp at second)
      obtain ⟨inBuffer, inFile⟩ := tail.head second
      have next := tail.placed b (List.mem_of_getElem? second)
      have within : b.offset < p.chunkSize := by
        have := next.nonempty
        have := next.inside
        omega
      obtain ⟨object, start⟩ := next_object within
        (show b.object * p.chunkSize + b.offset = r.object * p.chunkSize + p.chunkSize by omega)
      exact ⟨by omega, object, start, filled⟩
    | succ i => exact ih first second

theorem Tiles.holder (tiles : Tiles p offset done remaining parts) {j : Nat} (from_done : done ≤ j)
    (inside : j < done + remaining) : ∃! i : Nat, ∃ r, parts[i]? = some r ∧ r.Holds j := by
  induction tiles with
  | nil => omega
  | @cons offset done remaining r rest placed starts place fits fills tail ih =>
    by_cases early : j < done + r.length
    · refine ⟨0, ⟨r, rfl, by simp only [ReadPart.Holds]; omega⟩, ?_⟩
      rintro i ⟨other, found, holds⟩
      cases i with
      | zero => rfl
      | succ i =>
        obtain ⟨before, inBuffer, _, _⟩ := tail.at_part other (List.mem_of_getElem? found)
        simp only [ReadPart.Holds] at holds
        omega
    · obtain ⟨i, ⟨other, found, holds⟩, only⟩ := ih (by omega) (by omega)
      refine ⟨i + 1, ⟨other, found, holds⟩, ?_⟩
      rintro k ⟨another, found', holds'⟩
      cases k with
      | zero =>
        obtain rfl := Option.some.inj found'
        simp only [ReadPart.Holds] at holds'
        omega
      | succ k => rw [only k ⟨another, found', holds'⟩]

/-- What the parts of a range make of it. They are pieces of data objects that stand in the
    buffer one after another, from its start to its end, so each place of the buffer belongs to
    one of them, which brings the byte of the file that the range has there. All but the first
    start with their object, all but the last end with it, and the next part continues with the
    next object. None goes past the end of the range, so no number in a part exceeds that end. -/
structure Tiling (p : Layout) (offset length : Nat) (parts : List ReadPart) : Prop where
  placed : ∀ r ∈ parts, p.Placed r
  first : ∀ r, parts[0]? = some r → r.bufferOffset = 0
  total : (parts.map (·.length)).sum = length
  holder : ∀ j < length, ∃! i : Nat, ∃ r, parts[i]? = some r ∧ r.Holds j
  address : ∀ r ∈ parts, ∀ j, r.Holds j →
    r.object * p.chunkSize + r.offset + (j - r.bufferOffset) = offset + j
  bounded : ∀ r ∈ parts, r.object * p.chunkSize + r.offset + r.length ≤ offset + length ∧
    r.bufferOffset + r.length ≤ length
  neighbours : ∀ (i : Nat) (a b : ReadPart), parts[i]? = some a → parts[i + 1]? = some b →
    b.bufferOffset = a.bufferOffset + a.length ∧ b.object = a.object + 1 ∧ b.offset = 0 ∧
      a.offset + a.length = p.chunkSize

theorem Tiles.tiling {length : Nat} (tiles : Tiles p offset 0 length parts) :
    p.Tiling offset length parts where
  placed := tiles.placed
  first := fun _ found => (tiles.head found).1
  total := tiles.total
  holder := fun j inside => tiles.holder (Nat.zero_le j) (by omega)
  address := by
    intro r member j holds
    obtain ⟨before, inBuffer, inFile, _⟩ := tiles.at_part r member
    simp only [ReadPart.Holds] at holds
    omega
  bounded := by
    intro r member
    obtain ⟨before, inBuffer, inFile, short⟩ := tiles.at_part r member
    exact ⟨by omega, by omega⟩
  neighbours := fun _ _ _ found next => tiles.neighbours found next

theorem readParts_ok (checked : p.Checked) (offset length : Nat) :
    ∃ parts, p.readParts offset length = .ok parts ∧ Tiles p offset 0 length parts := by
  have positive : 0 < p.data := checked.data_pos
  have chunk_pos := checked.chunkSize_pos
  by_cases empty : length = 0
  · subst empty
    exact ⟨[], by simp [readParts], .nil offset 0⟩
  · refine ⟨p.partsFrom chunk_pos offset length 0, ?_, partsFrom_tiles positive chunk_pos⟩
    simp [readParts, empty, chunk_pos, Nat.ne_of_gt positive]

/-- Any byte range has parts, and they tile it. Data objects are numbered without gaps or
    repeats by stripe and position, and the two can be told from the number. -/
theorem readParts_tile_range {data parity chunkKiB home : Nat} {p : Layout}
    (made : make data parity chunkKiB home = .ok p) (offset length : Nat) :
    (∃ parts, p.readParts offset length = .ok parts ∧ p.Tiling offset length parts) ∧
    (Function.Bijective fun place : Nat × Fin p.data => p.objectAt place.1 place.2) ∧
    (∀ stripe, ∀ position < p.data, p.stripeOf (p.objectAt stripe position) = .ok stripe ∧
      p.positionOf (p.objectAt stripe position) = .ok position) ∧
    ∀ object, ∃ stripe position, p.stripeOf object = .ok stripe ∧
      p.positionOf object = .ok position ∧ position < p.data ∧
        p.objectAt stripe position = object := by
  have checked : p.Checked := (make_eq_ok_iff.mp made).2
  have positive : 0 < p.data := checked.data_pos
  have nonzero : p.data ≠ 0 := Nat.ne_of_gt positive
  obtain ⟨parts, answer, tiles⟩ := readParts_ok checked offset length
  refine ⟨⟨parts, answer, tiles.tiling⟩, objectAt_bijective positive, ?_, ?_⟩
  · intro stripe position isData
    exact ⟨stripeOf_objectAt isData, positionOf_objectAt isData⟩
  · intro object
    exact ⟨object / p.data, object % p.data, by simp [stripeOf, nonzero],
      by simp [positionOf, nonzero], Nat.mod_lt object positive, objectAt_div_mod positive object⟩

/-- A range that starts inside one object and ends inside the second after it. -/
theorem readParts_tile_range_three_objects :
    let p : Layout := ⟨2, 1, 1, 0⟩
    make 2 1 1 0 = .ok p ∧
      p.readParts 1000 2000 =
        .ok [⟨0, 0, 0, 1000, 24, 0⟩, ⟨1, 0, 1, 0, 1024, 24⟩, ⟨2, 1, 0, 0, 952, 1048⟩] ∧
      (∃ parts, p.readParts 1000 2000 = .ok parts ∧ p.Tiling 1000 2000 parts) ∧
      ∃ stripe position, p.stripeOf 5 = .ok stripe ∧ p.positionOf 5 = .ok position ∧
        p.objectAt stripe position = 5 := by
  intro p
  have made : make 2 1 1 0 = .ok p := by decide
  obtain ⟨tiled, _, _, inverse⟩ := readParts_tile_range made 1000 2000
  obtain ⟨stripe, position, inStripe, atPosition, _, object⟩ := inverse 5
  refine ⟨made, ?_, tiled, stripe, position, inStripe, atPosition, object⟩
  simp [readParts, partsFrom, chunkSize, p]

end Layout
end StripeRecovery
