import StripeRecovery.Error
import StripeRecovery.Text.Record

/-!
Striping layouts: how many data and parity chunks a stripe has, how large a chunk is, and
which position of each stripe is at home here. Data objects are numbered through the file,
stripe by stripe; every parity position numbers its objects by the stripe.
-/
namespace StripeRecovery

structure Layout where
  data : Nat
  parity : Nat
  chunkKiB : Nat
  home : Nat
deriving DecidableEq, Repr

/-- Arithmetic that has no result, on a layout that was read from a text and never checked. -/
inductive ArithmeticFault where
  | division
  | remainder
deriving DecidableEq, Repr

def ArithmeticFault.message : ArithmeticFault → String
  | .division => "attempt to divide by zero"
  | .remainder => "attempt to calculate the remainder with a divisor of zero"

structure ReadPart where
  object : Nat
  stripe : Nat
  position : Nat
  offset : Nat
  length : Nat
  bufferOffset : Nat
deriving DecidableEq, Repr

namespace Layout

def maxWidth : Nat := 256

def width (p : Layout) : Nat := p.data + p.parity

/-- The width as 64-bit words add up: what is too large for a word wraps around. -/
def wordWidth (p : Layout) : Nat := p.width % UInt64.size

def chunkSize (p : Layout) : Nat := p.chunkKiB * 1024

/-- What a layout is meant to satisfy. -/
structure Valid (p : Layout) : Prop where
  data_pos : 1 ≤ p.data
  parity_pos : 1 ≤ p.parity
  width_le : p.width ≤ maxWidth
  chunk_pos : 1 ≤ p.chunkKiB
  home_lt : p.home < p.width

/-- What `make` checks. The width that it looks at may have wrapped around. -/
structure Checked (p : Layout) : Prop where
  data_pos : 1 ≤ p.data
  parity_pos : 1 ≤ p.parity
  width_le : p.wordWidth ≤ maxWidth
  chunk_pos : 1 ≤ p.chunkKiB
  home_lt : p.home < p.wordWidth

def make (data parity chunkKiB home : Nat) : Except Error Layout :=
  let p : Layout := ⟨data, parity, chunkKiB, home⟩
  if data = 0 then .error (.code .noDataWidth)
  else if parity = 0 then .error (.code .noParityWidth)
  else if maxWidth < p.wordWidth then .error (.code (.tooWide p.wordWidth))
  else if chunkKiB = 0 then .error (.code .noChunkSize)
  else if p.wordWidth ≤ home then .error (.outOfRange home p.wordWidth)
  else .ok p

theorem make_eq_ok_iff {data parity chunkKiB home : Nat} {p : Layout} :
    make data parity chunkKiB home = .ok p ↔ p = ⟨data, parity, chunkKiB, home⟩ ∧ p.Checked := by
  simp only [make]
  constructor
  · intro made
    split at made
    · contradiction
    split at made
    · contradiction
    split at made
    · contradiction
    split at made
    · contradiction
    split at made
    · contradiction
    rename_i noData noParity wide noChunk outside
    obtain rfl := Except.ok.inj made
    exact ⟨rfl, Nat.pos_of_ne_zero noData, Nat.pos_of_ne_zero noParity, Nat.not_lt.mp wide,
      Nat.pos_of_ne_zero noChunk, Nat.not_le.mp outside⟩
  · rintro ⟨rfl, data_pos, parity_pos, width_le, chunk_pos, home_lt⟩
    simp only at data_pos parity_pos chunk_pos home_lt
    rw [if_neg (by omega), if_neg (by omega), if_neg (by omega), if_neg (by omega),
      if_neg (by omega)]

theorem Valid.checked {p : Layout} (valid : p.Valid) : p.Checked := by
  obtain ⟨data_pos, parity_pos, width_le, chunk_pos, home_lt⟩ := valid
  have whole : p.wordWidth = p.width :=
    Nat.mod_eq_of_lt (Nat.lt_of_le_of_lt width_le (by decide))
  exact ⟨data_pos, parity_pos, whole ▸ width_le, chunk_pos, whole ▸ home_lt⟩

def seenFrom (p : Layout) (position : Nat) : Except Error Layout :=
  make p.data p.parity p.chunkKiB position

def isData (p : Layout) (position : Nat) : Bool := position < p.data

def objectAt (p : Layout) (stripe position : Nat) : Nat :=
  if position < p.data then p.data * stripe + position else stripe

def stripeOf (p : Layout) (object : Nat) : Except ArithmeticFault Nat :=
  if p.data = 0 then .error .division else .ok (object / p.data)

def positionOf (p : Layout) (object : Nat) : Except ArithmeticFault Nat :=
  if p.data = 0 then .error .remainder else .ok (object % p.data)

/-- The parts of `remaining` bytes from `offset` on, of which `done` went before. -/
def partsFrom (p : Layout) (chunk_pos : 0 < p.chunkSize) (offset remaining done : Nat) :
    List ReadPart :=
  if remaining = 0 then []
  else
    let object := offset / p.chunkSize
    let inner := offset % p.chunkSize
    let length := min remaining (p.chunkSize - inner)
    ⟨object, object / p.data, object % p.data, inner, length, done⟩ ::
      partsFrom p chunk_pos (offset + length) (remaining - length) (done + length)
termination_by remaining
decreasing_by
  have := Nat.mod_lt offset chunk_pos
  omega

def readParts (p : Layout) (offset length : Nat) : Except ArithmeticFault (List ReadPart) :=
  if length = 0 then .ok []
  else if chunk_pos : 0 < p.chunkSize then
    if p.data = 0 then .error .division else .ok (partsFrom p chunk_pos offset length 0)
  else .error .division

def fieldNames : List String :=
  ["data_width", "parity_width", "stripe_size_kib", "local_position"]

def toJson (p : Layout) : Json :=
  .obj (fieldNames.zip [.nat p.data, .nat p.parity, .nat p.chunkKiB, .nat p.home])

def ofJson? (v : Json) : Option Layout := do
  match ← v.fields? fieldNames with
  | [data, parity, chunkKiB, home] =>
    some ⟨← Json.required? Json.word? data, ← Json.required? Json.word? parity,
      ← Json.required? Json.word? chunkKiB, ← Json.required? Json.word? home⟩
  | _ => none

end Layout
end StripeRecovery
