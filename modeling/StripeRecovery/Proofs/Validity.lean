import StripeRecovery.Proofs.JsonText
import StripeRecovery.Proofs.Tiling

/-!
Which layouts callers can come by. The ones that are made, or seen from another position, have
passed the checks, and on these the arithmetic of objects has a result for every argument. They
are the valid ones, unless their width is too large for a word and wraps around. A layout that is
read from a text is what the text says, so there objects may have no stripe, no position and no
parts.
-/
namespace StripeRecovery

namespace Json

theorem word?_lt {v : Json} {n : Nat} (read : word? v = some n) : n < UInt64.size := by
  unfold word? at read
  split at read
  · split at read
    · obtain rfl := Option.some.inj read
      assumption
    · simp at read
  · simp at read

theorem required?_word?_lt {field : Option Json} {n : Nat}
    (read : required? word? field = some n) : n < UInt64.size := by
  obtain ⟨v, _, word⟩ := Option.bind_eq_some_iff.mp read
  exact word?_lt word

end Json

namespace Layout

structure Fits (p : Layout) : Prop where
  data : p.data < UInt64.size
  parity : p.parity < UInt64.size
  chunkKiB : p.chunkKiB < UInt64.size
  home : p.home < UInt64.size

def ofText? (text : String) : Option Layout := (Json.parse? text).bind ofJson?

/-- The layouts that callers can come by, with words for arguments. -/
inductive Obtained : Layout → Prop where
  | made {data parity chunkKiB home : Nat} {p : Layout}
      (words : Fits ⟨data, parity, chunkKiB, home⟩)
      (made : make data parity chunkKiB home = .ok p) : Obtained p
  | seen {p q : Layout} {position : Nat} (obtained : Obtained p)
      (word : position < UInt64.size) (seen : p.seenFrom position = .ok q) : Obtained q
  | read {text : String} {p : Layout} (read : ofText? text = some p) : Obtained p

variable {p q : Layout} {data parity chunkKiB home position : Nat}

/-- The checks see to it that a layout is valid, but for a width that wraps around. -/
theorem valid_iff_checked : p.Valid ↔ p.Checked ∧ p.width < UInt64.size := by
  constructor
  · intro valid
    exact ⟨valid.checked, Nat.lt_of_le_of_lt valid.width_le (by decide)⟩
  · rintro ⟨⟨data_pos, parity_pos, width_le, chunk_pos, home_lt⟩, narrow⟩
    have whole : p.wordWidth = p.width := Nat.mod_eq_of_lt narrow
    exact ⟨data_pos, parity_pos, whole ▸ width_le, chunk_pos, whole ▸ home_lt⟩

theorem seenFrom_eq_ok_iff :
    p.seenFrom position = .ok q ↔ q = { p with home := position } ∧ q.Checked :=
  make_eq_ok_iff

theorem ofJson?_fits {v : Json} (read : ofJson? v = some p) : p.Fits := by
  simp only [ofJson?, bind, Option.bind_eq_some_iff] at read
  obtain ⟨fields, _, read⟩ := read
  split at read
  · simp only [Option.bind_eq_some_iff, Option.some.injEq] at read
    obtain ⟨data, data_eq, parity, parity_eq, chunkKiB, chunk_eq, home, home_eq, rfl⟩ := read
    exact ⟨Json.required?_word?_lt data_eq, Json.required?_word?_lt parity_eq,
      Json.required?_word?_lt chunk_eq, Json.required?_word?_lt home_eq⟩
  · simp at read

theorem ofJson?_toJson (fits : p.Fits) : ofJson? p.toJson = some p := by
  obtain ⟨data, parity, chunkKiB, home⟩ := fits
  simp [ofJson?, toJson, fieldNames, Json.fields?, Json.required?, Json.word?, data, parity,
    chunkKiB, home]

theorem plain_toJson (p : Layout) : p.toJson.Plain := by
  refine .obj fun f member => ?_
  simp only [fieldNames, List.zip_cons_cons, List.mem_cons] at member
  rcases member with rfl | rfl | rfl | rfl | none
  · exact .nat _
  · exact .nat _
  · exact .nat _
  · exact .nat _
  · simp at none

theorem ofText?_iff_fits : (∃ text, ofText? text = some p) ↔ p.Fits := by
  constructor
  · rintro ⟨text, read⟩
    obtain ⟨v, _, read⟩ := Option.bind_eq_some_iff.mp read
    exact ofJson?_fits read
  · intro fits
    refine ⟨Json.print p.toJson, ?_⟩
    rw [ofText?, Json.parse?_print p.plain_toJson, Option.bind_some, ofJson?_toJson fits]

theorem Obtained.fits (obtained : Obtained p) : p.Fits := by
  induction obtained with
  | made words made =>
    obtain ⟨rfl, _⟩ := make_eq_ok_iff.mp made
    exact words
  | seen _ word seen ih =>
    obtain ⟨rfl, _⟩ := seenFrom_eq_ok_iff.mp seen
    exact ⟨ih.data, ih.parity, ih.chunkKiB, word⟩
  | read read => exact ofText?_iff_fits.mp ⟨_, read⟩

theorem obtained_iff : Obtained p ↔ p.Fits := by
  constructor
  · intro obtained
    exact obtained.fits
  · intro fits
    obtain ⟨text, read⟩ := ofText?_iff_fits.mpr fits
    exact .read read

def Total (p : Layout) : Prop :=
  (∀ object, ∃ stripe position,
      p.stripeOf object = .ok stripe ∧ p.positionOf object = .ok position) ∧
    ∀ offset length, ∃ parts, p.readParts offset length = .ok parts

theorem total_iff : p.Total ↔ 1 ≤ p.data ∧ 1 ≤ p.chunkKiB := by
  constructor
  · rintro ⟨objects, ranges⟩
    obtain ⟨stripe, position, inStripe, _⟩ := objects 0
    obtain ⟨parts, answer⟩ := ranges 0 1
    have nonzero : p.data ≠ 0 := by
      intro none
      simp [stripeOf, none] at inStripe
    have filled : p.chunkKiB ≠ 0 := by
      intro none
      simp [readParts, chunkSize, none] at answer
    exact ⟨by omega, by omega⟩
  · rintro ⟨data_pos, filled⟩
    have nonzero : p.data ≠ 0 := by omega
    have chunk_pos : 0 < p.chunkSize := by
      simp only [chunkSize]
      omega
    constructor
    · intro object
      exact ⟨object / p.data, object % p.data, by rw [stripeOf, if_neg nonzero],
        by rw [positionOf, if_neg nonzero]⟩
    · intro offset length
      by_cases empty : length = 0
      · exact ⟨[], by rw [readParts, if_pos empty]⟩
      · exact ⟨p.partsFrom chunk_pos offset length 0,
          by rw [readParts, if_neg empty, dif_pos chunk_pos, if_neg nonzero]⟩

/-- A layout that is made, or seen from another position of whatever layout, has passed the
    checks, and then its objects have a stripe, a position and parts whatever is asked. It is
    valid, unless its width is too large for a word. One that is read from a text is not checked:
    all numbers that words hold are read as they stand, and nothing but a zero among the data
    chunks or the chunk size makes a division fail. -/
theorem valid_unless_read (p : Layout) :
    (∀ data parity chunkKiB home, make data parity chunkKiB home = .ok p ↔
      p = ⟨data, parity, chunkKiB, home⟩ ∧ p.Checked) ∧
    (∀ (q : Layout) position, q.seenFrom position = .ok p ↔
      p = { q with home := position } ∧ p.Checked) ∧
    (p.Valid ↔ p.Checked ∧ p.width < UInt64.size) ∧
    ((∃ text, ofText? text = some p) ↔ p.Fits) ∧
    (Obtained p ↔ p.Fits) ∧
    (p.Checked → p.Total) ∧
    (p.Total ↔ 1 ≤ p.data ∧ 1 ≤ p.chunkKiB) := by
  refine ⟨?_, ?_, valid_iff_checked, ofText?_iff_fits, obtained_iff, ?_, total_iff⟩
  · intro data parity chunkKiB home
    exact make_eq_ok_iff
  · intro q position
    exact seenFrom_eq_ok_iff
  · intro checked
    exact total_iff.mpr ⟨checked.data_pos, checked.chunk_pos⟩

/-- A layout that is made and is seen from its last position but from none behind it, and one
    without data chunks that some text is read as, on which some arithmetic fails. -/
theorem valid_unless_read_last_position :
    let p : Layout := ⟨4, 2, 128, 3⟩
    let q : Layout := ⟨0, 300, 128, 999⟩
    make 4 2 128 3 = .ok p ∧ p.Valid ∧ p.Total ∧
      p.seenFrom 5 = .ok ⟨4, 2, 128, 5⟩ ∧ (∀ r, p.seenFrom 6 ≠ .ok r) ∧ Obtained q ∧ ¬ q.Total := by
  intro p q
  obtain ⟨made, _, valid, _, _, total, _⟩ := valid_unless_read p
  obtain ⟨_, _, _, _, obtained, _, zeros⟩ := valid_unless_read q
  have madeHere : make 4 2 128 3 = .ok p := by decide
  obtain ⟨_, checked⟩ := (made 4 2 128 3).mp madeHere
  refine ⟨madeHere, valid.mpr ⟨checked, by decide⟩, total checked, by decide, ?_,
    obtained.mpr ?_, ?_⟩
  · intro r there
    obtain ⟨_, seen, _⟩ := valid_unless_read r
    obtain ⟨rfl, outside⟩ := (seen p 6).mp there
    exact absurd outside.home_lt (by decide)
  · exact ⟨by decide, by decide, by decide, by decide⟩
  · rw [zeros]
    decide

/-- A text with four zeros is read as a layout that is not valid and divides by zero. And one is
    made that is not valid, though its arithmetic has results: with the largest word of data
    chunks and two of parity, its width wraps around to one. -/
theorem read_layout_not_valid :
    let text := "\x7b\"data_width\":0,\"parity_width\":0," ++
      "\"stripe_size_kib\":0,\"local_position\":0\x7d"
    let wrapped : Layout := ⟨UInt64.size - 1, 2, 1, 0⟩
    (∃ p, ofText? text = some p ∧ Obtained p ∧ ¬ p.Valid ∧ p.stripeOf 5 = .error .division ∧
      p.positionOf 5 = .error .remainder ∧ p.readParts 0 1 = .error .division) ∧
    make (UInt64.size - 1) 2 1 0 = .ok wrapped ∧ Obtained wrapped ∧ ¬ wrapped.Valid ∧
      wrapped.Total := by
  intro text wrapped
  have read : ofText? text = some ⟨0, 0, 0, 0⟩ := by decide +kernel
  have made : make (UInt64.size - 1) 2 1 0 = .ok wrapped := by decide
  refine ⟨⟨⟨0, 0, 0, 0⟩, read, .read read, ?_, by decide, by decide, by decide⟩, made,
    .made ⟨by decide, by decide, by decide, by decide⟩ made, ?_, ?_⟩
  · intro valid
    exact absurd valid.data_pos (by decide)
  · intro valid
    exact absurd valid.width_le (by decide)
  · exact total_iff.mpr ⟨by decide, by decide⟩

end Layout
end StripeRecovery
