import StripeRecovery.Text.Json
import Mathlib.Data.Nat.Digits.Defs

/-!
Reading what was written. The compact text of a value, with any text behind it that does not
go on with a number, is read back as the value, and the text behind it is left.
-/
namespace StripeRecovery.Json

def Ends (rest : List Char) : Prop :=
  ∀ c, rest.head? = some c → c.isDigit = false ∧ c ≠ '.' ∧ c ≠ 'e' ∧ c ≠ 'E'

/-- Values whose text determines them: no number is kept as it was written, no text is half. -/
inductive Plain : Json → Prop where
  | null : Plain .null
  | bool (b : Bool) : Plain (.bool b)
  | nat (n : Nat) : Plain (.nat n)
  | str (text : String) : Plain (.str text)
  | arr {items : List Json} : (∀ v ∈ items, Plain v) → Plain (.arr items)
  | obj {fields : List (String × Json)} : (∀ f ∈ fields, Plain f.2) → Plain (.obj fields)

variable {cs rest : List Char} {c : Char}

theorem ends_cons (notDigit : c.isDigit = false) (other : c ≠ '.' ∧ c ≠ 'e' ∧ c ≠ 'E') :
    Ends (c :: rest) := by
  intro d first
  obtain rfl : c = d := by simpa using first
  exact ⟨notDigit, other⟩

/-! Numbers -/

theorem readDigits_append (digits : ∀ c ∈ cs, c.isDigit = true) (ends : Ends rest) :
    readDigits (cs ++ rest) = (cs, rest) := by
  have stop : rest.takeWhile Char.isDigit = [] ∧ rest.dropWhile Char.isDigit = rest := by
    cases rest with
    | nil => exact ⟨rfl, rfl⟩
    | cons c rest => simp [(ends c rfl).1]
  rw [readDigits, List.takeWhile_append_of_pos digits, List.dropWhile_append_of_pos digits,
    stop.1, stop.2, List.append_nil]

theorem head?_toDigits {n : Nat} (positive : 0 < n) : (Nat.toDigits 10 n).head? ≠ some '0' := by
  induction n using Nat.strongRecOn with
  | ind n ih =>
    by_cases small : n < 10
    · rw [Nat.toDigits_of_lt_base small]
      simp
      omega
    · have shorter := ih (n / 10) (by omega) (by omega)
      rw [Nat.toDigits_of_base_le (by decide) (Nat.le_of_not_lt small), List.head?_append]
      cases digits : Nat.toDigits 10 (n / 10) with
      | nil => exact absurd digits Nat.toDigits_ne_nil
      | cons d ds => simpa [digits] using shorter

theorem natOfDigits_toDigits (n : Nat) : natOfDigits (Nat.toDigits 10 n) = n := by
  have same := Nat.ofDigitChars_ten_toDigits (n := n)
  rw [Nat.ofDigitChars_eq_foldl] at same
  simpa [natOfDigits, Nat.mul_comm] using same

theorem noSign (digit : c.isDigit = true) : c ≠ '-' := by
  rintro rfl
  simp at digit

theorem readFraction_ends (ends : Ends rest) : readFraction rest = some ([], rest) := by
  cases rest with
  | nil => rfl
  | cons c rest =>
    have other := (ends c rfl).2.1
    unfold readFraction
    split
    · rename_i first
      exact absurd (List.cons.inj first).1 other
    · rfl

theorem readExponent_ends (ends : Ends rest) : readExponent rest = some ([], rest) := by
  cases rest with
  | nil => rfl
  | cons c rest =>
    have other := (ends c rfl).2.2
    simp [readExponent, other.1, other.2]

theorem readNumber_toDigits (n : Nat) (ends : Ends rest) :
    readNumber (Nat.toDigits 10 n ++ rest) = some (.nat n, rest) := by
  have allDigits : ∀ c ∈ Nat.toDigits 10 n, c.isDigit = true := fun c member =>
    Nat.isDigit_of_mem_toDigits (by decide) (by decide) member
  have value := natOfDigits_toDigits n
  have read := readDigits_append allDigits ends
  cases digits : Nat.toDigits 10 n with
  | nil => exact absurd digits Nat.toDigits_ne_nil
  | cons d ds =>
    rw [digits] at allDigits value read
    have sign := noSign (allDigits d (by simp))
    have leading : d = '0' → ds = [] := by
      rintro rfl
      rcases Nat.eq_zero_or_pos n with rfl | positive
      · simpa using digits.symm
      · exact absurd (by rw [digits]; rfl) (head?_toDigits positive)
    unfold readNumber
    split
    · rename_i signed first
      split at first
      · rename_i there
        exact absurd (List.cons.inj there).1 sign
      · obtain ⟨rfl, rfl⟩ := Prod.mk.inj first
        simp only [read, readFraction_ends ends]
        simp only [readExponent_ends ends, value, bind, Option.bind]
        simpa using leading

/-! Texts -/

theorem hexValue?_hexDigit (n : Nat) : hexValue? (hexDigit n) = some (n % 16) := by
  have small : ∀ d < 16, hexValue? (Nat.digitChar d) = some d := by decide
  exact small (n % 16) (Nat.mod_lt n (by decide))

theorem readEscapedUnit_control (small : c.toNat < 0x20) :
    readEscapedUnit ('0' :: '0' :: hexDigit (c.toNat / 16) :: hexDigit c.toNat :: rest) =
      some (.char c, rest) := by
  have unit : ((0 * 16 + 0) * 16 + c.toNat / 16 % 16) * 16 + c.toNat % 16 = c.toNat := by omega
  have zero : hexValue? '0' = some 0 := by decide
  simp only [readEscapedUnit, readUnit, zero, hexValue?_hexDigit, bind, Option.bind, unit]
  have low : ¬ (0xD800 ≤ c.toNat ∧ c.toNat < 0xDC00) := by omega
  have low' : ¬ (0xDC00 ≤ c.toNat ∧ c.toNat < 0xE000) := by omega
  simp only [low, low', ↓reduceIte, Char.ofNat_toNat]

theorem readPiece_writeChar (c : Char) (rest : List Char) :
    readPiece (writeChar c rest) = some (.char c, rest) := by
  unfold writeChar
  split
  · subst_vars; rfl
  split
  · subst_vars; rfl
  split
  · subst_vars; rfl
  split
  · subst_vars; rfl
  split
  · subst_vars; rfl
  split
  · subst_vars; rfl
  split
  · subst_vars; rfl
  split
  · exact readEscapedUnit_control ‹_›
  · rename_i quote backslash _ _ _ _ _ visible
    unfold readPiece
    split
    · simp_all
    · simp_all
    · simp_all
    · rename_i _ first
      obtain ⟨rfl, rfl⟩ := List.cons.inj first
      simp [backslash, visible]

theorem writeChar_longer (c : Char) (rest : List Char) :
    rest.length < (writeChar c rest).length := by
  unfold writeChar
  repeat' split
  all_goals simp only [List.length_cons]; omega

theorem foldr_writeChar_length (cs rest : List Char) :
    cs.length + rest.length ≤ (cs.foldr writeChar rest).length := by
  induction cs with
  | nil => simp
  | cons c cs ih =>
    have longer := writeChar_longer c (cs.foldr writeChar rest)
    simp only [List.foldr_cons, List.length_cons]
    omega

theorem readPieces_writeChars (cs rest : List Char) {fuel : Nat} (enough : cs.length < fuel) :
    readPieces fuel (cs.foldr writeChar ('"' :: rest)) = some (cs.map some, rest) := by
  induction cs generalizing fuel with
  | nil =>
    obtain ⟨fuel, rfl⟩ := Nat.exists_eq_add_of_lt enough
    rfl
  | cons c cs ih =>
    cases fuel with
    | zero => simp at enough
    | succ fuel =>
      rw [List.foldr_cons, readPieces, readPiece_writeChar]
      simp only [ih (by simpa using enough), Option.map_some, List.map_cons]

theorem readText_writeText (text : String) (rest : List Char) {fuel : Nat}
    (enough : text.toList.length < fuel) :
    readText fuel (text.toList.foldr writeChar ('"' :: rest)) = some (some text, rest) := by
  have whole : (text.toList.map some).mapM id = some text.toList := by
    induction text.toList with
    | nil => rfl
    | cons c cs ih => simp [ih]
  rw [readText, readPieces_writeChars _ _ enough, Option.map_some]
  simp only [whole, Option.map_some, String.ofList_toList]

/-! Values -/

theorem skipBlanks_cons (visible : isBlank c = false) : skipBlanks (c :: rest) = c :: rest := by
  simp [skipBlanks, visible]

theorem digit_visible (digit : c.isDigit = true) : isBlank c = false ∧ c ≠ 'n' ∧ c ≠ 't' ∧ c ≠ 'f' ∧
    c ≠ '"' ∧ c ≠ '[' ∧ c ≠ '\x7b' ∧ c ≠ ']' := by
  have apart : ∀ d : Char, d.isDigit = false → c ≠ d := by
    rintro d other rfl
    rw [digit] at other
    contradiction
  refine ⟨?_, apart _ rfl, apart _ rfl, apart _ rfl, apart _ rfl, apart _ rfl, apart _ rfl,
    apart _ rfl⟩
  simp [isBlank, apart ' ' rfl, apart '\t' rfl, apart '\n' rfl, apart '\r' rfl]

theorem toDigits_starts (n : Nat) : ∃ d ds, Nat.toDigits 10 n = d :: ds ∧ d.isDigit = true := by
  cases digits : Nat.toDigits 10 n with
  | nil => exact absurd digits Nat.toDigits_ne_nil
  | cons d ds =>
    refine ⟨d, ds, rfl, ?_⟩
    apply Nat.isDigit_of_mem_toDigits (b := 10) (n := n) (by decide) (by decide)
    simp [digits]

theorem write_starts {v : Json} (plain : Plain v) (rest : List Char) :
    ∃ c tail, write v rest = c :: tail ∧ isBlank c = false ∧ c ≠ ']' := by
  cases plain with
  | null => exact ⟨'n', _, rfl, by decide⟩
  | bool b => cases b <;> exact ⟨_, _, rfl, by decide⟩
  | nat n =>
    obtain ⟨d, ds, digits, digit⟩ := toDigits_starts n
    have visible := digit_visible digit
    exact ⟨d, ds ++ rest, by rw [write, digits]; rfl, visible.1, by simp [visible]⟩
  | str text => exact ⟨'"', _, rfl, by decide⟩
  | @arr items _ => cases items <;> exact ⟨'[', _, rfl, by decide⟩
  | @obj fields _ => cases fields <;> exact ⟨'\x7b', _, rfl, by decide⟩

theorem writeText_longer (text : String) (rest : List Char) :
    text.toList.length + rest.length + 2 ≤ (writeText text rest).length := by
  have inner := foldr_writeChar_length text.toList ('"' :: rest)
  simp only [writeText, List.length_cons] at inner ⊢
  omega

theorem writeItems_longer {vs : List Json}
    (longer : ∀ v ∈ vs, ∀ rest, rest.length < (write v rest).length) (rest : List Char) :
    rest.length < (writeItems vs rest).length := by
  induction vs with
  | nil => simp [writeItems]
  | cons v vs ih =>
    have first := longer v (by simp) (writeItems vs rest)
    have others := ih fun u member => longer u (by simp [member])
    simp only [writeItems, List.length_cons]
    omega

theorem writeField_longer (name : String) (v : Json) (rest : List Char) :
    name.toList.length + (write v rest).length + 3 ≤ (writeField (name, v) rest).length := by
  have whole := writeText_longer name (':' :: write v rest)
  simp only [writeField, List.length_cons] at whole ⊢
  omega

theorem writeFields_longer {fs : List (String × Json)}
    (longer : ∀ f ∈ fs, ∀ rest, rest.length < (write f.2 rest).length) (rest : List Char) :
    rest.length < (writeFields fs rest).length := by
  induction fs with
  | nil => simp [writeFields]
  | cons f fs ih =>
    have first : _ ≤ (writeField f _).length := writeField_longer f.1 f.2 (writeFields fs rest)
    have value := longer f (by simp) (writeFields fs rest)
    have others := ih fun g member => longer g (by simp [member])
    simp only [writeFields, List.length_cons]
    omega

theorem write_longer {v : Json} (plain : Plain v) :
    ∀ rest, rest.length < (write v rest).length := by
  induction plain with
  | null => intro rest; simp only [write, List.length_cons]; omega
  | bool b => intro rest; cases b <;> simp only [write, List.length_cons] <;> omega
  | nat n =>
    intro rest
    have digits := Nat.length_toDigits_pos (b := 10) (n := n)
    simp only [write, List.length_append]
    omega
  | str text =>
    intro rest
    have := writeText_longer text rest
    simp only [write]
    omega
  | @arr items _ ih =>
    intro rest
    cases items with
    | nil => simp only [write, List.length_cons]; omega
    | cons v vs =>
      have first := ih v (by simp) (writeItems vs rest)
      have others : rest.length < (writeItems vs rest).length :=
        writeItems_longer (fun u member => ih u (by simp [member])) rest
      simp only [write, List.length_cons]
      omega
  | @obj fields _ ih =>
    intro rest
    cases fields with
    | nil => simp only [write, List.length_cons]; omega
    | cons f fs =>
      have first : _ ≤ (writeField f _).length := writeField_longer f.1 f.2 (writeFields fs rest)
      have value := ih f (by simp) (writeFields fs rest)
      have others : rest.length < (writeFields fs rest).length :=
        writeFields_longer (fun g member => ih g (by simp [member])) rest
      simp only [write, List.length_cons]
      omega

theorem writeItems_ends (vs : List Json) (rest : List Char) : Ends (writeItems vs rest) := by
  cases vs <;> exact ends_cons (by decide) (by decide)

theorem writeFields_ends (fs : List (String × Json)) (rest : List Char) :
    Ends (writeFields fs rest) := by
  cases fs <;> exact ends_cons (by decide) (by decide)

def Reads (v : Json) : Prop := ∀ (rest : List Char) (fuel : Nat), Ends rest →
  (write v rest).length ≤ fuel + rest.length → readValue fuel (write v rest) = some (v, rest)

theorem readItems_write {v : Json} {vs : List Json} (plain : ∀ u ∈ v :: vs, Plain u)
    (reads : ∀ u ∈ v :: vs, Reads u) (rest : List Char) {fuel : Nat}
    (enough : (write v (writeItems vs rest)).length ≤ fuel + rest.length) :
    readItems fuel (write v (writeItems vs rest)) = some (v :: vs, rest) := by
  induction vs generalizing v fuel with
  | nil =>
    have longer := write_longer (plain v (by simp)) (writeItems [] rest)
    cases fuel with
    | zero => simp only [writeItems, List.length_cons] at longer enough; omega
    | succ fuel =>
      have first := reads v (by simp) (writeItems [] rest) fuel (writeItems_ends _ _)
        (by simp only [writeItems, List.length_cons] at enough ⊢; omega)
      rw [readItems, first]
      rfl
  | cons next vs ih =>
    have longer := write_longer (plain v (by simp)) (writeItems (next :: vs) rest)
    have others : rest.length < (writeItems (next :: vs) rest).length :=
      writeItems_longer
        (fun u member => write_longer (plain u (List.mem_cons_of_mem v member))) rest
    cases fuel with
    | zero => omega
    | succ fuel =>
      have first := reads v (by simp) (writeItems (next :: vs) rest) fuel (writeItems_ends _ _)
        (by omega)
      have later : readItems fuel (write next (writeItems vs rest)) = some (next :: vs, rest) :=
        ih (fun u member => plain u (List.mem_cons_of_mem v member))
          (fun u member => reads u (List.mem_cons_of_mem v member))
          (by simp only [writeItems, List.length_cons] at longer enough ⊢; omega)
      rw [readItems, first]
      simp only [writeItems, skipBlanks_cons (show isBlank ',' = false by decide), later,
        Option.map_some]

theorem readValue_array {fuel : Nat} (visible : isBlank c = false) (inside : c ≠ ']') :
    readValue (fuel + 1) ('[' :: c :: cs) =
      (readItems fuel (c :: cs)).map fun r => (.arr r.1, r.2) := by
  rw [readValue]
  simp only [skipBlanks_cons (show isBlank '[' = false by decide), skipBlanks_cons visible]
  split
  · rename_i closed
    exact absurd (List.cons.inj closed).1 inside
  · rfl

theorem readValue_object {fuel : Nat} (visible : isBlank c = false) (inside : c ≠ '\x7d') :
    readValue (fuel + 1) ('\x7b' :: c :: cs) =
      (readFields fuel (c :: cs)).map fun r => (.obj r.1, r.2) := by
  rw [readValue]
  simp only [skipBlanks_cons (show isBlank '\x7b' = false by decide), skipBlanks_cons visible]
  split
  · rename_i closed
    exact absurd (List.cons.inj closed).1 inside
  · rfl

theorem readValue_digit {fuel : Nat} (digit : c.isDigit = true) :
    readValue (fuel + 1) (c :: cs) = readNumber (c :: cs) := by
  obtain ⟨visible, other⟩ := digit_visible digit
  rw [readValue, skipBlanks_cons visible]
  split <;> simp_all

/-- The fuel for fields reaches for the name and the value of the first, and then for the rest. -/
theorem readFields_first {name : String} {v : Json} (plain : Plain v) (reads : Reads v)
    (others : List (String × Json)) (longer : rest.length < (writeFields others rest).length)
    {fuel : Nat}
    (enough : (writeField (name, v) (writeFields others rest)).length ≤ fuel + rest.length) :
    ∃ less, fuel = less + 1 ∧ (writeFields others rest).length ≤ less + rest.length ∧
      readText less (name.toList.foldr writeChar ('"' :: ':' :: write v (writeFields others rest))) =
        some (some name, ':' :: write v (writeFields others rest)) ∧
      readValue less (write v (writeFields others rest)) = some (v, writeFields others rest) := by
  have whole := writeField_longer name v (writeFields others rest)
  have inner := write_longer plain (writeFields others rest)
  obtain ⟨less, rfl⟩ : ∃ less, fuel = less + 1 := ⟨fuel - 1, by omega⟩
  exact ⟨less, rfl, by omega, readText_writeText name _ (by omega),
    reads _ less (writeFields_ends others rest) (by omega)⟩

theorem readFields_write {f : String × Json} {fs : List (String × Json)}
    (plain : ∀ g ∈ f :: fs, Plain g.2) (reads : ∀ g ∈ f :: fs, Reads g.2) (rest : List Char)
    {fuel : Nat} (enough : (writeField f (writeFields fs rest)).length ≤ fuel + rest.length) :
    readFields fuel (writeField f (writeFields fs rest)) = some (f :: fs, rest) := by
  have quote : isBlank '"' = false := by decide
  have colon : isBlank ':' = false := by decide
  induction fs generalizing f fuel with
  | nil =>
    obtain ⟨less, rfl, _, text, value⟩ :=
      readFields_first (plain f (by simp)) (reads f (by simp)) [] (by simp [writeFields]) enough
    rw [writeField, writeText, readFields]
    rw [writeFields] at text value ⊢
    simp only [skipBlanks_cons quote, text, skipBlanks_cons colon, value,
      skipBlanks_cons (show isBlank '\x7d' = false by decide)]
  | cons next fs ih =>
    have longer : rest.length < (writeFields (next :: fs) rest).length :=
      writeFields_longer
        (fun g member => write_longer (plain g (List.mem_cons_of_mem f member))) rest
    obtain ⟨less, rfl, left, text, value⟩ :=
      readFields_first (plain f (by simp)) (reads f (by simp)) (next :: fs) longer enough
    have later : readFields less (writeField next (writeFields fs rest)) =
        some (next :: fs, rest) :=
      ih (fun g member => plain g (List.mem_cons_of_mem f member))
        (fun g member => reads g (List.mem_cons_of_mem f member))
        (by simp only [writeFields, List.length_cons] at left; omega)
    rw [writeField, writeText, readFields]
    rw [writeFields] at text value ⊢
    simp only [skipBlanks_cons quote, text, skipBlanks_cons colon, value,
      skipBlanks_cons (show isBlank ',' = false by decide), later, Option.map_some]

theorem Plain.reads_of_fuel {v : Json} (plain : Plain v)
    (read : ∀ (rest : List Char) (fuel : Nat), Ends rest →
      (write v rest).length ≤ fuel + 1 + rest.length →
      readValue (fuel + 1) (write v rest) = some (v, rest)) : Reads v := by
  intro rest fuel ends enough
  have longer := write_longer plain rest
  obtain ⟨less, rfl⟩ : ∃ less, fuel = less + 1 := ⟨fuel - 1, by omega⟩
  exact read rest less ends enough

theorem Plain.reads {v : Json} (plain : Plain v) : Reads v := by
  induction plain with
  | null => exact Plain.null.reads_of_fuel fun rest fuel _ _ => rfl
  | bool b => exact (Plain.bool b).reads_of_fuel fun rest fuel _ _ => by cases b <;> rfl
  | nat n =>
    refine (Plain.nat n).reads_of_fuel fun rest fuel ends _ => ?_
    have read := readNumber_toDigits n ends
    obtain ⟨d, ds, digits, digit⟩ := toDigits_starts n
    rw [digits] at read
    rw [write, digits]
    exact (readValue_digit digit).trans read
  | str text =>
    refine (Plain.str text).reads_of_fuel fun rest fuel _ enough => ?_
    have longer := writeText_longer text rest
    rw [write] at enough ⊢
    have read := readText_writeText text rest (show text.toList.length < fuel by omega)
    rw [writeText, readValue]
    simp only [skipBlanks_cons (show isBlank '"' = false by decide), read]
    rfl
  | @arr items plain ih =>
    refine (Plain.arr plain).reads_of_fuel fun rest fuel _ enough => ?_
    cases items with
    | nil => rfl
    | cons v vs =>
      obtain ⟨c, tail, starts, visible, inside⟩ :=
        write_starts (plain v (by simp)) (writeItems vs rest)
      rw [write] at enough ⊢
      have read := readItems_write plain ih rest (show _ ≤ fuel + rest.length by
        simp only [List.length_cons] at enough
        omega)
      rw [starts] at read ⊢
      rw [readValue_array visible inside, read]
      rfl
  | @obj fields plain ih =>
    refine (Plain.obj plain).reads_of_fuel fun rest fuel _ enough => ?_
    cases fields with
    | nil => rfl
    | cons f fs =>
      rw [write] at enough ⊢
      have read := readFields_write plain ih rest (show _ ≤ fuel + rest.length by
        simp only [List.length_cons] at enough
        omega)
      rw [writeField, writeText] at read ⊢
      rw [readValue_object (by decide) (by decide), read]
      rfl

theorem parse?_print {v : Json} (plain : Plain v) : parse? (print v) = some v := by
  have nothing : Ends [] := by
    intro c first
    simp at first
  have read := plain.reads [] ((write v []).length + 1) nothing (by simp)
  simp only [parse?, print, String.toList_ofList, read]
  rfl

end StripeRecovery.Json
