import Mathlib.Tactic.Lemma
import Strand.Toml.Reader

/-! How texts, integers and keys can be written in a document, and that each of them is read back in
whatever way it was written. Every relation here says what stands in the document for a value; its
lemma says that the reader returns this value and leaves the text behind it. -/
namespace Strand.Toml
variable {p : Char → Bool} {c : Char} {w rest cs : Chars}

/-- What is left does not go on with a character in `p`. -/
def Stops (p : Char → Bool) (cs : Chars) : Prop := ∀ c ∈ cs.head?, p c = false

lemma stops_nil : Stops p [] := by simp [Stops]

lemma stops_cons : Stops p (c :: cs) ↔ p c = false := by simp [Stops]

lemma stops_append (outside : ∀ c ∈ w, p c = false) (stop : Stops p rest) :
    Stops p (w ++ rest) := by
  cases w with
  | nil => exact stop
  | cons c w => exact stops_cons.mpr (outside c List.mem_cons_self)

lemma takeWhile_append (inside : ∀ c ∈ w, p c = true) (stop : Stops p rest) :
    (w ++ rest).takeWhile p = w := by
  rw [List.takeWhile_append_of_pos inside]
  cases rest with
  | nil => simp
  | cons c rest => simp [stops_cons.mp stop]

lemma dropWhile_append (inside : ∀ c ∈ w, p c = true) (stop : Stops p rest) :
    (w ++ rest).dropWhile p = rest := by
  rw [List.dropWhile_append_of_pos inside]
  cases rest with
  | nil => rfl
  | cons c rest => simp [stops_cons.mp stop]

lemma eq_of_blank (h : isBlank c = true) : c = ' ' ∨ c = '\t' := by simpa [isBlank] using h

lemma skipBlanks_append (blanks : ∀ c ∈ w, isBlank c = true) (stop : Stops isBlank rest) :
    skipBlanks (w ++ rest) = rest :=
  dropWhile_append blanks stop

/-! ### Texts -/

section
variable {s ds : Chars} {values : List Nat} {left value : Nat}

/-- The ways to write a character between double quotes: as it is, by a letter after a backslash,
and by its number in four or eight digits. -/
inductive CharWritten : Char → Chars → Prop
  | plain {c : Char} (fits : isBasicChar c = true) : CharWritten c [c]
  | short {c letter : Char} (stands : simpleEscape? letter = some c) :
      CharWritten c ['\\', letter]
  | number {c mark : Char} {ds : Chars} {values : List Nat}
      (width : mark = 'u' ∧ ds.length = 4 ∨ mark = 'U' ∧ ds.length = 8)
      (digits : ds.map (digitValue? 16) = values.map some)
      (stands : ofDigits 16 values = c.toNat) : CharWritten c ('\\' :: mark :: ds)

/-- A text between its double quotes, each character in any of its ways. -/
inductive TextWritten : Chars → Chars → Prop
  | nil : TextWritten [] []
  | cons {c : Char} {s v w : Chars} (first : CharWritten c v) (more : TextWritten s w) :
      TextWritten (c :: s) (v ++ w)

lemma scalar?_toNat (c : Char) : scalar? c.toNat = some c := by
  rw [scalar?, if_pos (show c.toNat.isValidChar from c.valid), Char.ofNat_toNat]

/-- The digits of a number are read one by one, up to the last. -/
lemma basicText?_hex (digits : ds.map (digitValue? 16) = values.map some)
    (length : ds.length = left + 1)
    (stands : values.foldl (fun n d => 16 * n + d) value = c.toNat) (rest : Chars) :
    basicText? (.hex left value) (ds ++ rest) =
      (basicText? .plain rest).map fun (s, rest) => (c :: s, rest) := by
  induction left generalizing ds values value with
  | zero =>
    obtain ⟨d, rfl⟩ := List.length_eq_one_iff.mp length
    obtain ⟨x, rfl⟩ : ∃ x, values = [x] := by
      have := congrArg List.length digits
      exact List.length_eq_one_iff.mp (by simpa using this.symm)
    simp only [List.map_cons, List.map_nil, List.cons.injEq, and_true] at digits
    simp only [List.foldl_cons, List.foldl_nil] at stands
    simp only [List.singleton_append, basicText?, digits, stands, scalar?_toNat]
  | succ left ih =>
    cases ds with
    | nil => simp at length
    | cons d ds =>
      cases values with
      | nil => simp at digits
      | cons x values =>
        simp only [List.map_cons, List.cons.injEq] at digits
        simp only [List.cons_append, basicText?, digits.1]
        exact ih digits.2 (by simpa using length) stands

lemma basicText?_char (written : CharWritten c w) (rest : Chars) :
    basicText? .plain (w ++ rest) =
      (basicText? .plain rest).map fun (s, rest) => (c :: s, rest) := by
  cases written with
  | plain fits =>
    have hplain := fits
    simp only [isBasicChar, Bool.and_eq_true, bne_iff_ne, ne_eq] at hplain
    simp only [List.singleton_append, basicText?, if_neg hplain.1.2, if_neg hplain.2, fits, if_true]
  | @short letter stands =>
    have hu : letter ≠ 'u' := by
      rintro rfl
      cases stands
    have hU : letter ≠ 'U' := by
      rintro rfl
      cases stands
    simp [basicText?, hu, hU, stands]
  | @number mark ds values width digits stands =>
    rcases width with ⟨rfl, hlength⟩ | ⟨rfl, hlength⟩
    · simpa [basicText?] using basicText?_hex digits hlength stands rest
    · simpa [basicText?] using basicText?_hex digits hlength stands rest

theorem basicText?_written (written : TextWritten s w) (rest : Chars) :
    basicText? .plain (w ++ '"' :: rest) = some (s, rest) := by
  induction written with
  | nil => rfl
  | cons first _ ih => rw [List.append_assoc, basicText?_char first, ih, Option.map_some]

/-- There is a way for every character: those that may not stand for themselves have small numbers.
-/
lemma exists_charWritten (c : Char) : ∃ w, CharWritten c w := by
  by_cases hplain : isBasicChar c = true
  · exact ⟨_, .plain hplain⟩
  have hsmall : c.toNat < 128 := by
    refine Nat.lt_of_not_le fun hwide => hplain ?_
    have hquote : c ≠ '"' := by
      rintro rfl
      revert hwide
      decide
    have hslash : c ≠ '\\' := by
      rintro rfl
      revert hwide
      decide
    simp [isBasicChar, isCommentChar, isWide, hwide, hquote, hslash]
  have hdigits : ∀ n < 128,
      ['0', '0', Nat.digitChar (n / 16), Nat.digitChar (n % 16)].map (digitValue? 16) =
        [0, 0, n / 16, n % 16].map some ∧ ofDigits 16 [0, 0, n / 16, n % 16] = n := by decide
  exact ⟨_, .number (.inl ⟨rfl, rfl⟩) (hdigits _ hsmall).1 (hdigits _ hsmall).2⟩

lemma exists_textWritten (s : Chars) : ∃ w, TextWritten s w := by
  induction s with
  | nil => exact ⟨_, .nil⟩
  | cons c s ih =>
    obtain ⟨v, first⟩ := exists_charWritten c
    obtain ⟨w, more⟩ := ih
    exact ⟨_, .cons first more⟩

/-- No way of writing a character begins with a double quote. -/
lemma TextWritten.head_ne (written : TextWritten s w) : ∀ c ∈ w.head?, c ≠ '"' := by
  cases written with
  | nil => simp
  | cons first more =>
    cases first with
    | plain fits =>
      simp only [isBasicChar, Bool.and_eq_true, bne_iff_ne, ne_eq] at fits
      simpa using fits.1.2
    | short | number => simp

end

/-! ### Integers -/

section
variable {ds : List Nat} {d n : Nat} {negative : Bool} {v : Chars}

/-- The characters of a number behind its sign. -/
def isNumeral (c : Char) : Bool := (digitValue? 10 c).isSome || c == '_'

/-- What may stand behind a value on its line. -/
def isEnd (c : Char) : Bool := isBlank c || c == '#' || c == '\n' || c == '\r'

/-- Decimal digits, the highest first, with single underscores between some of them. -/
inductive DigitsWritten : List Nat → Chars → Prop
  | last {d : Nat} {c : Char} (digit : digitValue? 10 c = some d) : DigitsWritten [d] [c]
  | next {d : Nat} {ds : List Nat} {c : Char} {w : Chars} (digit : digitValue? 10 c = some d)
      (more : DigitsWritten ds w) : DigitsWritten (d :: ds) (c :: w)
  | apart {d : Nat} {ds : List Nat} {c : Char} {w : Chars} (digit : digitValue? 10 c = some d)
      (more : DigitsWritten ds w) : DigitsWritten (d :: ds) (c :: '_' :: w)

inductive SignWritten : Bool → Chars → Prop
  | none : SignWritten false []
  | plus : SignWritten false ['+']
  | minus : SignWritten true ['-']

/-- A decimal integer: it may have a sign, and has no zero in front. -/
inductive IntegerWritten (n : Int64) : Chars → Prop
  | decimal {negative : Bool} {v : Chars} {ds : List Nat} {w : Chars}
      (signed : SignWritten negative v) (digits : DigitsWritten ds w)
      (leads : ds.head? = some 0 → ds = [0])
      (stands : (if negative then -(ofDigits 10 ds : Int) else ofDigits 10 ds) = n.toInt) :
      IntegerWritten n (v ++ w)

lemma ne_of_digit {x : Char} (digit : digitValue? 10 c = some d)
    (hx : digitValue? 10 x = none := by decide) : c ≠ x := by
  rintro rfl
  rw [hx] at digit
  cases digit

lemma moreDigits_stop (stop : Stops isNumeral rest) : moreDigits 10 rest = ([], rest) := by
  cases rest with
  | nil => rfl
  | cons c rest =>
    have hstop := stops_cons.mp stop
    simp only [isNumeral, Bool.or_eq_false_iff, beq_eq_false_iff_ne, ne_eq,
      Option.isSome_eq_false_iff, Option.isNone_iff_eq_none] at hstop
    rw [moreDigits]
    · simp [hstop.1]
    · intro c' rest' heq
      exact absurd heq hstop.2

lemma moreDigits_digit (digit : digitValue? 10 c = some d) (cs : Chars) :
    moreDigits 10 (c :: cs) = (d :: (moreDigits 10 cs).1, (moreDigits 10 cs).2) := by
  rw [moreDigits, digit]
  intro c' cs' heq
  exact absurd heq (ne_of_digit digit)

lemma moreDigits_apart (digit : digitValue? 10 c = some d) (cs : Chars) :
    moreDigits 10 ('_' :: c :: cs) = (d :: (moreDigits 10 cs).1, (moreDigits 10 cs).2) := by
  rw [moreDigits, digit]

/-- Digits are read to their end, with or without an underscore in front of the first. -/
lemma moreDigits_written (digits : DigitsWritten ds w) (stop : Stops isNumeral rest) :
    moreDigits 10 (w ++ rest) = (ds, rest) ∧ moreDigits 10 ('_' :: (w ++ rest)) = (ds, rest) := by
  induction digits with
  | last digit => simp [moreDigits_digit digit, moreDigits_apart digit, moreDigits_stop stop]
  | next digit _ ih => simp [moreDigits_digit digit, moreDigits_apart digit, ih.1]
  | apart digit _ ih => simp [moreDigits_digit digit, moreDigits_apart digit, ih.2]

lemma digits?_written (digits : DigitsWritten ds w) (stop : Stops isNumeral rest) :
    digits? 10 (w ++ rest) = some (ds, rest) := by
  cases digits with
  | last digit => simp [digits?, digit, moreDigits_stop stop]
  | next digit more => simp [digits?, digit, (moreDigits_written more stop).1]
  | apart digit more => simp [digits?, digit, (moreDigits_written more stop).2]

lemma DigitsWritten.head (digits : DigitsWritten ds w) :
    ∃ c d w', w = c :: w' ∧ ds.head? = some d ∧ digitValue? 10 c = some d := by
  cases digits with
  | last digit | next digit | apart digit => exact ⟨_, _, _, rfl, rfl, digit⟩

lemma DigitsWritten.numerals (digits : DigitsWritten ds w) : ∀ c ∈ w, isNumeral c = true := by
  induction digits with
  | last digit => simp [isNumeral, digit]
  | next digit _ ih => simpa [isNumeral, digit] using ih
  | apart digit _ ih => simpa [isNumeral, digit] using ih

lemma DigitsWritten.concat (digits : DigitsWritten ds w) (digit : digitValue? 10 c = some d) :
    DigitsWritten (ds ++ [d]) (w ++ [c]) := by
  induction digits with
  | last first => exact .next first (.last digit)
  | next first _ ih => exact .next first ih
  | apart first _ ih => exact .apart first ih

lemma exists_digitsWritten (n : Nat) : ∃ ds w, DigitsWritten ds w ∧
    (ds.head? = some 0 → ds = [0]) ∧ ofDigits 10 ds = n := by
  have hdigit : ∀ d < 10, digitValue? 10 (Nat.digitChar d) = some d := by decide
  induction n using Nat.strongRecOn with
  | ind n ih =>
    by_cases hsmall : n < 10
    · refine ⟨[n], _, .last (hdigit n hsmall), fun h => ?_, ?_⟩
      · rw [Option.some.inj h]
      · simp [ofDigits]
    · obtain ⟨ds, w, digits, leads, hds⟩ := ih (n / 10) (by omega)
      refine ⟨_, _, digits.concat (hdigit (n % 10) (by omega)), fun h => ?_, ?_⟩
      · obtain ⟨c, d, w', -, hhead, -⟩ := digits.head
        rw [List.head?_append, hhead] at h
        rw [leads (hhead.trans h)] at hds
        simp only [ofDigits, List.foldl_cons, List.foldl_nil] at hds
        omega
      · rw [ofDigits, List.foldl_append, ← ofDigits, hds]
        simp only [List.foldl_cons, List.foldl_nil]
        omega

lemma exists_integerWritten (m : Int64) : ∃ w, IntegerWritten m w := by
  obtain ⟨ds, w, digits, leads, hds⟩ := exists_digitsWritten m.toInt.natAbs
  by_cases hsign : m.toInt < 0
  · refine ⟨_, .decimal .minus digits leads ?_⟩
    rw [hds, if_pos rfl]
    omega
  · refine ⟨_, .decimal .none digits leads ?_⟩
    rw [hds, if_neg Bool.false_ne_true]
    omega

lemma eq_zero_of_digit (digit : digitValue? 10 c = some 0) : c = '0' := by
  obtain ⟨hvalue, -⟩ := Option.filter_eq_some_iff.mp digit
  split at hvalue
  next hrange =>
    have hle : 48 ≤ c.toNat := hrange.1
    have hsub : c.toNat - 48 = 0 := Option.some.inj hvalue
    exact Char.toNat_inj.mp (show c.toNat = 48 by omega)
  · split at hvalue
    · simp at hvalue
    · split at hvalue <;> simp at hvalue

/-- A number that begins with a zero is zero. -/
lemma wholeDigits?_written (digits : DigitsWritten ds w) (leads : ds.head? = some 0 → ds = [0])
    (stop : Stops isNumeral rest) : wholeDigits? (w ++ rest) = some (ds, rest) := by
  obtain ⟨c, d, w', rfl, hhead, digit⟩ := digits.head
  by_cases hzero : d = 0
  · subst hzero
    obtain rfl := eq_zero_of_digit digit
    obtain rfl := leads hhead
    cases digits with
    | last => rfl
    | next _ more => cases more
    | apart _ more => cases more
  · rw [← digits?_written digits stop, List.cons_append, wholeDigits?]
    intro rest' heq
    obtain rfl : c = '0' := (List.cons.inj heq).1
    exact absurd (Option.some.inj digit).symm hzero

lemma sign_written (signed : SignWritten negative v) (digits : DigitsWritten ds w) :
    sign (v ++ (w ++ rest)) = (negative, w ++ rest) := by
  cases signed with
  | plus | minus => rfl
  | none =>
    obtain ⟨c, d, w', rfl, -, digit⟩ := digits.head
    rw [List.nil_append, sign]
    · intro rest' heq
      exact absurd (List.cons.inj heq).1 (ne_of_digit digit)
    · intro rest' heq
      exact absurd (List.cons.inj heq).1 (ne_of_digit digit)

/-- What is left of a number, and an end behind it. -/
def Numeric (cs : Chars) : Prop :=
  ∃ w rest, cs = w ++ rest ∧ (∀ c ∈ w, isNumeral c = true) ∧ ∀ c ∈ rest.head?, isEnd c = true

namespace Numeric

lemma head (numeric : Numeric (c :: cs)) : isNumeral c = true ∨ isEnd c = true := by
  obtain ⟨w, rest, heq, inside, behind⟩ := numeric
  cases w with
  | nil =>
    obtain rfl : c :: cs = rest := heq
    exact .inr (behind c rfl)
  | cons c' w =>
    obtain ⟨rfl, -⟩ := List.cons.inj heq
    exact .inl (inside c List.mem_cons_self)

lemma tail (numeric : Numeric (c :: cs)) (digit : digitValue? 10 c = some d) : Numeric cs := by
  obtain ⟨w, rest, heq, inside, behind⟩ := numeric
  cases w with
  | nil =>
    obtain rfl : c :: cs = rest := heq
    have hend := behind c rfl
    simp only [isEnd, isBlank, Bool.or_eq_true, beq_iff_eq] at hend
    rcases hend with (((rfl | rfl) | rfl) | rfl) | rfl <;> cases digit
  | cons c' w =>
    obtain ⟨rfl, rfl⟩ := List.cons.inj heq
    exact ⟨w, rest, rfl, fun c hc => inside c (List.mem_cons_of_mem _ hc), behind⟩

lemma expect (numeric : Numeric cs) (numeral : isNumeral c = false) (closing : isEnd c = false) :
    Toml.expect c cs = none := by
  cases cs with
  | nil => rfl
  | cons c' cs =>
    rw [Toml.expect, if_neg]
    rintro rfl
    rcases numeric.head with h | h
    · rw [numeral] at h
      cases h
    · rw [closing] at h
      cases h

lemma fixedDigits? (numeric : Numeric cs) (h : Toml.fixedDigits? n cs = some (ds, rest)) :
    Numeric rest := by
  induction n generalizing cs ds with
  | zero =>
    cases h
    exact numeric
  | succ n ih =>
    cases cs with
    | nil => cases h
    | cons c cs =>
      cases hdigit : digitValue? 10 c with
      | none => simp [Toml.fixedDigits?, hdigit] at h
      | some d =>
        simp only [Toml.fixedDigits?, hdigit, Option.map_eq_some_iff] at h
        obtain ⟨⟨ds', rest'⟩, hmore, heq⟩ := h
        cases heq
        exact ih (numeric.tail hdigit) hmore

/-- No hyphen and no colon comes after digits, so there is neither a date nor a time. -/
lemma skipMoment? (numeric : Numeric cs) : Toml.skipMoment? cs = none := by
  have hdate : skipDate? cs = none := by
    rw [skipDate?]
    cases h : Toml.fixedDigits? 4 cs with
    | none => rfl
    | some result => simp [(numeric.fixedDigits? h).expect (c := '-') rfl rfl]
  rw [Toml.skipMoment?, hdate]
  simp only [skipTime?, twoDigits?]
  cases h : Toml.fixedDigits? 2 cs with
  | none => rfl
  | some result =>
    simp only [Option.bind_eq_bind, Option.bind_some]
    split
    · simp [(numeric.fixedDigits? h).expect (c := ':') rfl rfl]
    · rfl

end Numeric

section
variable {m : Int64} (behind : ∀ c ∈ rest.head?, isEnd c = true)
include behind

lemma stops_of_end (outside : ∀ c, isEnd c = true → p c = false) : Stops p rest :=
  fun c hc => outside c (behind c hc)

lemma stops_numerals : Stops isNumeral rest := by
  refine stops_of_end behind fun c hend => ?_
  simp only [isEnd, isBlank, Bool.or_eq_true, beq_iff_eq] at hend
  rcases hend with (((rfl | rfl) | rfl) | rfl) | rfl <;> rfl

lemma numeric_written (digits : DigitsWritten ds w) : Numeric (w ++ rest) :=
  ⟨w, rest, rfl, digits.numerals, behind⟩

lemma skipMoment?_written (signed : SignWritten negative v) (digits : DigitsWritten ds w) :
    skipMoment? (v ++ (w ++ rest)) = none := by
  cases signed with
  | none => exact (numeric_written behind digits).skipMoment?
  | plus | minus => rfl

/-- Neither a point nor an exponent comes after the digits, and none of the words for special
numbers comes after a sign. -/
lemma float?_written (signed : SignWritten negative v) (digits : DigitsWritten ds w)
    (leads : ds.head? = some 0 → ds = [0]) : float? (v ++ (w ++ rest)) = none := by
  have hexponent : exponent? rest = none := by
    cases rest with
    | nil => rfl
    | cons c rest =>
      have hc : ¬(c = 'e' ∨ c = 'E') := by
        rintro (rfl | rfl) <;> cases behind _ rfl
      rw [exponent?, if_neg hc]
  have hfinite : finite? (v ++ (w ++ rest)) = none := by
    simp only [finite?, sign_written signed digits,
      wholeDigits?_written digits leads (stops_numerals behind), Option.bind_eq_bind,
      Option.bind_some]
    split
    · cases behind _ rfl
    · simp [hexponent]
  have hspecial : special? (v ++ (w ++ rest)) = none := by
    simp only [special?, sign_written signed digits]
    obtain ⟨c, d, w', rfl, -, digit⟩ := digits.head
    split
    next heq => exact absurd (List.cons.inj heq).1 (ne_of_digit digit)
    next heq => exact absurd (List.cons.inj heq).1 (ne_of_digit digit)
    next => rfl
  rw [float?, hfinite, hspecial]
  rfl

omit behind in
lemma int64?_toInt (m : Int64) : int64? m.toInt = some m := by
  rw [int64?, if_pos ⟨m.le_toInt, by have := m.toInt_lt; omega⟩, Int64.ofInt_toInt]

lemma integer?_written (written : IntegerWritten m w) : integer? (w ++ rest) = some (m, rest) := by
  obtain ⟨signed, digits, leads, stands⟩ := written
  next negative v ds w =>
  have hwhole := wholeDigits?_written digits leads (stops_numerals behind)
  have hdecimal : decimal? (v ++ (w ++ rest)) = some (m, rest) := by
    simp only [decimal?, sign_written signed digits, hwhole, Option.bind_eq_bind,
      Option.bind_some, stands, int64?_toInt]
  -- A letter for another base does not belong to a number in base ten, nor does it end one.
  have hbase : ∀ x rest', isNumeral x = false → isEnd x = false →
      v ++ (w ++ rest) ≠ '0' :: x :: rest' := by
    intro x rest' numeral closing heq
    cases signed with
    | plus | minus => cases heq
    | none =>
      have hnumeric := numeric_written behind digits
      rw [List.nil_append] at heq
      rw [heq] at hnumeric
      rcases (hnumeric.tail (d := 0) rfl).head with h | h
      · rw [numeral] at h
        cases h
      · rw [closing] at h
        cases h
  rw [List.append_assoc, ← hdecimal, integer?]
  · exact fun rest' => hbase 'x' rest' rfl rfl
  · exact fun rest' => hbase 'o' rest' rfl rfl
  · exact fun rest' => hbase 'b' rest' rfl rfl

lemma numeric?_written (written : IntegerWritten m w) :
    numeric? (w ++ rest) = some (.integer m, rest) := by
  have hinteger := integer?_written behind written
  obtain ⟨signed, digits, leads, stands⟩ := written
  rw [List.append_assoc] at hinteger ⊢
  rw [numeric?, skipMoment?_written behind signed digits, float?_written behind signed digits leads,
    hinteger]
  rfl

end

end

/-! ### Values and keys -/

section
variable {value : Value} {name : String}

/-- The values of two kinds, as they are written. -/
inductive ValueWritten : Value → Chars → Prop
  | text {s : String} {w : Chars} (written : TextWritten s.toList w) :
      ValueWritten (.string s) ('"' :: (w ++ ['"']))
  | integer {n : Int64} {w : Chars} (written : IntegerWritten n w) : ValueWritten (.integer n) w

lemma text?_written {s w : Chars} (written : TextWritten s w)
    (behind : ∀ c ∈ rest.head?, isEnd c = true) :
    text? ('"' :: (w ++ '"' :: rest)) = some (s, rest) := by
  have htriple : ∀ rest', w ++ '"' :: rest ≠ '"' :: '"' :: rest' := by
    intro rest' heq
    cases w with
    | nil =>
      obtain rfl : rest = '"' :: rest' := (List.cons.inj heq).2
      cases behind _ rfl
    | cons c w => exact written.head_ne c rfl (List.cons.inj heq).1
  rw [text?]
  · exact basicText?_written written rest
  · exact fun rest' heq => htriple rest' (List.cons.inj heq).2
  · simp

/-- The characters with which an integer begins. -/
def isStart (c : Char) : Bool := c == '+' || c == '-' || (digitValue? 10 c).isSome

lemma IntegerWritten.head {n : Int64} (written : IntegerWritten n w) :
    ∃ c w', w = c :: w' ∧ isStart c = true := by
  obtain ⟨signed, digits, -, -⟩ := written
  cases signed with
  | plus | minus => exact ⟨_, _, rfl, rfl⟩
  | none =>
    obtain ⟨c, d, w', rfl, -, digit⟩ := digits.head
    exact ⟨c, w', rfl, by simp [isStart, digit]⟩

/-- A value is read back, whatever may stand behind it on its line. -/
theorem value?_written (written : ValueWritten value w) (behind : ∀ c ∈ rest.head?, isEnd c = true)
    (depth : Nat) : value? depth (w ++ rest) = some (value, rest) := by
  cases written with
  | @text s w written =>
    have hscalar : scalarValue? ('"' :: (w ++ '"' :: rest)) = some (.string s, rest) := by
      simp only [scalarValue?, text?_written written behind, Option.map_some, String.ofList_toList]
    rw [List.cons_append, List.append_assoc, List.singleton_append, ← hscalar]
    cases depth <;> rfl
  | integer written =>
    obtain ⟨c, w', rfl, start⟩ := written.head
    have hnumeric := numeric?_written behind written
    have hne : ∀ x cs, isStart x = false → c :: w' ++ rest ≠ x :: cs := by
      intro x cs hx heq
      rw [(List.cons.inj heq).1, hx] at start
      cases start
    have hscalar : scalarValue? (c :: w' ++ rest) = numeric? (c :: w' ++ rest) := by
      rw [scalarValue?]
      · exact fun _ => hne '"' _ rfl
      · exact fun _ => hne '\'' _ rfl
      · exact fun _ => hne 't' _ rfl
      · exact fun _ => hne 'f' _ rfl
      · exact fun _ => hne 'i' _ rfl
      · exact fun _ => hne 'n' _ rfl
    rw [← hnumeric, ← hscalar]
    cases depth with
    | zero => rfl
    | succ depth =>
      rw [value?]
      · exact fun _ _ _ => hne '[' _ rfl
      · exact fun _ _ _ => hne '{' _ rfl

/-- The ways to write one name as a key: as it is, or between quotes of either kind. -/
inductive KeyWritten (name : String) : Chars → Prop
  | bare (nonempty : name.toList ≠ []) (fits : ∀ c ∈ name.toList, isBareKeyChar c = true) :
      KeyWritten name name.toList
  | basic {w : Chars} (written : TextWritten name.toList w) : KeyWritten name ('"' :: (w ++ ['"']))
  | literal (fits : ∀ c ∈ name.toList, isLiteralChar c = true) :
      KeyWritten name ('\'' :: (name.toList ++ ['\'']))

/-- The characters with which a key begins. -/
def isKeyStart (c : Char) : Bool := isBareKeyChar c || c == '"' || c == '\''

lemma KeyWritten.head (written : KeyWritten name w) :
    ∃ c w', w = c :: w' ∧ isKeyStart c = true := by
  cases written with
  | bare nonempty fits =>
    obtain ⟨c, w', hname⟩ := List.exists_cons_of_ne_nil nonempty
    have hc : isBareKeyChar c = true := fits c (by simp [hname])
    exact ⟨c, w', hname, by simp [isKeyStart, hc]⟩
  | basic | literal => exact ⟨_, _, rfl, rfl⟩

lemma literalText?_written {s : Chars} (fits : ∀ c ∈ s, isLiteralChar c = true) (rest : Chars) :
    literalText? (s ++ '\'' :: rest) = some (s, rest) := by
  induction s with
  | nil => rfl
  | cons c s ih =>
    have hc := fits c List.mem_cons_self
    have hne : c ≠ '\'' := by
      rintro rfl
      cases hc
    rw [List.cons_append, literalText?, if_neg hne, if_pos hc,
      ih fun c hmem => fits c (List.mem_cons_of_mem _ hmem)]
    rfl

lemma keyPart?_written (written : KeyWritten name w) (stop : Stops isBareKeyChar rest) :
    keyPart? (w ++ rest) = some (name, rest) := by
  cases written with
  | bare nonempty fits =>
    have hline : lineText? (name.toList ++ rest) = none := by
      obtain ⟨c, w', hname⟩ := List.exists_cons_of_ne_nil nonempty
      have hc : isBareKeyChar c = true := fits c (by simp [hname])
      rw [hname, List.cons_append, lineText?]
      · intro rest' heq
        rw [(List.cons.inj heq).1] at hc
        cases hc
      · intro rest' heq
        rw [(List.cons.inj heq).1] at hc
        cases hc
    simp only [keyPart?, hline, takeWhile_append fits stop, dropWhile_append fits stop]
    rw [String.ofList_toList]
  | @basic w written =>
    have hline : lineText? ('"' :: (w ++ '"' :: rest)) = some (name.toList, rest) :=
      basicText?_written written rest
    simp only [keyPart?, List.cons_append, List.append_assoc, List.nil_append, hline,
      String.ofList_toList]
  | literal fits =>
    have hline : lineText? ('\'' :: (name.toList ++ '\'' :: rest)) = some (name.toList, rest) :=
      literalText?_written fits rest
    simp only [keyPart?, List.cons_append, List.append_assoc, List.nil_append, hline,
      String.ofList_toList]

/-- A key without dots is read back, together with the blanks before the equals sign. -/
theorem key?_written {blanks : Chars} (written : KeyWritten name w)
    (hblanks : ∀ c ∈ blanks, isBlank c = true) (rest : Chars) :
    key? (w ++ (blanks ++ '=' :: rest)) = some (([], name), '=' :: rest) := by
  have hstop : Stops isBareKeyChar (blanks ++ '=' :: rest) := by
    refine stops_append (fun c hc => ?_) (stops_cons.mpr rfl)
    rcases eq_of_blank (hblanks c hc) with rfl | rfl <;> rfl
  have hskip : skipBlanks (w ++ (blanks ++ '=' :: rest)) = w ++ (blanks ++ '=' :: rest) := by
    obtain ⟨c, w', rfl, start⟩ := written.head
    have hc : isBlank c = false := by
      refine Bool.eq_false_iff.mpr fun hblank => ?_
      rcases eq_of_blank hblank with rfl | rfl <;> cases start
    exact skipBlanks_append (w := []) (by simp) (stops_cons.mpr hc)
  have hequals : skipBlanks (blanks ++ '=' :: rest) = '=' :: rest :=
    skipBlanks_append hblanks (stops_cons.mpr rfl)
  rw [key?, nestingLimit, keyParts?]
  simp only [hskip, keyPart?_written written hstop, hequals, Option.bind_eq_bind, Option.bind_some]
  rfl

/-- A key and its value on one line, with blanks around the equals sign. -/
inductive AssignmentWritten (name : String) (value : Value) : Chars → Prop
  | equals {v w before after : Chars} (key : KeyWritten name v) (written : ValueWritten value w)
      (hbefore : ∀ c ∈ before, isBlank c = true) (hafter : ∀ c ∈ after, isBlank c = true) :
      AssignmentWritten name value (v ++ (before ++ '=' :: (after ++ w)))

lemma ValueWritten.stops_blanks (written : ValueWritten value w) (rest : Chars) :
    Stops isBlank (w ++ rest) := by
  cases written with
  | text => exact stops_cons.mpr rfl
  | integer written =>
    obtain ⟨c, w', rfl, start⟩ := written.head
    refine stops_cons.mpr (Bool.eq_false_iff.mpr fun hblank => ?_)
    rcases eq_of_blank hblank with rfl | rfl <;> cases start

theorem assignment?_written (written : AssignmentWritten name value w)
    (behind : ∀ c ∈ rest.head?, isEnd c = true) (depth : Nat) :
    assignment? (value? depth) (w ++ rest) = some (([], name), value, rest) := by
  obtain ⟨key, value, hbefore, hafter⟩ := written
  have hkey := key?_written key hbefore
  have hvalue := value?_written value behind depth
  have hskip := skipBlanks_append hafter (value.stops_blanks rest)
  simp only [assignment?, List.append_assoc, List.cons_append, hkey, Option.bind_eq_bind,
    Option.bind_some, expect, if_true, hskip, hvalue]

end

end Strand.Toml
