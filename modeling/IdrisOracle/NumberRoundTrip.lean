import IdrisOracle.NumberBytes

/-! A number that goes to its bytes and back to text keeps its value. -/

namespace IdrisOracle

open Positional

/-- Whether the decimal point lies between two digits, of which the first has index `i`. -/
abbrev Inside (point : ℤ) (i : ℕ) (digits : List UInt8) : Prop :=
  i ≤ point ∧ 0 < point ∧ point < i + digits.length

theorem length_digitsText (point : ℤ) (i : ℕ) (digits : List UInt8) :
    (digitsText point i digits).length =
      digits.length + if Inside point i digits then 1 else 0 := by
  induction digits generalizing i with
  | nil =>
      have houtside : ¬ Inside point i [] := by
        rintro ⟨hle, -, hlt⟩
        rw [List.length_nil] at hlt
        omega
      rw [if_neg houtside]
      rfl
  | cons digit digits ih =>
      have hlength : (digit :: digits).length = digits.length + 1 := List.length_cons
      rw [digitsText, List.length_append, List.length_cons, ih]
      by_cases hhere : 0 < i ∧ (i : ℤ) = point
      · have hlater : ¬ Inside point (i + 1) digits := by omega
        have hinside : Inside point i (digit :: digits) := by omega
        rw [if_pos hhere, if_neg hlater, if_pos hinside, List.length_singleton]
        omega
      · have hsame : Inside point (i + 1) digits ↔ Inside point i (digit :: digits) := by
          simp only [Inside, List.length_cons]
          omega
        rw [if_neg hhere, List.length_nil]
        simp only [hsame]
        omega

/-- The number of bytes that is checked is the number that is written. -/
theorem length_numberText (parts : NumberParts) :
    (numberText parts).length = numberTextSize parts := by
  have hdigits := length_digitsText parts.decimalPointIndex 0 parts.digits
  rw [numberText, numberTextSize, List.length_append, List.length_append, List.length_append,
    List.length_replicate]
  by_cases hfront : parts.decimalPointIndex ≤ 0
  · have houtside : ¬ Inside parts.decimalPointIndex 0 parts.digits := by omega
    rw [if_neg houtside] at hdigits
    rw [hdigits, if_pos hfront, if_pos hfront, List.length_cons, List.length_cons,
      List.length_replicate]
    cases parts.isNegative <;> simp <;> omega
  · rw [if_neg hfront, if_neg hfront]
    by_cases hinside : parts.decimalPointIndex < parts.digits.length
    · have hin : Inside parts.decimalPointIndex 0 parts.digits := by omega
      rw [if_pos hin] at hdigits
      rw [hdigits, if_pos hinside]
      cases parts.isNegative <;> simp <;> omega
    · have houtside : ¬ Inside parts.decimalPointIndex 0 parts.digits := by omega
      rw [if_neg houtside] at hdigits
      rw [hdigits, if_neg hinside]
      cases parts.isNegative with
      | true =>
          simp
          omega
      | false => simp

theorem numberTextSize_le {parts : NumberParts} (h : parts.InRange) :
    numberTextSize parts ≤ numberAsTextChars := by
  obtain ⟨hdigits, hhigh, hlow⟩ := h
  rw [numberMaxDigits] at hdigits
  rw [numberTextSize, numberAsTextChars]
  split <;> split <;> (try split) <;> omega

theorem exists_map_digitByte {digits : List UInt8} (h : ∀ d ∈ digits, d < 10) :
    ∃ ds : List (Fin 10), digits = ds.map digitByte := by
  induction digits with
  | nil => exact ⟨[], rfl⟩
  | cons d digits ih =>
      obtain ⟨ds, rfl⟩ := ih fun e he => h e (by simp [he])
      have hd : d.toNat < 10 := h d (by simp)
      exact ⟨⟨d.toNat, hd⟩ :: ds, by simp [digitByte]⟩

theorem zero_add_digitByte (d : Fin 10) : 48 + digitByte d = digitChar d := by
  revert d
  decide

theorem digitsText_far {point : ℤ} {i : ℕ} (ds : List (Fin 10))
    (h : point ≤ 0 ∨ i + (ds.length : ℤ) ≤ point ∨ point < i) :
    digitsText point i (ds.map digitByte) = ds.map digitChar := by
  induction ds generalizing i with
  | nil => rfl
  | cons d ds ih =>
      rw [List.length_cons] at h
      rw [List.map_cons, digitsText, if_neg (by omega), List.nil_append, zero_add_digitByte,
        ih (by omega), List.map_cons]

theorem digitsText_append {point : ℤ} {i : ℕ} (xs ys : List UInt8) :
    digitsText point i (xs ++ ys) =
      digitsText point i xs ++ digitsText point (i + xs.length) ys := by
  induction xs generalizing i with
  | nil => rfl
  | cons x xs ih =>
      rw [List.cons_append, digitsText, digitsText, ih, List.length_cons, List.append_assoc,
        List.cons_append, Nat.add_assoc, Nat.add_comm 1]

/-- The number whose text is written for the parts. -/
def writtenNumeral (isNegative : Bool) (point : ℤ) (ds : List (Fin 10)) : Numeral where
  isNegative := isNegative
  whole := if point.toNat = 0 then [zeroDigit]
    else ds.take point.toNat ++ List.replicate (point - ds.length).toNat zeroDigit
  fraction := if point.toNat = 0 then some (List.replicate (-point).toNat zeroDigit ++ ds)
    else if point.toNat < ds.length then some (ds.drop point.toNat) else none
  exponent := none

theorem writtenNumeral_front {isNegative : Bool} {point : ℤ} {ds : List (Fin 10)}
    (h : point ≤ 0) : writtenNumeral isNegative point ds =
      ⟨isNegative, [0], some (List.replicate (-point).toNat 0 ++ ds), none⟩ := by
  have hzero : point.toNat = 0 := by omega
  rw [writtenNumeral, if_pos hzero, if_pos hzero]

theorem writtenNumeral_inside {isNegative : Bool} {point : ℤ} {ds : List (Fin 10)}
    (h : 0 < point) (hinside : point < ds.length) : writtenNumeral isNegative point ds =
      ⟨isNegative, ds.take point.toNat, some (ds.drop point.toNat), none⟩ := by
  have hpos : ¬ point.toNat = 0 := by omega
  have htrail : (point - ds.length).toNat = 0 := by omega
  rw [writtenNumeral, if_neg hpos, if_neg hpos, if_pos (by omega), htrail, List.replicate_zero,
    List.append_nil]

theorem writtenNumeral_behind {isNegative : Bool} {point : ℤ} {ds : List (Fin 10)}
    (h : 0 < point) (hbehind : ds.length ≤ point) : writtenNumeral isNegative point ds =
      ⟨isNegative, ds ++ List.replicate (point - ds.length).toNat 0, none, none⟩ := by
  have hpos : ¬ point.toNat = 0 := by omega
  rw [writtenNumeral, if_neg hpos, if_neg hpos, if_neg (by omega),
    List.take_of_length_le (by omega)]

theorem text_writtenNumeral (isNegative : Bool) (point : ℤ) (ds : List (Fin 10)) :
    (writtenNumeral isNegative point ds).text =
      numberText ⟨isNegative, point, ds.map digitByte⟩ := by
  have hzero : digitChar 0 = 48 := by decide
  change _ = (if isNegative then [45] else []) ++
    (if point ≤ 0 then 48 :: 46 :: List.replicate (-point).toNat 48 else []) ++
    digitsText point 0 (ds.map digitByte) ++
    List.replicate (point - (ds.map digitByte).length).toNat 48
  rw [List.length_map]
  by_cases hfront : point ≤ 0
  · have htrail : (point - ds.length).toNat = 0 := by omega
    rw [if_pos hfront, digitsText_far ds (.inl hfront), htrail, writtenNumeral_front hfront]
    simp [Numeral.text, hzero]
  · rw [if_neg hfront]
    by_cases hinside : point < ds.length
    · have htrail : (point - ds.length).toNat = 0 := by omega
      have hsplit : ds.map digitByte =
          (ds.take point.toNat).map digitByte ++ (ds.drop point.toNat).map digitByte := by
        rw [← List.map_append, List.take_append_drop]
      have hlength : (ds.take point.toNat).length = point.toNat := by
        rw [List.length_take]
        omega
      obtain ⟨d, rest, hrest⟩ : ∃ d rest, ds.drop point.toNat = d :: rest :=
        List.exists_cons_of_ne_nil (List.ne_nil_of_length_pos (by rw [List.length_drop]; omega))
      have hpoint : digitsText point point.toNat ((d :: rest).map digitByte) =
          46 :: (d :: rest).map digitChar := by
        rw [List.map_cons, digitsText, if_pos (by omega), digitsText_far rest (by omega),
          zero_add_digitByte]
        rfl
      rw [hsplit, digitsText_append, List.length_map, hlength, Nat.zero_add, hrest, hpoint,
        digitsText_far _ (by omega), htrail, writtenNumeral_inside (by omega) hinside, hrest]
      simp [Numeral.text]
    · rw [digitsText_far ds (by omega), writtenNumeral_behind (by omega) (by omega)]
      simp [Numeral.text, hzero]

theorem dropWhile_replicate_append {α : Type} {p : α → Bool} {x : α} (hx : p x = true)
    {l : List α} (hl : ∀ y, l.head? = some y → p y = false) (k : ℕ) :
    (List.replicate k x ++ l).dropWhile p = l := by
  induction k with
  | zero =>
      cases l with
      | nil => rfl
      | cons y l => exact List.dropWhile_cons_of_neg (by simp [hl y rfl])
  | succ k ih =>
      rw [List.replicate_succ, List.cons_append, List.dropWhile_cons_of_pos hx, ih]

theorem takeWhile_replicate_append {α : Type} {p : α → Bool} {x : α} (hx : p x = true)
    {l : List α} (hl : ∀ y, l.head? = some y → p y = false) (k : ℕ) :
    (List.replicate k x ++ l).takeWhile p = List.replicate k x := by
  induction k with
  | zero =>
      cases l with
      | nil => rfl
      | cons y l => exact List.takeWhile_cons_of_neg (by simp [hl y rfl])
  | succ k ih =>
      rw [List.replicate_succ, List.cons_append, List.takeWhile_cons_of_pos hx, ih]

theorem stripTrailingZeros_append {digits : List UInt8} (h : digits.getLast? ≠ some 0) (k : ℕ) :
    stripTrailingZeros (digits ++ List.replicate k 0) = digits := by
  rw [stripTrailingZeros, List.rdropWhile, List.reverse_append, List.reverse_replicate,
    dropWhile_replicate_append (by decide), List.reverse_reverse]
  intro d hd
  rw [List.head?_reverse] at hd
  refine decide_eq_false fun hzero => h ?_
  rw [hd, hzero]

/-- Digits written with zeros around them are found again. -/
theorem parts_of_digits {n : Numeral} {ds : List (Fin 10)} {a k : ℕ}
    (hdigits : n.digits = List.replicate a 0 ++ (ds ++ List.replicate k 0)) (hne : ds ≠ [])
    (hhead : ds.head? ≠ some 0) (hlast : (ds.map digitByte).getLast? ≠ some 0) :
    n.parts = ⟨n.isNegative, n.whole.length - a + n.exponentValue, ds.map digitByte⟩ := by
  have hhead' : ∀ d, (ds ++ List.replicate k 0).head? = some d → decide (d = 0) = false := by
    intro d hd
    obtain ⟨e, ds, rfl⟩ := List.exists_cons_of_ne_nil hne
    cases hd
    exact decide_eq_false fun hzero => hhead (by rw [hzero]; rfl)
  have hdrop : n.digits.dropWhile (· = 0) = ds ++ List.replicate k 0 := by
    rw [hdigits]
    exact dropWhile_replicate_append rfl hhead' a
  have htake : n.digits.takeWhile (· = 0) = List.replicate a 0 := by
    rw [hdigits]
    exact takeWhile_replicate_append rfl hhead' a
  rw [Numeral.parts, leadingZeros_map, hdrop, htake, List.length_replicate, List.map_append,
    List.map_replicate]
  exact congrArg _ (stripTrailingZeros_append hlast k)

theorem parts_writtenNumeral {isNegative : Bool} {point : ℤ} {ds : List (Fin 10)}
    (hne : ds ≠ []) (hhead : ds.head? ≠ some 0) (hlast : (ds.map digitByte).getLast? ≠ some 0) :
    (writtenNumeral isNegative point ds).parts = ⟨isNegative, point, ds.map digitByte⟩ := by
  have hparts : ∀ {n : Numeral} {a k : ℕ}, n.isNegative = isNegative →
      n.digits = List.replicate a 0 ++ (ds ++ List.replicate k 0) →
      (n.whole.length : ℤ) - a + n.exponentValue = point →
      n.parts = ⟨isNegative, point, ds.map digitByte⟩ := by
    rintro n a k rfl hdigits rfl
    exact parts_of_digits hdigits hne hhead hlast
  by_cases hfront : point ≤ 0
  · rw [writtenNumeral_front hfront]
    refine hparts (a := (-point).toNat + 1) (k := 0) rfl ?_ ?_
    · simp [Numeral.digits, List.replicate_succ]
    · simp [Numeral.exponentValue]
      omega
  · by_cases hinside : point < ds.length
    · rw [writtenNumeral_inside (by omega) hinside]
      refine hparts (a := 0) (k := 0) rfl ?_ ?_
      · simp [Numeral.digits]
      · simp [Numeral.exponentValue]
        omega
    · rw [writtenNumeral_behind (by omega) (by omega)]
      refine hparts (a := 0) (k := (point - ds.length).toNat) rfl ?_ ?_
      · simp [Numeral.digits]
      · simp [Numeral.exponentValue]
        omega

/-- The text that is written for parts without zeros at their ends has these parts. -/
theorem exists_written {parts : NumberParts} (h : parts.Normal) (hne : parts.digits ≠ []) :
    ∃ n : Numeral, n.text = numberText parts ∧ n.parts = parts := by
  obtain ⟨ds, hds⟩ := exists_map_digitByte h.lt
  have hlast := h.last
  rw [hds] at hlast
  have hds' : ds ≠ [] := by
    rintro rfl
    exact hne hds
  have hhead : ds.head? ≠ some 0 := by
    intro hzero
    refine h.head ?_
    rw [hds, List.head?_map, hzero]
    rfl
  refine ⟨writtenNumeral parts.isNegative parts.decimalPointIndex ds, ?_, ?_⟩
  · rw [text_writtenNumeral, ← hds]
  · rw [parts_writtenNumeral hds' hhead hlast, ← hds]

theorem parse_numberText {parts : NumberParts} (h : parts.Normal) (hrange : parts.InRange)
    (hne : parts.digits ≠ []) : dpiUtilsParseNumberString (numberText parts) = .ok parts := by
  obtain ⟨n, htext, hparts⟩ := exists_written h hne
  refine (parse_number_eq_ok_iff _ _).mpr ⟨?_, ?_, n, htext, hparts, hrange⟩
  · refine List.ne_nil_of_length_pos ?_
    have hpos := List.length_pos_of_ne_nil hne
    rw [length_numberText, numberTextSize]
    omega
  · rw [length_numberText]
    exact numberTextSize_le hrange

/-- A text that is accepted gives bytes that give a text again, which has the same value and gives
the same bytes; a buffer of 172 bytes always has room for it. -/
theorem number_text_round_trip {text : List UInt8} {parts : NumberParts}
    (h : dpiUtilsParseNumberString text = .ok parts) (hshort : ¬ parts.Overlong) :
    ∃ length exponent source text',
      toOracleNumberFromText text = .ok (length :: exponent :: source) ∧
      fromOracleNumberAsText numberAsTextChars length exponent source = .ok text' ∧
      toOracleNumberFromText text' = .ok (length :: exponent :: source) ∧
      ∃ parts', dpiUtilsParseNumberString text' = .ok parts' ∧ parts'.value = parts.value := by
  obtain ⟨hnormal, hrange⟩ := accepted h
  obtain ⟨length, exponent, source, hwritten, hread⟩ := read_back hnormal hrange
  rw [if_neg hshort] at hread
  have hbytes : toOracleNumberFromText text = .ok (length :: exponent :: source) := by
    rw [toOracleNumberFromText_eq h, hwritten]
  by_cases hempty : parts.digits = []
  · rw [if_pos hempty] at hread
    have hzero : dpiUtilsParseNumberString [48] = .ok ⟨false, 0, []⟩ := rfl
    refine ⟨length, exponent, source, [48], hbytes, ?_, ?_, _, hzero, ?_⟩
    · rw [fromOracleNumberAsText, hread]
      rfl
    · rw [toOracleNumberFromText_eq hzero, ← hwritten, oracleNumberBytes_zero hempty]
      exact congrArg _ (oracleNumberBytes_zero rfl)
    · simp [NumberParts.value, hempty]
  · rw [if_neg hempty] at hread
    have hparse := parse_numberText hnormal hrange hempty
    refine ⟨length, exponent, source, numberText parts, hbytes, ?_, ?_, _, hparse, rfl⟩
    · rw [fromOracleNumberAsText, hread]
      exact if_neg (Nat.not_lt.mpr (numberTextSize_le hrange))
    · rw [toOracleNumberFromText_eq hparse, hwritten]

theorem number_text_round_trip_exponent : ∃ length exponent source text',
    toOracleNumberFromText [45, 49, 50, 46, 53, 48, 101, 49] =
      .ok (length :: exponent :: source) ∧
    fromOracleNumberAsText numberAsTextChars length exponent source = .ok text' ∧
    toOracleNumberFromText text' = .ok (length :: exponent :: source) ∧
    ∃ parts', dpiUtilsParseNumberString text' = .ok parts' ∧ parts'.value = -125 := by
  have hparse : dpiUtilsParseNumberString [45, 49, 50, 46, 53, 48, 101, 49] =
      .ok ⟨true, 3, [1, 2, 5]⟩ := rfl
  obtain ⟨length, exponent, source, text', hbytes, htext, hagain, parts', hparts', hvalue⟩ :=
    number_text_round_trip hparse (by decide)
  refine ⟨length, exponent, source, text', hbytes, htext, hagain, parts', hparts', ?_⟩
  have hdigits : [1, 2, 5].map UInt8.toNat = [1, 2, 5] := rfl
  rw [hvalue, NumberParts.value, hdigits]
  norm_num [Positional.value, Nat.ofDigits]

/-- The bytes of a number that is not zero show what it is, even when they are too many. -/
theorem oracleNumberBytes_injective {parts parts' : NumberParts} (h : parts.Normal)
    (h' : parts'.Normal) (hrange : parts.InRange) (hrange' : parts'.InRange)
    (hne : parts.digits ≠ []) (hne' : parts'.digits ≠ [])
    (hbytes : oracleNumberBytes parts = oracleNumberBytes parts') : parts = parts' := by
  obtain ⟨pairs, hpairs⟩ := NumberParts.exists_pairs h hne
  obtain ⟨pairs', hpairs'⟩ := NumberParts.exists_pairs h' hne'
  rw [NumberParts.oracleNumberBytes_eq hpairs hne, NumberParts.oracleNumberBytes_eq hpairs' hne',
    List.cons.injEq, List.cons.injEq] at hbytes
  obtain ⟨-, hexponent, hmantissa⟩ := hbytes
  obtain ⟨k, hk⟩ := NumberParts.evenPoint_eq hrange
  obtain ⟨k', hk'⟩ := NumberParts.evenPoint_eq hrange'
  obtain ⟨hsign, hpoint⟩ := NumberParts.exponentByte_inv parts.isNegative k
  obtain ⟨hsign', hpoint'⟩ := NumberParts.exponentByte_inv parts'.isNegative k'
  rw [← hk] at hsign hpoint
  rw [← hk'] at hsign' hpoint'
  have hnegative : parts.isNegative = parts'.isNegative := by
    rw [← hsign, ← hsign', hexponent]
  have heven : parts.evenPoint = parts'.evenPoint := by
    rw [← hpoint, ← hpoint', hexponent, hnegative]
  have hdrop := congrArg (dropSentinel parts.isNegative) hmantissa
  rw [NumberParts.dropSentinel_append hpairs.lt, hnegative,
    NumberParts.dropSentinel_append hpairs'.lt, ← hnegative] at hdrop
  have hlength := congrArg List.length hdrop
  rw [List.length_map, List.length_map] at hlength
  have hscan := hpairs.scan
  rw [hdrop, hlength, hnegative, hpairs'.scan, Prod.mk.injEq] at hscan
  obtain ⟨hdigits, hshift⟩ := hscan
  have hback : ∀ p : NumberParts, p.decimalPointIndex =
      p.evenPoint + if p.Odd then -1 else 0 := by
    intro p
    unfold NumberParts.evenPoint
    split <;> omega
  have hindex : parts.decimalPointIndex = parts'.decimalPointIndex := by
    rw [hback parts, hback parts', heven, hshift]
  rcases parts with ⟨isNegative, point, digits⟩
  rcases parts' with ⟨isNegative', point', digits'⟩
  cases hnegative
  cases hindex
  cases hdigits
  rfl

theorem value_eq_zero_of_empty {parts : NumberParts} (h : parts.digits = []) :
    parts.value = 0 := by
  simp [NumberParts.value, h]

/-- A number that is not zero has the sign of its parts. -/
theorem value_sign {parts : NumberParts} (h : parts.Normal) (hne : parts.digits ≠ []) :
    if parts.isNegative then parts.value < 0 else 0 < parts.value := by
  have hpos : 0 < Positional.value 10 (parts.digits.map UInt8.toNat) parts.decimalPointIndex :=
    Positional.Normal.value_pos (by decide) h (by simpa using hne)
  cases hsign : parts.isNegative <;> simp [NumberParts.value, hsign, hpos]

theorem parts_eq_of_value {parts parts' : NumberParts} (h : parts.Normal) (h' : parts'.Normal)
    (hne : parts.digits ≠ []) (hne' : parts'.digits ≠ [])
    (hvalue : parts.value = parts'.value) : parts = parts' := by
  have hsign := value_sign h hne
  have hsign' := value_sign h' hne'
  rcases parts with ⟨isNegative, point, digits⟩
  rcases parts' with ⟨isNegative', point', digits'⟩
  have hnegative : isNegative = isNegative' := by
    rw [hvalue] at hsign
    cases isNegative <;> cases isNegative' <;> simp at hsign hsign' ⊢ <;> linarith
  subst hnegative
  have hmagnitude : Positional.value 10 (digits.map UInt8.toNat) point =
      Positional.value 10 (digits'.map UInt8.toNat) point' := by
    cases isNegative <;> simpa [NumberParts.value] using hvalue
  obtain ⟨hdigits, rfl⟩ := Positional.Normal.value_injective (by decide) h h'
    (by simpa using hne) hmagnitude
  have hsame : digits = digits' :=
    List.map_injective_iff.mpr (fun _ _ heq => UInt8.toNat_inj.mp heq) hdigits
  rw [hsame]

theorem length_oracleNumberBytes_gt {parts : NumberParts} (h : parts.Normal)
    (hne : parts.digits ≠ []) : 2 < (oracleNumberBytes parts).length := by
  obtain ⟨pairs, hpairs⟩ := NumberParts.exists_pairs h hne
  have hpos := hpairs.length_pos hne
  rw [NumberParts.length_oracleNumberBytes hpairs hne]
  omega

/-- Two texts are turned into the same bytes exactly when they stand for the same number. -/
theorem number_bytes_eq_iff {text text' : List UInt8} {parts parts' : NumberParts}
    (h : dpiUtilsParseNumberString text = .ok parts)
    (h' : dpiUtilsParseNumberString text' = .ok parts') :
    toOracleNumberFromText text = toOracleNumberFromText text' ↔ parts.value = parts'.value := by
  obtain ⟨hnormal, hrange⟩ := accepted h
  obtain ⟨hnormal', hrange'⟩ := accepted h'
  rw [toOracleNumberFromText_eq h, toOracleNumberFromText_eq h', Except.ok.injEq]
  by_cases hempty : parts.digits = []
  · by_cases hempty' : parts'.digits = []
    · rw [oracleNumberBytes_zero hempty, oracleNumberBytes_zero hempty',
        value_eq_zero_of_empty hempty, value_eq_zero_of_empty hempty']
      exact iff_of_true rfl rfl
    · have hlength := length_oracleNumberBytes_gt hnormal' hempty'
      have hsign := value_sign hnormal' hempty'
      refine iff_of_false (fun hbytes => ?_) fun hvalue => ?_
      · rw [← hbytes, oracleNumberBytes_zero hempty] at hlength
        exact absurd hlength (by decide)
      · rw [← hvalue, value_eq_zero_of_empty hempty] at hsign
        simp at hsign
  · by_cases hempty' : parts'.digits = []
    · have hlength := length_oracleNumberBytes_gt hnormal hempty
      have hsign := value_sign hnormal hempty
      refine iff_of_false (fun hbytes => ?_) fun hvalue => ?_
      · rw [hbytes, oracleNumberBytes_zero hempty'] at hlength
        exact absurd hlength (by decide)
      · rw [hvalue, value_eq_zero_of_empty hempty'] at hsign
        simp at hsign
    · constructor
      · intro hbytes
        rw [oracleNumberBytes_injective hnormal hnormal' hrange hrange' hempty hempty' hbytes]
      · intro hvalue
        rw [parts_eq_of_value hnormal hnormal' hempty hempty' hvalue]

theorem number_bytes_eq_iff_fraction :
    toOracleNumberFromText [49, 46, 48] = toOracleNumberFromText [49] := by
  have hparse : dpiUtilsParseNumberString [49, 46, 48] = .ok ⟨false, 1, [1]⟩ := rfl
  have hparse' : dpiUtilsParseNumberString [49] = .ok ⟨false, 1, [1]⟩ := rfl
  exact (number_bytes_eq_iff hparse hparse').mpr rfl

end IdrisOracle
