import IdrisOracle.OracleNumber
import IdrisOracle.Positional

/-! The texts that are taken for a number, and the number that each of them stands for. -/

namespace IdrisOracle

open Positional

abbrev zeroDigit : Fin 10 := 0

def digitByte (d : Fin 10) : UInt8 := UInt8.ofNat d

def digitChar (d : Fin 10) : UInt8 := UInt8.ofNat (48 + d)

/-- An exponent as it is written, with one to three digits. -/
structure NumeralExponent where
  upper : Bool
  sign : Option Bool
  digits : List (Fin 10)
  length_pos : 0 < digits.length
  length_le : digits.length ≤ 3

/-- A number as it is written. -/
structure Numeral where
  isNegative : Bool
  whole : List (Fin 10)
  fraction : Option (List (Fin 10))
  exponent : Option NumeralExponent

/-- The natural number that digits stand for. -/
def natValue (digits : List (Fin 10)) : ℕ := Nat.ofDigits 10 (digits.map Fin.val).reverse

def signText : Option Bool → List UInt8
  | none => []
  | some true => [45]
  | some false => [43]

namespace NumeralExponent

def text (e : NumeralExponent) : List UInt8 :=
  (if e.upper then 69 else 101) :: (signText e.sign ++ e.digits.map digitChar)

def value (e : NumeralExponent) : ℤ :=
  if e.sign = some true then -(natValue e.digits : ℤ) else natValue e.digits

end NumeralExponent

namespace Numeral

def text (n : Numeral) : List UInt8 :=
  (if n.isNegative then [45] else []) ++ n.whole.map digitChar ++
    n.fraction.elim [] (fun fraction => 46 :: fraction.map digitChar) ++
    n.exponent.elim [] NumeralExponent.text

def digits (n : Numeral) : List (Fin 10) := n.whole ++ n.fraction.getD []

def exponentValue (n : Numeral) : ℤ := n.exponent.elim 0 NumeralExponent.value

/-- The number that a text stands for. -/
def value (n : Numeral) : ℚ :=
  (if n.isNegative then -1 else 1) *
    Positional.value 10 (n.digits.map Fin.val) (n.whole.length + n.exponentValue)

/-- The parts of a number, with the zeros at both ends left out. -/
def parts (n : Numeral) : NumberParts where
  isNegative := n.isNegative
  decimalPointIndex := n.whole.length - leadingZeros (n.digits.map Fin.val) + n.exponentValue
  digits := stripTrailingZeros ((n.digits.dropWhile (· = 0)).map digitByte)

end Numeral

/-- The number that the parts stand for. -/
def NumberParts.value (parts : NumberParts) : ℚ :=
  (if parts.isNegative then -1 else 1) *
    Positional.value 10 (parts.digits.map UInt8.toNat) parts.decimalPointIndex

/-- The digits of the parts have no zeros at their ends. -/
def NumberParts.Normal (parts : NumberParts) : Prop :=
  Positional.Normal 10 (parts.digits.map UInt8.toNat)

@[simp] theorem toNat_digitByte (d : Fin 10) : (digitByte d).toNat = d := by
  revert d
  decide

theorem digitChar_sub (d : Fin 10) : digitChar d - 48 = digitByte d := by
  revert d
  decide

theorem isDigitChar_digitChar (d : Fin 10) : isDigitChar (digitChar d) = true := by
  revert d
  decide

theorem digitChar_eq_zero_iff (d : Fin 10) : digitChar d = 48 ↔ d = 0 := by
  revert d
  decide

theorem exists_digitChar {c : UInt8} (h : isDigitChar c = true) : ∃ d, c = digitChar d := by
  obtain ⟨hle, hge⟩ : 48 ≤ c ∧ c ≤ 57 := of_decide_eq_true h
  have hle' : 48 ≤ c.toNat := hle
  have hge' : c.toNat ≤ 57 := hge
  refine ⟨⟨c.toNat - 48, by omega⟩, ?_⟩
  rw [digitChar, Nat.add_sub_cancel' hle', UInt8.ofNat_toNat]

theorem parses_bind {α β : Type} {m : Parses α} {f : α → Parses β} {b : β} :
    m >>= f = .ok b ↔ ∃ a, m = .ok a ∧ f a = .ok b := by
  cases m with
  | error e =>
      constructor
      · intro h
        cases h
      · rintro ⟨a, h, -⟩
        cases h
  | ok a =>
      constructor
      · exact fun h => ⟨a, rfl, h⟩
      · rintro ⟨a', ha, h⟩
        cases ha
        exact h

/-- A text at which a scan stops. -/
def Stops (stop : UInt8 → Bool) (rest : List UInt8) : Prop :=
  ∀ c rest', rest = c :: rest' → stop c = true

/-- What a scan makes of digits. -/
def absorbed (digits : List UInt8) (skipped : Nat) (ds : List (Fin 10)) (rest : List UInt8) :
    DigitScan :=
  if digits = [] then
    ⟨(ds.dropWhile (· = 0)).map digitByte, skipped + (ds.takeWhile (· = 0)).length, rest⟩
  else ⟨digits ++ ds.map digitByte, skipped, rest⟩

theorem scanDigits_map {stop : UInt8 → Bool} (hstop : ∀ d, stop (digitChar d) = false)
    {rest : List UInt8} (hrest : Stops stop rest) (ds : List (Fin 10)) (digits : List UInt8)
    (skipped : Nat) :
    scanDigits stop digits skipped (ds.map digitChar ++ rest) =
      .ok (absorbed digits skipped ds rest) := by
  induction ds generalizing digits skipped with
  | nil =>
      have hend : scanDigits stop digits skipped rest = .ok ⟨digits, skipped, rest⟩ := by
        cases rest with
        | nil => rfl
        | cons c rest => rw [scanDigits, if_pos (hrest c rest rfl)]
      rw [List.map_nil, List.nil_append, hend, absorbed]
      by_cases hempty : digits = [] <;> simp [hempty]
  | cons d ds ih =>
      rw [List.map_cons, List.cons_append, scanDigits, if_neg (by simp [hstop]),
        if_neg (by simp [isDigitChar_digitChar]), digitChar_sub, ih, ih]
      by_cases hzero : d = 0 <;> by_cases hempty : digits = [] <;>
        simp [absorbed, digitChar_eq_zero_iff, hzero, hempty, Nat.add_assoc, Nat.add_comm]

/-- A scan goes over digits only. -/
theorem scanDigits_ok {stop : UInt8 → Bool} {text digits : List UInt8} {skipped : Nat}
    {scan : DigitScan} (h : scanDigits stop digits skipped text = .ok scan) :
    Stops stop scan.rest ∧ ∃ ds : List (Fin 10), text = ds.map digitChar ++ scan.rest := by
  induction text generalizing digits skipped with
  | nil =>
      cases h
      exact ⟨fun _ _ h => absurd h (List.cons_ne_nil _ _).symm, [], rfl⟩
  | cons c text ih =>
      rw [scanDigits] at h
      by_cases hstop : stop c = true
      · rw [if_pos hstop] at h
        cases h
        refine ⟨fun _ _ h => ?_, [], rfl⟩
        cases h
        exact hstop
      · rw [if_neg hstop] at h
        by_cases hdigit : isDigitChar c = false
        · rw [if_pos hdigit] at h
          cases h
        · rw [if_neg hdigit] at h
          obtain ⟨d, rfl⟩ := exists_digitChar (by simpa using hdigit)
          have hrest : Stops stop scan.rest ∧
              ∃ ds : List (Fin 10), text = ds.map digitChar ++ scan.rest := by
            split at h
            · exact ih h
            · exact ih h
          obtain ⟨hstops, ds, rfl⟩ := hrest
          exact ⟨hstops, d :: ds, rfl⟩

theorem scanExponent_map (ds : List (Fin 10)) (digits : List UInt8)
    (h : digits.length + ds.length ≤ 3) :
    scanExponent digits (ds.map digitChar) = .ok (digits ++ ds.map digitChar) := by
  induction ds generalizing digits with
  | nil => rw [List.map_nil, scanExponent, List.append_nil]
  | cons d ds ih =>
      rw [List.length_cons] at h
      rw [List.map_cons, scanExponent, if_neg (by simp [isDigitChar_digitChar]),
        if_neg (by omega), ih _ (by simp; omega), List.append_assoc]
      rfl

theorem scanExponent_ok {text digits digits' : List UInt8} (hdigits : digits.length ≤ 3)
    (h : scanExponent digits text = .ok digits') :
    ∃ ds : List (Fin 10), text = ds.map digitChar ∧ digits' = digits ++ text ∧
      digits.length + ds.length ≤ 3 := by
  induction text generalizing digits with
  | nil =>
      cases h
      exact ⟨[], rfl, (List.append_nil _).symm, hdigits⟩
  | cons c text ih =>
      rw [scanExponent] at h
      by_cases hdigit : isDigitChar c = false
      · rw [if_pos hdigit] at h
        cases h
      · rw [if_neg hdigit] at h
        by_cases hfull : digits.length = 3
        · rw [if_pos hfull] at h
          cases h
        · rw [if_neg hfull] at h
          obtain ⟨d, rfl⟩ := exists_digitChar (by simpa using hdigit)
          have hlength : (digits ++ [digitChar d]).length = digits.length + 1 := by simp
          obtain ⟨ds, rfl, rfl, hle⟩ := ih (by omega) h
          refine ⟨d :: ds, rfl, by simp, ?_⟩
          rw [List.length_cons]
          omega

theorem strtolDigits_go (ds : List (Fin 10)) (n : ℤ) :
    (ds.map digitChar).foldl (fun n c => n * 10 + (c.toNat - 48 : ℤ)) n =
      n * 10 ^ ds.length + natValue ds := by
  induction ds generalizing n with
  | nil => simp [natValue]
  | cons d ds ih =>
      have hd : ((digitChar d).toNat : ℤ) - 48 = (d : ℕ) := by
        revert d
        decide
      rw [List.map_cons, List.foldl_cons, ih, hd, natValue, natValue, List.map_cons,
        Nat.ofDigits_reverse_cons, List.length_cons, List.length_map]
      push_cast
      ring

theorem strtolDigits_map (ds : List (Fin 10)) :
    strtolDigits (ds.map digitChar) = natValue ds := by
  rw [strtolDigits, strtolDigits_go, zero_mul, zero_add]

theorem exponentSign_text (sign : Option Bool) {ds : List (Fin 10)} (hds : ds ≠ []) :
    exponentSign (signText sign ++ ds.map digitChar) =
      (decide (sign = some true), ds.map digitChar) := by
  cases sign with
  | none =>
      obtain ⟨d, ds, rfl⟩ := List.exists_cons_of_ne_nil hds
      have hsign : ∀ d : Fin 10, ¬ (digitChar d = 43 ∨ digitChar d = 45) := by decide
      simp [signText, exponentSign, hsign d]
  | some negative => cases negative <;> simp [signText, exponentSign]

/-- Every text has a sign before the rest, be it an empty one. -/
theorem exponentSign_split (text : List UInt8) : ∃ sign rest, text = signText sign ++ rest ∧
    exponentSign text = (decide (sign = some true), rest) := by
  cases text with
  | nil => exact ⟨none, [], rfl, rfl⟩
  | cons c rest =>
      by_cases hplus : c = 43
      · subst hplus
        exact ⟨some false, rest, rfl, rfl⟩
      · by_cases hminus : c = 45
        · subst hminus
          exact ⟨some true, rest, rfl, rfl⟩
        · exact ⟨none, c :: rest, rfl, by simp [exponentSign, hplus, hminus]⟩

theorem parseExponent_eq_ok_iff {text : List UInt8} {exponent : ℤ} :
    parseExponent text = .ok exponent ↔
      ∃ e : NumeralExponent, text = signText e.sign ++ e.digits.map digitChar ∧
        exponent = e.value := by
  constructor
  · intro h
    obtain ⟨sign, rest, rfl, hsign⟩ := exponentSign_split text
    rw [parseExponent, hsign] at h
    obtain ⟨digits, hdigits, h⟩ := parses_bind.mp h
    obtain ⟨ds, rfl, rfl, hlength⟩ := scanExponent_ok (by simp) hdigits
    rw [List.length_nil, Nat.zero_add] at hlength
    rw [List.nil_append] at h
    by_cases hempty : ds = []
    · subst hempty
      cases h
    · rw [if_neg (by simpa using hempty)] at h
      refine ⟨⟨false, sign, ds, List.length_pos_of_ne_nil hempty, hlength⟩, rfl, ?_⟩
      · cases h
        rw [NumeralExponent.value, strtolDigits_map]
        by_cases hnegative : sign = some true <;> simp [hnegative]
  · rintro ⟨e, rfl, rfl⟩
    have hne : e.digits ≠ [] := List.ne_nil_of_length_pos e.length_pos
    rw [parseExponent, exponentSign_text e.sign hne]
    refine parses_bind.mpr ⟨e.digits.map digitChar, ?_, ?_⟩
    · rw [scanExponent_map _ _ (by simpa using e.length_le), List.nil_append]
    · rw [if_neg (by simpa using hne), NumeralExponent.value, strtolDigits_map]
      by_cases hnegative : e.sign = some true <;> simp [hnegative] <;> rfl

theorem scanTail_eq_ok_iff {text : List UInt8} {exponent : ℤ} :
    scanTail text = .ok exponent ↔
      ∃ e : Option NumeralExponent, text = e.elim [] NumeralExponent.text ∧
        exponent = e.elim 0 NumeralExponent.value := by
  constructor
  · intro h
    cases text with
    | nil =>
        cases h
        exact ⟨none, rfl, rfl⟩
    | cons c rest =>
        rw [scanTail] at h
        by_cases hc : isExponentChar c = true
        · rw [if_pos hc] at h
          obtain ⟨e, rfl, rfl⟩ := parseExponent_eq_ok_iff.mp h
          refine ⟨some { e with upper := decide (c = 69) }, ?_, rfl⟩
          rcases of_decide_eq_true hc with rfl | rfl <;> rfl
        · rw [if_neg hc] at h
          cases h
  · rintro ⟨e, rfl, rfl⟩
    cases e with
    | none => rfl
    | some e =>
        have hc : isExponentChar (if e.upper then 69 else 101) = true := by
          cases e.upper <;> rfl
        change scanTail (NumeralExponent.text e) = .ok e.value
        rw [NumeralExponent.text, scanTail, if_pos hc]
        exact parseExponent_eq_ok_iff.mpr ⟨e, rfl, rfl⟩

theorem numberSign_text {isNegative : Bool} {text : List UInt8} (h : text.head? ≠ some 45) :
    numberSign ((if isNegative then [45] else []) ++ text) = (isNegative, text) := by
  cases isNegative with
  | true => rfl
  | false =>
      cases text with
      | nil => rfl
      | cons c rest => simpa [numberSign] using h

theorem numberSign_split (text : List UInt8) :
    ∃ isNegative rest, text = (if isNegative then [45] else []) ++ rest ∧
      numberSign text = (isNegative, rest) := by
  cases text with
  | nil => exact ⟨false, [], rfl, rfl⟩
  | cons c rest =>
      by_cases hminus : c = 45
      · subst hminus
        exact ⟨true, rest, rfl, rfl⟩
      · exact ⟨false, c :: rest, rfl, by simp [numberSign, hminus]⟩

theorem leadingZeros_map (ds : List (Fin 10)) :
    leadingZeros (ds.map Fin.val) = (ds.takeWhile (· = 0)).length := by
  rw [leadingZeros, List.takeWhile_map, List.length_map]
  congr 2
  funext d
  exact decide_eq_decide.mpr Fin.val_eq_zero_iff

theorem length_takeWhile_add_dropWhile (ds : List (Fin 10)) :
    (ds.takeWhile (· = 0)).length + (ds.dropWhile (· = 0)).length = ds.length := by
  rw [← List.length_append, List.takeWhile_append_dropWhile]

/-- The digits of the whole part and of the fraction, as the two scans find them. -/
theorem absorbed_absorbed (whole fraction : List (Fin 10)) (rest rest' : List UInt8) :
    let scan := absorbed [] 0 whole rest
    let scan' := absorbed scan.digits 0 fraction rest'
    scan'.digits = ((whole ++ fraction).dropWhile (· = 0)).map digitByte ∧
      (scan.digits.length - scan'.skipped : ℤ) =
        whole.length - leadingZeros ((whole ++ fraction).map Fin.val) := by
  have hlength := length_takeWhile_add_dropWhile whole
  rw [leadingZeros_map, List.dropWhile_append, List.takeWhile_append]
  by_cases hempty : whole.dropWhile (· = 0) = []
  · rw [hempty, List.length_nil, Nat.add_zero] at hlength
    simp [absorbed, hempty, hlength]
  · have hpos := List.length_pos_of_ne_nil hempty
    have hlt : ¬ (whole.takeWhile (· = 0)).length = whole.length := by omega
    refine ⟨by simp [absorbed, hempty], ?_⟩
    simp only [absorbed, hlt, List.map_eq_nil_iff, hempty, if_true, if_false, List.length_map]
    omega

/-- What comes after the whole part of a number. -/
def tailText (fraction : Option (List (Fin 10))) (exponent : Option NumeralExponent) :
    List UInt8 :=
  fraction.elim [] (fun fraction => 46 :: fraction.map digitChar) ++
    exponent.elim [] NumeralExponent.text

theorem stops_exponent (exponent : Option NumeralExponent) :
    Stops isExponentChar (exponent.elim [] NumeralExponent.text) := by
  intro c rest h
  cases exponent with
  | none => cases h
  | some e =>
      cases h
      cases e.upper <;> rfl

theorem stops_tail (fraction : Option (List (Fin 10))) (exponent : Option NumeralExponent) :
    Stops (fun c => c = 46 || isExponentChar c) (tailText fraction exponent) := by
  intro c rest h
  cases fraction with
  | none => simp [stops_exponent exponent c rest h]
  | some fraction =>
      cases h
      rfl

theorem absorbed_nil (digits : List UInt8) (skipped : Nat) (rest : List UInt8) :
    absorbed digits skipped [] rest = ⟨digits, skipped, rest⟩ := by
  by_cases hempty : digits = [] <;> simp [absorbed, hempty]

theorem absorbed_rest (digits : List UInt8) (skipped : Nat) (ds : List (Fin 10))
    (rest : List UInt8) : (absorbed digits skipped ds rest).rest = rest := by
  by_cases hempty : digits = [] <;> simp [absorbed, hempty]

theorem scanFraction_whole {scan : DigitScan} (h : ∀ rest, scan.rest ≠ 46 :: rest) :
    scanFraction scan = .ok (scan, scan.digits.length) := by
  rw [scanFraction]
  cases hrest : scan.rest with
  | nil => rfl
  | cons c rest =>
      have hpoint : c ≠ 46 := by
        rintro rfl
        exact h rest hrest
      exact if_neg hpoint

theorem scanFraction_point {scan scan' : DigitScan} {rest : List UInt8}
    (h : scan.rest = 46 :: rest)
    (hscan : scanDigits isExponentChar scan.digits 0 rest = .ok scan') :
    scanFraction scan = .ok (scan', scan.digits.length - scan'.skipped) := by
  rw [scanFraction, h]
  exact parses_bind.mpr ⟨scan', hscan, rfl⟩

theorem scanFraction_tail (whole : List (Fin 10)) (fraction : Option (List (Fin 10)))
    (exponent : Option NumeralExponent) :
    ∃ scan, scanFraction (absorbed [] 0 whole (tailText fraction exponent)) = .ok (scan,
        whole.length - leadingZeros ((whole ++ fraction.getD []).map Fin.val)) ∧
      scan.digits = ((whole ++ fraction.getD []).dropWhile (· = 0)).map digitByte ∧
      scan.rest = exponent.elim [] NumeralExponent.text := by
  obtain ⟨hdigits, hpoint⟩ := absorbed_absorbed whole (fraction.getD [])
    (tailText fraction exponent) (exponent.elim [] NumeralExponent.text)
  cases fraction with
  | none =>
      rw [Option.getD_none, absorbed_nil] at hdigits hpoint
      refine ⟨absorbed [] 0 whole (tailText none exponent), ?_, hdigits, absorbed_rest _ _ _ _⟩
      rw [Option.getD_none, ← hpoint, scanFraction_whole, Nat.cast_zero, sub_zero]
      intro rest hrest
      rw [absorbed_rest] at hrest
      cases stops_exponent exponent 46 rest hrest
  | some fraction =>
      refine ⟨_, ?_, hdigits, absorbed_rest _ _ _ _⟩
      rw [← hpoint]
      refine scanFraction_point (absorbed_rest _ _ _ _) ?_
      exact scanDigits_map (by decide) (stops_exponent exponent) fraction _ 0

/-- The text of a number begins with its sign, and only with that. -/
theorem head?_unsigned (whole : List (Fin 10)) (fraction : Option (List (Fin 10)))
    (exponent : Option NumeralExponent) :
    (whole.map digitChar ++ tailText fraction exponent).head? ≠ some 45 := by
  cases whole with
  | nil =>
      cases fraction with
      | none =>
          cases exponent with
          | none => simp [tailText]
          | some e =>
              cases hupper : e.upper <;>
                simp [tailText, NumeralExponent.text, hupper]
      | some fraction => simp [tailText]
  | cons d whole =>
      have hdigit : ∀ d : Fin 10, digitChar d ≠ 45 := by decide
      simpa using hdigit d

theorem Numeral.text_eq (n : Numeral) : n.text = (if n.isNegative then [45] else []) ++
    (n.whole.map digitChar ++ tailText n.fraction n.exponent) := by
  simp [Numeral.text, tailText]

/-- The parser takes the text of a number if its parts are in range. -/
theorem parse_numeral {n : Numeral} (hne : n.text ≠ [])
    (hlength : n.text.length ≤ numberAsTextChars) :
    dpiUtilsParseNumberString n.text =
      if n.parts.InRange then .ok n.parts else .error .numberNoRepr := by
  obtain ⟨scan, hscan, hdigits, hrest⟩ := scanFraction_tail n.whole n.fraction n.exponent
  have hsign : numberSign n.text = (n.isNegative,
      n.whole.map digitChar ++ tailText n.fraction n.exponent) := by
    rw [n.text_eq]
    exact numberSign_text (head?_unsigned _ _ _)
  have hparts : (⟨n.isNegative, n.whole.length - leadingZeros (n.digits.map Fin.val) +
      n.exponentValue, stripTrailingZeros scan.digits⟩ : NumberParts) = n.parts := by
    rw [hdigits]
    rfl
  have hwhole : scanDigits (fun c => c = 46 || isExponentChar c) [] 0
      (n.whole.map digitChar ++ tailText n.fraction n.exponent) =
      .ok (absorbed [] 0 n.whole (tailText n.fraction n.exponent)) :=
    scanDigits_map (by decide) (stops_tail _ _) _ _ _
  have htail : scanTail scan.rest = .ok n.exponentValue :=
    scanTail_eq_ok_iff.mpr ⟨n.exponent, hrest, rfl⟩
  rw [dpiUtilsParseNumberString, if_neg hne, if_neg (Nat.not_lt.mpr hlength), hsign]
  dsimp only
  rw [hwhole]
  change (scanFraction _ >>= _) = _
  rw [hscan]
  change (scanTail _ >>= _) = _
  rw [htail]
  change (if NumberParts.InRange ⟨_, _, _⟩ then _ else _) = _
  rw [← hparts]
  rfl

theorem exists_fraction {scan : DigitScan} {result : DigitScan × ℤ}
    (h : scanFraction scan = .ok result) :
    ∃ fraction : Option (List (Fin 10)),
      scan.rest = fraction.elim [] (fun fraction => 46 :: fraction.map digitChar) ++
        result.1.rest := by
  by_cases hpoint : ∃ rest, scan.rest = 46 :: rest
  · obtain ⟨rest, hrest⟩ := hpoint
    rw [scanFraction, hrest] at h
    obtain ⟨scan', hscan, h⟩ := parses_bind.mp h
    cases h
    obtain ⟨-, ds, rfl⟩ := scanDigits_ok hscan
    exact ⟨some ds, hrest⟩
  · rw [scanFraction_whole (not_exists.mp hpoint)] at h
    cases h
    exact ⟨none, rfl⟩

/-- Whatever the parser takes is the text of a number. -/
theorem exists_numeral {text : List UInt8} {parts : NumberParts}
    (h : dpiUtilsParseNumberString text = .ok parts) :
    text ≠ [] ∧ text.length ≤ numberAsTextChars ∧ ∃ n : Numeral, n.text = text := by
  rw [dpiUtilsParseNumberString] at h
  by_cases hne : text = []
  · rw [if_pos hne] at h
    cases h
  rw [if_neg hne] at h
  by_cases hlength : numberAsTextChars < text.length
  · rw [if_pos hlength] at h
    cases h
  rw [if_neg hlength] at h
  refine ⟨hne, Nat.not_lt.mp hlength, ?_⟩
  obtain ⟨isNegative, rest, rfl, hsign⟩ := numberSign_split text
  rw [hsign] at h
  obtain ⟨scan, hscan, hafter⟩ := parses_bind.mp h
  obtain ⟨-, whole, rfl⟩ := scanDigits_ok hscan
  obtain ⟨result, hresult, hlast⟩ := parses_bind.mp hafter
  obtain ⟨fraction, hfraction⟩ := exists_fraction hresult
  obtain ⟨exponent, hexponent, -⟩ := parses_bind.mp hlast
  obtain ⟨e, he, -⟩ := scanTail_eq_ok_iff.mp hexponent
  refine ⟨⟨isNegative, whole, fraction, e⟩, ?_⟩
  rw [Numeral.text_eq, hfraction, he, tailText]

theorem parse_number_eq_ok_iff (text : List UInt8) (parts : NumberParts) :
    dpiUtilsParseNumberString text = .ok parts ↔
      text ≠ [] ∧ text.length ≤ numberAsTextChars ∧
        ∃ n : Numeral, n.text = text ∧ n.parts = parts ∧ parts.InRange := by
  constructor
  · intro h
    obtain ⟨hne, hlength, n, rfl⟩ := exists_numeral h
    rw [parse_numeral hne hlength] at h
    by_cases hrange : n.parts.InRange
    · rw [if_pos hrange] at h
      cases h
      exact ⟨hne, hlength, n, rfl, rfl, hrange⟩
    · rw [if_neg hrange] at h
      cases h
  · rintro ⟨hne, hlength, n, rfl, rfl, hrange⟩
    rw [parse_numeral hne hlength, if_pos hrange]

theorem rdropWhile_map {α β : Type} (f : α → β) (p : β → Bool) (l : List α) :
    (l.map f).rdropWhile p = (l.rdropWhile (p ∘ f)).map f := by
  rw [List.rdropWhile, List.rdropWhile, ← List.map_reverse, List.dropWhile_map, List.map_reverse]

theorem map_toNat_stripTrailingZeros (digits : List UInt8) :
    (stripTrailingZeros digits).map UInt8.toNat =
      (digits.map UInt8.toNat).rdropWhile (· = 0) := by
  rw [rdropWhile_map, stripTrailingZeros]
  congr 2
  funext d
  exact decide_eq_decide.mpr UInt8.toNat_inj.symm

theorem Numeral.digits_parts (n : Numeral) :
    n.parts.digits.map UInt8.toNat = trim (n.digits.map Fin.val) := by
  have hdrop : (n.digits.map Fin.val).dropWhile (· = 0) =
      (n.digits.dropWhile (· = 0)).map Fin.val := by
    rw [List.dropWhile_map]
    congr 2
    funext d
    exact decide_eq_decide.mpr Fin.val_eq_zero_iff
  rw [parts, map_toNat_stripTrailingZeros, trim, hdrop, List.map_map]
  congr 2
  funext d
  exact toNat_digitByte d

theorem Numeral.normal_parts (n : Numeral) : n.parts.Normal := by
  rw [NumberParts.Normal, n.digits_parts]
  refine normal_trim fun d hd => ?_
  obtain ⟨digit, -, rfl⟩ := List.mem_map.mp hd
  exact digit.isLt

/-- The parts of a number stand for what its text stands for. -/
theorem Numeral.value_parts (n : Numeral) : n.parts.value = n.value := by
  have hpoint : (n.whole.length - leadingZeros (n.digits.map Fin.val) + n.exponentValue : ℤ) =
      n.whole.length + n.exponentValue - leadingZeros (n.digits.map Fin.val) := by ring
  rw [NumberParts.value, n.digits_parts, Numeral.value]
  change _ * Positional.value 10 _ (n.whole.length - leadingZeros _ + n.exponentValue) = _
  rw [hpoint, value_trim (by decide)]
  rfl

/-- The texts that are taken for a number: a sign, digits, a point and digits, an exponent of at
most three digits, each of which may be left out, of at most 172 characters. What the parser
gives stands for the same number and has no zeros at its ends. -/
theorem number_text_accepted_iff (text : List UInt8) (parts : NumberParts) :
    dpiUtilsParseNumberString text = .ok parts ↔
      text ≠ [] ∧ text.length ≤ numberAsTextChars ∧ parts.InRange ∧ parts.Normal ∧
        ∃ n : Numeral, n.text = text ∧ n.parts = parts ∧ n.value = parts.value := by
  rw [parse_number_eq_ok_iff]
  constructor
  · rintro ⟨hne, hlength, n, rfl, rfl, hrange⟩
    exact ⟨hne, hlength, hrange, n.normal_parts, n, rfl, rfl, n.value_parts.symm⟩
  · rintro ⟨hne, hlength, hrange, -, n, rfl, rfl, -⟩
    exact ⟨hne, hlength, n, rfl, rfl, hrange⟩

end IdrisOracle
