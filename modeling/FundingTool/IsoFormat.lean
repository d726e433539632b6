import FundingTool.AccountHistory

/-!
# Datetimes as text

`isoformat` of a datetime, with its microseconds where they are not zero and the offset of its
zone where it has one, and a reader of what it writes.  `readIso_isoformat` is what the exports
rest on, and the stores, which keep their times as such texts, in UTC: a time is found again from
its text.  `readTime_timeText` is about every zone: the offset is found again, too.
-/

namespace FundingTool.IsoFormat

open FundingTool.AccountHistory
open FundingTool.Backtest (DateTime)

/-! ## 1. Writing -/

/-- `"%02d" % n` -/
def two (n : Nat) : List Char := [digit (n / 10), digit n]

/-- The time of day, from microseconds since midnight. -/
def clockText (micros : Nat) : List Char :=
  two (micros / 3600000000) ++ ':' :: two (micros / 60000000 % 60) ++ ':' ::
    two (micros / 1000000 % 60)

/-- `"%06d" % micros`, behind a point, or nothing. -/
def fractionText (micros : Nat) : List Char :=
  if micros = 0 then []
  else '.' :: (two (micros / 10000) ++ two (micros / 100 % 100) ++ two (micros % 100))

def dateText (d : Calendar.Date) : List Char :=
  two (d.year.toNat / 100) ++ two (d.year.toNat % 100) ++ '-' :: two d.month ++ '-' :: two d.day

/-- `isoformat` of a wall clock. -/
def wallText (wall : Int) : List Char :=
  let micros := (wall % dayLength).toNat
  dateText (dateOf wall) ++ 'T' :: clockText micros ++ fractionText (micros % 1000000)

/-- `dt.isoformat()` of an instant in UTC. -/
def isoformat (instant : Int) : List Char := wallText instant ++ "+00:00".toList

/-- The microseconds by which the clock of a zone is ahead of UTC. -/
structure Offset where
  micros : Int
  lt_day : micros.natAbs < 86400000000
deriving DecidableEq

def Offset.utc : Offset := ⟨0, by decide⟩

def Offset.sign (offset : Offset) : Char := if offset.micros < 0 then '-' else '+'

/-- Seconds are printed where they are not zero. -/
def offsetText (offset : Offset) : List Char :=
  let micros := offset.micros.natAbs
  offset.sign :: (two (micros / 3600000000) ++
    ':' :: (two (micros / 60000000 % 60) ++
      if micros % 60000000 = 0 then []
      else ':' :: (two (micros / 1000000 % 60) ++ fractionText (micros % 1000000))))

/-- `dt.isoformat()` of a datetime whose zone, if it has one, is this far ahead of UTC. -/
def timeText (offset : Offset) : DateTime → List Char
  | .aware instant => wallText (instant + offset.micros) ++ offsetText offset
  | .naive wall => wallText wall

example : isoformat 1769904000000000 = "2026-02-01T00:00:00+00:00".toList := by decide +kernel
example : isoformat 1769904000001000 = "2026-02-01T00:00:00.001000+00:00".toList := by
  decide +kernel
example : timeText ⟨28800000000, by decide⟩ (.aware 1767196800000000) =
    "2026-01-01T00:00:00+08:00".toList := by decide +kernel

/-! ## 2. Reading -/

/-- The number that stands in a text at a place. -/
def numberAt (text : List Char) (start length : Nat) : Nat :=
  Nat.ofDigitChars 10 ((text.drop start).take length) 0

def readDate (text : List Char) : Calendar.Date :=
  ⟨numberAt text 0 4, numberAt text 5 2, numberAt text 8 2⟩

def readMicros (text : List Char) : Nat :=
  numberAt text 11 2 * 3600000000 + numberAt text 14 2 * 60000000 + numberAt text 17 2 * 1000000 +
    if text[19]? = some '.' then numberAt text 20 6 else 0

def readIso (text : List Char) : Int :=
  ((readDate text).ordinal - epochOrdinal) * dayLength + readMicros text

def readOffset (text : List Char) : Int :=
  let micros := numberAt text 1 2 * 3600000000 + numberAt text 4 2 * 60000000 +
    if text[6]? = some ':' then
      numberAt text 7 2 * 1000000 + if text[9]? = some '.' then numberAt text 10 6 else 0
    else 0
  if text[0]? = some '-' then -micros else micros

/-- A datetime, with the offset of its zone if it has one. -/
def readTime (text : List Char) : DateTime × Option Int :=
  let zone := text.drop (if text[19]? = some '.' then 26 else 19)
  if zone = [] then (.naive (readIso text), none)
  else (.aware (readIso text - readOffset zone), some (readOffset zone))

/-! ## 3. The round trip -/

/-- What a `datetime` can be. -/
def InRange (instant : Int) : Prop :=
  1 ≤ (dateOf instant).year ∧ (dateOf instant).year ≤ 9999

instance (instant : Int) : Decidable (InRange instant) :=
  inferInstanceAs (Decidable (_ ∧ _))

def TimeInRange : DateTime → Prop
  | .aware instant => InRange instant
  | .naive wall => InRange wall

/-- It is the clock of the zone that is bounded. -/
def ZonedInRange (offset : Offset) : DateTime → Prop
  | .aware instant => InRange (instant + offset.micros)
  | .naive wall => InRange wall

/-- The offset that a datetime has. -/
def utcoffset (offset : Offset) : DateTime → Option Int
  | .aware _ => some offset.micros
  | .naive _ => none

theorem digit_value (n : Nat) : (digit n).toNat - '0'.toNat = n % 10 := by
  have hall : ∀ d : Fin 10, (Char.ofNat ('0'.toNat + d.val)).toNat - '0'.toNat = d.val := by decide
  exact hall ⟨n % 10, Nat.mod_lt n (by decide)⟩

theorem ofDigitChars_two {n : Nat} (h : n < 100) : Nat.ofDigitChars 10 (two n) 0 = n := by
  simp only [two, Nat.ofDigitChars_cons, Nat.ofDigitChars_nil, digit_value]
  omega

theorem ofDigitChars_four {n : Nat} (h : n < 10000) :
    Nat.ofDigitChars 10 (two (n / 100) ++ two (n % 100)) 0 = n := by
  simp only [two, List.cons_append, List.nil_append, Nat.ofDigitChars_cons, Nat.ofDigitChars_nil,
    digit_value]
  omega

theorem ofDigitChars_six {n : Nat} (h : n < 1000000) :
    Nat.ofDigitChars 10 (two (n / 10000) ++ two (n / 100 % 100) ++ two (n % 100)) 0 = n := by
  simp only [two, List.cons_append, List.nil_append, Nat.ofDigitChars_cons, Nat.ofDigitChars_nil,
    digit_value]
  omega

theorem day_le {d : Calendar.Date} (h : d.Valid) : d.day ≤ 31 := by
  obtain ⟨hfirst, hlast, -, hnext⟩ := h
  have hlength : ∀ leap : Bool, ∀ m < 13, Calendar.daysBeforeMonth leap (m + 1) ≤
      Calendar.daysBeforeMonth leap m + 31 := by decide
  have hmonth := hlength (Calendar.isLeap d.year) d.month (by omega)
  omega

section Walls

variable {wall : Int} {rest : List Char}

theorem readDate_wallText (h : InRange wall) : readDate (wallText wall ++ rest) = dateOf wall := by
  have hvalid : (dateOf wall).Valid :=
    (Calendar.ofOrdinal_spec (epochOrdinal + wall / dayLength)).1
  obtain ⟨hlow, hhigh⟩ := h
  have hyear : numberAt (wallText wall ++ rest) 0 4 = (dateOf wall).year.toNat :=
    ofDigitChars_four (by omega)
  have hmonth : numberAt (wallText wall ++ rest) 5 2 = (dateOf wall).month :=
    ofDigitChars_two (Nat.lt_of_le_of_lt hvalid.2.1 (by decide))
  have hday : numberAt (wallText wall ++ rest) 8 2 = (dateOf wall).day :=
    ofDigitChars_two (Nat.lt_of_le_of_lt (day_le hvalid) (by decide))
  rw [readDate, hyear, hmonth, hday, Int.toNat_of_nonneg (by omega)]

/-- The microseconds, where their text stands behind so many characters. -/
theorem read_fraction {micros n : Nat} (h : micros < 1000000) {before : List Char}
    (hbefore : before.length = n) (hrest : rest[0]? ≠ some '.') :
    (if (before ++ fractionText micros ++ rest)[n]? = some '.' then
      numberAt (before ++ fractionText micros ++ rest) (n + 1) 6 else 0) = micros := by
  have hbehind : ∀ after : List Char, (before ++ after)[n]? = after[0]? := by
    intro after
    rw [List.getElem?_append_right (Nat.le_of_eq hbefore), hbefore, Nat.sub_self]
  have hdrop : ∀ (c : Char) (after : List Char), (before ++ c :: after).drop (n + 1) = after := by
    intro c after
    rw [List.drop_append, hbefore, List.drop_eq_nil_of_le (by omega), Nat.add_sub_cancel_left]
    rfl
  rw [List.append_assoc, hbehind]
  by_cases hzero : micros = 0
  · rw [fractionText, if_pos hzero, List.nil_append, if_neg hrest, hzero]
  · rw [fractionText, if_neg hzero, List.cons_append, List.getElem?_cons_zero, if_pos rfl, numberAt,
      hdrop]
    exact ofDigitChars_six h

theorem readMicros_wallText (hrest : rest[0]? ≠ some '.') :
    (readMicros (wallText wall ++ rest) : Int) = wall % dayLength := by
  have hnonneg : 0 ≤ wall % dayLength := Int.emod_nonneg _ (by decide)
  have hlt : wall % dayLength < dayLength := Int.emod_lt_of_pos _ (by decide)
  obtain ⟨micros, hmicros⟩ := Int.eq_ofNat_of_zero_le hnonneg
  have hbound : micros < 86400000000 := by
    rw [hmicros] at hlt
    exact Int.ofNat_lt.mp hlt
  have htoNat : (wall % dayLength).toNat = micros := by rw [hmicros]; rfl
  have hhours : numberAt (wallText wall ++ rest) 11 2 = micros / 3600000000 := by
    rw [wallText, htoNat]
    exact ofDigitChars_two (by omega)
  have hminutes : numberAt (wallText wall ++ rest) 14 2 = micros / 60000000 % 60 := by
    rw [wallText, htoNat]
    exact ofDigitChars_two (Nat.lt_trans (Nat.mod_lt _ (by decide)) (by decide))
  have hseconds : numberAt (wallText wall ++ rest) 17 2 = micros / 1000000 % 60 := by
    rw [wallText, htoNat]
    exact ofDigitChars_two (Nat.lt_trans (Nat.mod_lt _ (by decide)) (by decide))
  have hclock : (dateText (dateOf wall) ++ 'T' :: clockText micros).length = 19 := rfl
  have hfraction := read_fraction (Nat.mod_lt micros (by decide : 0 < 1000000)) hclock hrest
  rw [readMicros, hhours, hminutes, hseconds, hmicros]
  simp only [wallText, htoNat, hfraction]
  omega

theorem readIso_wallText (h : InRange wall) (hrest : rest[0]? ≠ some '.') :
    readIso (wallText wall ++ rest) = wall := by
  have hordinal : (dateOf wall).ordinal = epochOrdinal + wall / dayLength :=
    (Calendar.ofOrdinal_spec _).2
  rw [readIso, readDate_wallText h, readMicros_wallText hrest, hordinal]
  have hsplit := Int.emod_add_mul_ediv wall dayLength
  linarith

end Walls

/-- **A time is found again from its text.** -/
theorem readIso_isoformat {instant : Int} (h : InRange instant) :
    readIso (isoformat instant) = instant :=
  readIso_wallText h (by decide)

theorem wallText_length (wall : Int) :
    (wallText wall).length = 19 ∨ (wallText wall).length = 26 := by
  rw [wallText, List.length_append]
  by_cases hzero : (wall % dayLength).toNat % 1000000 = 0
  · rw [fractionText, if_pos hzero]
    exact .inl rfl
  · rw [fractionText, if_neg hzero]
    exact .inr rfl

/-- The seconds of an offset, where they are printed. -/
theorem readSeconds_offsetText (offset : Offset) :
    (if (offsetText offset)[6]? = some ':' then
      numberAt (offsetText offset) 7 2 * 1000000 +
        if (offsetText offset)[9]? = some '.' then numberAt (offsetText offset) 10 6 else 0
    else 0) = offset.micros.natAbs % 60000000 := by
  by_cases hzero : offset.micros.natAbs % 60000000 = 0
  · have hnone : (offsetText offset)[6]? = none := by
      rw [offsetText, if_pos hzero]
      rfl
    rw [hnone, if_neg (by decide), hzero]
  · have hcolon : (offsetText offset)[6]? = some ':' := by
      rw [offsetText, if_neg hzero]
      rfl
    have hseconds : numberAt (offsetText offset) 7 2 = offset.micros.natAbs / 1000000 % 60 := by
      rw [offsetText, if_neg hzero]
      exact ofDigitChars_two (Nat.lt_trans (Nat.mod_lt _ (by decide)) (by decide))
    have hfraction : (if (offsetText offset)[9]? = some '.' then
        numberAt (offsetText offset) 10 6 else 0) = offset.micros.natAbs % 1000000 := by
      have hlt : offset.micros.natAbs % 1000000 < 1000000 := Nat.mod_lt _ (by decide)
      have hread := @read_fraction [] _ 9 hlt
        (offset.sign :: (two (offset.micros.natAbs / 3600000000) ++
          ':' :: (two (offset.micros.natAbs / 60000000 % 60) ++
            ':' :: two (offset.micros.natAbs / 1000000 % 60)))) rfl (by decide)
      rw [List.append_nil] at hread
      rw [offsetText, if_neg hzero]
      exact hread
    rw [if_pos hcolon, hseconds, hfraction]
    omega

theorem readOffset_offsetText (offset : Offset) :
    readOffset (offsetText offset) = offset.micros := by
  have hlt := offset.lt_day
  have hhours : numberAt (offsetText offset) 1 2 = offset.micros.natAbs / 3600000000 :=
    ofDigitChars_two (by omega)
  have hminutes : numberAt (offsetText offset) 4 2 = offset.micros.natAbs / 60000000 % 60 :=
    ofDigitChars_two (Nat.lt_trans (Nat.mod_lt _ (by decide)) (by decide))
  rw [readOffset, hhours, hminutes, readSeconds_offsetText]
  change (if some offset.sign = some '-' then _ else _) = _
  by_cases hneg : offset.micros < 0
  · rw [Offset.sign, if_pos hneg, if_pos rfl]
    omega
  · rw [Offset.sign, if_neg hneg, if_neg (by decide)]
    omega

/-- Where the text of a clock ends. -/
theorem drop_wallText (wall : Int) {rest : List Char} (hrest : rest[0]? ≠ some '.') :
    (wallText wall ++ rest).drop (if (wallText wall ++ rest)[19]? = some '.' then 26 else 19) =
      rest := by
  by_cases hzero : (wall % dayLength).toNat % 1000000 = 0
  · have hlength : (wallText wall).length = 19 := by
      rw [wallText, fractionText, if_pos hzero]
      rfl
    have hbehind : (wallText wall ++ rest)[19]? = rest[0]? := by
      rw [List.getElem?_append_right (Nat.le_of_eq hlength), hlength]
    rw [hbehind, if_neg hrest, ← hlength, List.drop_left]
  · have hlength : (wallText wall).length = 26 := by
      rw [wallText, fractionText, if_neg hzero]
      rfl
    have hpoint : (wallText wall ++ rest)[19]? = some '.' := by
      rw [wallText, fractionText, if_neg hzero]
      rfl
    rw [if_pos hpoint, ← hlength, List.drop_left]

/-- **A time is found again from its text with its offset**, also one with a zone from one
    without. -/
theorem readTime_timeText {offset : Offset} {t : DateTime} (h : ZonedInRange offset t) :
    readTime (timeText offset t) = (t, utcoffset offset t) := by
  cases t with
  | aware instant =>
      have hrest : (offsetText offset)[0]? ≠ some '.' := by
        rw [offsetText, List.getElem?_cons_zero, Offset.sign]
        split <;> decide
      have hne : offsetText offset ≠ [] := List.cons_ne_nil _ _
      have hinstant : instant + offset.micros - offset.micros = instant := by omega
      rw [timeText, readTime, drop_wallText _ hrest, if_neg hne, readOffset_offsetText,
        readIso_wallText h hrest, hinstant]
      rfl
  | naive wall =>
      have hrest : ([] : List Char)[0]? ≠ some '.' := by decide
      have hdrop := drop_wallText wall hrest
      have hread := readIso_wallText h hrest
      rw [List.append_nil] at hdrop hread
      rw [timeText, readTime, hdrop, if_pos rfl, hread]
      rfl

end FundingTool.IsoFormat
