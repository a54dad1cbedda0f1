import Mathlib.Data.List.Lex
import Mathlib.Order.Monotone.Basic
import PercentFormat.Proofs.Calendar
import PercentFormat.Proofs.Digits

/-! The text of an instant: numbers with leading zeros, each with a mark behind it. The numbers can be
read back, and they are those of one instant only. As long as no number outgrows its column, the texts
are ordered as the instants are. -/

namespace PercentFormat

/-- What follows two texts of one length counts only if they are equal. -/
private theorem append_lt_append_iff {α : Type} [LT α] [Std.Irrefl fun a b : α => a < b]
    {a b c d : List α} (h : a.length = c.length) : a ++ b < c ++ d ↔ a < c ∨ a = c ∧ b < d := by
  induction a generalizing c with
  | nil =>
    obtain rfl := List.length_eq_zero_iff.1 h.symm
    simp
  | cons x a ih =>
    obtain ⟨y, c, rfl⟩ := List.exists_cons_of_length_eq_add_one h.symm
    rw [List.cons_append, List.cons_append, List.cons_lt_cons_iff, List.cons_lt_cons_iff,
      ih (Nat.succ.inj h), List.cons.injEq]
    tauto

/-- ASCII texts are ordered by their bytes as by their characters. -/
theorem encodeChars_lt_iff {cs ds : List Char} (hcs : ∀ c ∈ cs, c.toNat < 0x80)
    (hds : ∀ c ∈ ds, c.toNat < 0x80) :
    Utf8.encodeChars cs < Utf8.encodeChars ds ↔ cs < ds := by
  induction cs generalizing ds with
  | nil =>
    cases ds with
    | nil => simp [Utf8.encodeChars]
    | cons d ds =>
      obtain ⟨hd, -⟩ := List.forall_mem_cons.1 hds
      rw [Utf8.encodeChars_cons, Utf8.encodeChar_ascii hd]
      exact iff_of_true (List.nil_lt_cons ..) (List.nil_lt_cons ..)
  | cons c cs ih =>
    obtain ⟨hc, hcs⟩ := List.forall_mem_cons.1 hcs
    rw [Utf8.encodeChars_cons, Utf8.encodeChar_ascii hc]
    cases ds with
    | nil => exact iff_of_false (List.not_lt_nil _) (List.not_lt_nil _)
    | cons d ds =>
      obtain ⟨hd, hds⟩ := List.forall_mem_cons.1 hds
      rw [Utf8.encodeChars_cons, Utf8.encodeChar_ascii hd, List.singleton_append,
        List.singleton_append, List.cons_lt_cons_iff, List.cons_lt_cons_iff, ih hcs hds,
        UInt8.lt_iff_toNat_lt, ← UInt8.toNat_inj, Utf8.toNat_ofNat_ascii hc,
        Utf8.toNat_ofNat_ascii hd, char_lt_iff, Char.toNat_inj]

/-- A place for a number in a text: how many digits are written at least, and the mark behind them. -/
structure Column where
  width : Nat
  mark : Char
  width_pos : 0 < width := by decide
  mark_not_digit : mark.isDigit = false := by decide
  mark_ascii : mark.toNat < 0x80 := by decide

/-- The text of numbers, each in its column. -/
def writeColumns : List Column → List Nat → List Char
  | column :: columns, n :: ns => zeroPadded column.width n ++ column.mark :: writeColumns columns ns
  | _, _ => []

/-- Reads numbers of any length with the given marks behind them. -/
def readColumns? : List Char → List Char → Option (List Nat)
  | [], [] => some []
  | [], _ :: _ => none
  | mark :: marks, cs =>
    let digits := cs.takeWhile Char.isDigit
    match cs.dropWhile Char.isDigit with
    | [] => none
    | c :: rest =>
      if digits = [] ∨ c ≠ mark then none
      else (readColumns? marks rest).map (Nat.ofDigitChars 10 digits 0 :: ·)

/-- No number is too large for the width of its column. -/
def WithinWidths (columns : List Column) (ns : List Nat) : Prop :=
  List.Forall₂ (fun column n => n < Nat.pow 10 column.width) columns ns

/-- The length of a text in which every number has its width. -/
def totalWidth : List Column → Nat
  | [] => 0
  | column :: columns => column.width + 1 + totalWidth columns

section
variable {columns : List Column} {ms ns : List Nat}

theorem readColumns?_cons (column : Column) (marks rest : List Char) (n : Nat) :
    readColumns? (column.mark :: marks) (zeroPadded column.width n ++ column.mark :: rest) =
      (readColumns? marks rest).map (n :: ·) := by
  have hdigits : ∀ c ∈ zeroPadded column.width n, c.isDigit = true :=
    fun _ => isDigit_of_mem_zeroPadded
  have hmark : ¬ column.mark.isDigit = true := by simp [column.mark_not_digit]
  rw [readColumns?, List.takeWhile_append_of_pos hdigits, List.dropWhile_append_of_pos hdigits,
    List.takeWhile_cons_of_neg hmark, List.dropWhile_cons_of_neg hmark, List.append_nil]
  simp [zeroPadded_ne_nil, ofDigitChars_zeroPadded]

theorem readColumns?_writeColumns (h : columns.length = ns.length) :
    readColumns? (columns.map (·.mark)) (writeColumns columns ns) = some ns := by
  induction columns generalizing ns with
  | nil =>
    obtain rfl := List.length_eq_zero_iff.1 h.symm
    rfl
  | cons column columns ih =>
    obtain ⟨n, ns, rfl⟩ := List.exists_cons_of_length_eq_add_one h.symm
    rw [List.map_cons, writeColumns, readColumns?_cons, ih (Nat.succ.inj h)]
    rfl

theorem writeColumns_ascii (columns : List Column) (ns : List Nat) :
    ∀ c ∈ writeColumns columns ns, c.toNat < 0x80 := by
  fun_induction writeColumns columns ns with
  | case1 column columns n ns ih =>
    refine List.forall_mem_append.2 ⟨?_, List.forall_mem_cons.2 ⟨column.mark_ascii, ih⟩⟩
    exact fun c hc => isDigit_ascii (isDigit_of_mem_zeroPadded hc)
  | case2 => simp

theorem length_writeColumns (h : WithinWidths columns ns) :
    (writeColumns columns ns).length = totalWidth columns := by
  induction h with
  | nil => rfl
  | @cons column n columns ns hn _ ih =>
    rw [writeColumns, List.length_append, length_zeroPadded column.width_pos hn, List.length_cons, ih,
      totalWidth]
    omega

/-- Column by column, texts are compared as their numbers are. -/
theorem writeColumns_lt_iff (hm : WithinWidths columns ms) (hn : WithinWidths columns ns) :
    writeColumns columns ms < writeColumns columns ns ↔ ms < ns := by
  induction hm generalizing ns with
  | nil =>
    cases hn
    simp
  | @cons column m columns ms hm _ ih =>
    cases hn with
    | @cons _ n _ ns hn hns =>
      have hlength : (zeroPadded column.width m).length = (zeroPadded column.width n).length := by
        rw [length_zeroPadded column.width_pos hm, length_zeroPadded column.width_pos hn]
      rw [writeColumns, writeColumns, append_lt_append_iff hlength,
        zeroPadded_lt_iff column.width_pos hm hn, zeroPadded_inj, List.cons_lt_cons_iff,
        List.cons_lt_cons_iff, ih hns]
      simp

end

namespace Date

instance (d : Date) : Decidable d.Valid :=
  decidable_of_iff ((1 ≤ d.month ∧ d.month ≤ 12) ∧ 1 ≤ d.day ∧ d.day ≤ daysOfMonth d.year d.month)
    ⟨fun h => ⟨h.1, h.2⟩, fun h => ⟨h.month, h.day⟩⟩

def numbers (d : Date) : List Nat := [d.year, d.month, d.day]

private theorem numbers_lt_next {d : Date} (h : d.Valid) : d.numbers < d.next.numbers := by
  rcases next_cases h with ⟨-, heq⟩ | ⟨-, -, heq⟩ | ⟨-, -, heq⟩ <;> rw [heq] <;>
    simp [numbers, List.cons_lt_cons_iff]

/-- Each date comes after the one of the day before, so dates are ordered as the days are. -/
theorem strictMono_numbers_ofDays : StrictMono fun days => (ofDays days).numbers :=
  strictMono_nat_of_lt_succ fun days => by
    rw [ofDays_succ]
    exact numbers_lt_next (ofDays_dayNumber days).1

theorem monotone_year_ofDays : Monotone fun days => (ofDays days).year :=
  monotone_nat_of_le_succ fun days => by
    rw [ofDays_succ]
    exact year_le_next _

private theorem daysOfMonth_le (year month : Nat) : daysOfMonth year month ≤ 31 := by
  unfold daysOfMonth
  repeat' split
  all_goals decide

end Date

/-- What is compared first may be compared in two parts. -/
private theorem lt_or_eq_iff_div_mod {p : Nat} (hp : 0 < p) (a b : Nat) (later : Prop) :
    (a < b ∨ a = b ∧ later) ↔
      a / p < b / p ∨ a / p = b / p ∧ (a % p < b % p ∨ a % p = b % p ∧ later) := by
  have hlt : a < b ↔ a / p < b / p ∨ a / p = b / p ∧ a % p < b % p := by
    rw [← mul_add_lt_mul_add_iff (Nat.mod_lt a hp) (Nat.mod_lt b hp), Nat.div_add_mod,
      Nat.div_add_mod]
  have heq : a = b ↔ a / p = b / p ∧ a % p = b % p := by
    refine ⟨fun h => h ▸ ⟨rfl, rfl⟩, fun ⟨hdiv, hmod⟩ => ?_⟩
    rw [← Nat.div_add_mod a p, hdiv, hmod, Nat.div_add_mod]
  rw [hlt, heq]
  tauto

namespace Instant

/-- The columns of the text of an instant. -/
def columns : List Column :=
  [.mk 4 '-', .mk 2 '-', .mk 2 'T', .mk 2 ':', .mk 2 ':', .mk 2 '.', .mk 3 'Z']

/-- The hours, minutes, seconds and milliseconds since midnight. -/
def timeOfDay (i : Instant) : List Nat :=
  [i.seconds % 86400 / 3600, i.seconds % 3600 / 60, i.seconds % 60, i.millis]

def numbers (i : Instant) : List Nat := (Date.ofDays (i.seconds / 86400)).numbers ++ i.timeOfDay

/-- Whether an instant is earlier than another one. -/
def Before (i j : Instant) : Prop :=
  i.seconds < j.seconds ∨ i.seconds = j.seconds ∧ i.millis < j.millis

/-- The instant with the numbers of a date from 1970 on and of a time of the day. -/
def ofNumbers? : List Nat → Option Instant
  | [year, month, day, hour, minute, second, millis] =>
    let date : Date := ⟨year, month, day⟩
    if date.Valid ∧ 1970 ≤ year ∧ hour < 24 ∧ minute < 60 ∧ second < 60 ∧ millis < 1000 then
      some ⟨date.dayNumber * 86400 + hour * 3600 + minute * 60 + second, millis⟩
    else none
  | _ => none

/-- Reads an instant of universal time. The days up to the date are those of the calendar. -/
def read? (text : String) : Option Instant :=
  (readColumns? (columns.map (·.mark)) text.toList).bind ofNumbers?

theorem writeColumns_numbers (date : Date) (hour minute second millis : Nat) :
    writeColumns columns (date.numbers ++ [hour, minute, second, millis]) =
      zeroPadded 4 date.year ++ '-' :: zeroPadded 2 date.month ++ '-' :: zeroPadded 2 date.day
        ++ 'T' :: zeroPadded 2 hour ++ ':' :: zeroPadded 2 minute ++ ':' :: zeroPadded 2 second
        ++ '.' :: zeroPadded 3 millis ++ ['Z'] := by
  simp [writeColumns, columns, Date.numbers]

theorem chars_eq (i : Instant) : i.chars = writeColumns columns i.numbers :=
  (writeColumns_numbers ..).symm

theorem encode_text (i : Instant) :
    Utf8.encode i.text = Utf8.encodeChars (writeColumns columns i.numbers) := by
  rw [text, Utf8.encode_ofList, chars_eq]

section
variable {i j : Instant}

theorem ofNumbers?_numbers (h : i.millis < 1000) : ofNumbers? i.numbers = some i := by
  obtain ⟨hvalid, hyear, hnumber⟩ := Date.ofDays_dayNumber (i.seconds / 86400)
  have hseconds : i.seconds / 86400 * 86400 + i.seconds % 86400 / 3600 * 3600
      + i.seconds % 3600 / 60 * 60 + i.seconds % 60 = i.seconds := by omega
  rw [numbers]
  -- the date is no longer computed from here on
  generalize Date.ofDays (i.seconds / 86400) = date at *
  show (if date.Valid ∧ _ then _ else _) = _
  rw [if_pos ⟨hvalid, hyear, by omega, by omega, by omega, h⟩]
  show some (⟨date.dayNumber * 86400 + _ + _ + _, i.millis⟩ : Instant) = some i
  rw [hnumber, hseconds]

theorem read?_text (h : i.millis < 1000) : read? i.text = some i := by
  rw [read?, text, String.toList_ofList, chars_eq, readColumns?_writeColumns rfl, Option.bind_some,
    ofNumbers?_numbers h]

theorem timeOfDay_lt_iff :
    i.timeOfDay < j.timeOfDay ↔ i.seconds % 86400 < j.seconds % 86400 ∨
      i.seconds % 86400 = j.seconds % 86400 ∧ i.millis < j.millis := by
  have hhour (s : Nat) : s % 86400 % 3600 = s % 3600 := Nat.mod_mod_of_dvd s (by decide)
  have hminute (s : Nat) : s % 3600 % 60 = s % 60 := Nat.mod_mod_of_dvd s (by decide)
  rw [lt_or_eq_iff_div_mod (show 0 < 3600 by decide), hhour, hhour,
    lt_or_eq_iff_div_mod (show 0 < 60 by decide) (i.seconds % 3600), hminute, hminute]
  simp only [timeOfDay, List.cons_lt_cons_iff, List.lt_irrefl, and_false, or_false]

/-- The numbers of instants are ordered as the instants are. -/
theorem numbers_lt_iff : i.numbers < j.numbers ↔ i.Before j := by
  have hlength (d e : Date) : d.numbers.length = e.numbers.length := rfl
  have hlt (a b : Nat) : (Date.ofDays a).numbers < (Date.ofDays b).numbers ↔ a < b :=
    Date.strictMono_numbers_ofDays.lt_iff_lt
  have heq (a b : Nat) : (Date.ofDays a).numbers = (Date.ofDays b).numbers ↔ a = b :=
    Date.strictMono_numbers_ofDays.injective.eq_iff
  rw [numbers, numbers, append_lt_append_iff (hlength _ _), hlt, heq, timeOfDay_lt_iff, Before,
    ← lt_or_eq_iff_div_mod (by decide)]

/-- Before the year 10000 no number outgrows its column. -/
theorem withinWidths_numbers (hs : i.seconds < 253402300800) (hm : i.millis < 1000) :
    WithinWidths columns i.numbers := by
  obtain ⟨⟨hmonth, hday⟩, -, -⟩ := Date.ofDays_dayNumber (i.seconds / 86400)
  have hyear : (Date.ofDays (i.seconds / 86400)).year ≤ 9999 :=
    Date.monotone_year_ofDays (show i.seconds / 86400 ≤ 2932896 by omega)
  have hlast := Date.daysOfMonth_le (Date.ofDays (i.seconds / 86400)).year
    (Date.ofDays (i.seconds / 86400)).month
  rw [numbers]
  generalize Date.ofDays (i.seconds / 86400) = date at *
  refine .cons ?_ (.cons ?_ (.cons ?_ (.cons ?_ (.cons ?_ (.cons ?_ (.cons ?_ .nil))))))
  all_goals
    simp only [Nat.reducePow, Nat.pow_eq]
    omega

end

/-- The text of an instant is faithful. Within 64 bits of seconds it is computed without leaving them,
it is read back as the instant it was written for, and so different instants have different texts.
Before the year 10000 it has 24 bytes, and texts are ordered as the instants are. -/
theorem text_faithful (i j : Instant) (hs : i.seconds ≤ maxSize) (hi : i.millis < 1000)
    (hj : j.millis < 1000) :
    Date.ofDays? (i.seconds / 86400) = some (Date.ofDays (i.seconds / 86400)) ∧
    read? i.text = some i ∧ (i.text = j.text → i = j) ∧
    (i.seconds < 253402300800 → (Utf8.encode i.text).length = 24) ∧
    (i.seconds < 253402300800 → j.seconds < 253402300800 →
      (Utf8.encode i.text < Utf8.encode j.text ↔ i.Before j)) := by
  have hascii (i : Instant) := writeColumns_ascii columns i.numbers
  have hroom : i.seconds / 86400 + 719468 ≤ maxSize := by
    unfold maxSize at hs ⊢
    omega
  refine ⟨Date.ofDays?_eq hroom, read?_text hi, fun heq => ?_, fun hyear => ?_, fun hyear hyear' => ?_⟩
  · have hread := read?_text hi
    rw [heq, read?_text hj] at hread
    exact (Option.some.inj hread).symm
  · rw [encode_text, Utf8.length_encodeChars_ascii (hascii i),
      length_writeColumns (withinWidths_numbers hyear hi)]
    rfl
  · rw [encode_text, encode_text, encodeChars_lt_iff (hascii i) (hascii j),
      writeColumns_lt_iff (withinWidths_numbers hyear hi) (withinWidths_numbers hyear' hj),
      numbers_lt_iff]

/-- The last millisecond of a leap day and the next one, and the last instant of 64 bits of seconds. -/
theorem text_faithful_leap_day :
    text ⟨1709251199, 999⟩ = "2024-02-29T23:59:59.999Z" ∧
    text ⟨1709251200, 0⟩ = "2024-03-01T00:00:00.000Z" ∧
    Utf8.encode "2024-02-29T23:59:59.999Z" < Utf8.encode "2024-03-01T00:00:00.000Z" ∧
    (Utf8.encode "2024-02-29T23:59:59.999Z").length = 24 ∧
    text ⟨maxSize, 999⟩ = "584554051223-11-09T07:00:15.999Z" ∧
    read? "584554051223-11-09T07:00:15.999Z" = some ⟨maxSize, 999⟩ := by
  have hleap : text ⟨1709251199, 999⟩ = "2024-02-29T23:59:59.999Z" := by decide +kernel
  have hnext : text ⟨1709251200, 0⟩ = "2024-03-01T00:00:00.000Z" := by decide +kernel
  have hlast : text ⟨maxSize, 999⟩ = "584554051223-11-09T07:00:15.999Z" := by decide +kernel
  obtain ⟨-, -, -, hlength, hlt⟩ :=
    text_faithful ⟨1709251199, 999⟩ ⟨1709251200, 0⟩ (by decide) (by decide) (by decide)
  obtain ⟨-, hread, -⟩ :=
    text_faithful ⟨maxSize, 999⟩ ⟨0, 0⟩ (Nat.le_refl _) (by decide) (by decide)
  have hbefore : Before ⟨1709251199, 999⟩ ⟨1709251200, 0⟩ := .inl (by decide)
  refine ⟨hleap, hnext, ?_, ?_, hlast, hlast ▸ hread⟩
  · rw [← hleap, ← hnext]
    exact (hlt (by decide) (by decide)).2 hbefore
  · rw [← hleap]
    exact hlength (by decide)

end Instant

end PercentFormat
