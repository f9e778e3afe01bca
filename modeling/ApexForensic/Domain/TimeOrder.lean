import Mathlib.Data.Int.ConditionallyCompleteOrder
import Mathlib.Data.Int.SuccPred
import Mathlib.Tactic.Ring
import ApexForensic.Domain.Time

/-!
# The order of timestamps is the order of their texts

A timestamp text has fields of fixed width, from the year down to the
microsecond, so comparing two texts compares the instants.  The one field that
is not a digit of the instant is the date: `dateKey` reads the calendar date
as a number, and the next day has a larger one.
-/

namespace ApexForensic.Domain

variable {m n width : ℕ} {xs ys : List Char}

/-! ## The calendar -/

/-- The days of an era of 400 years before its year `y`. -/
def yearDays (y : ℕ) : ℕ := 365 * y + y / 4 - y / 100

def yearOfEra (doe : ℕ) : ℕ :=
  (doe - doe / 1460 + doe / 36524 - doe / 146096) / 365

/-- The month of a day of the year that starts in March. -/
def monthOfYear (doy : ℕ) : ℕ :=
  let mp := (5 * doy + 2) / 153
  if mp < 10 then mp + 3 else mp - 9

def dayOfMonth (doy : ℕ) : ℕ :=
  doy - (153 * ((5 * doy + 2) / 153) + 2) / 5 + 1

/-- Month and day as a number; the months of the next calendar year come
last. -/
def monthKey (doy : ℕ) : ℕ :=
  (if monthOfYear doy ≤ 2 then 512 else 0) + monthOfYear doy * 32 +
    dayOfMonth doy

theorem yearOfEra_mono : Monotone yearOfEra := by
  refine monotone_nat_of_le_succ fun doe => ?_
  apply Nat.div_le_div_right
  omega

theorem yearOfEra_first : ∀ y < 400,
    yearOfEra (yearDays y) = y ∧
      (y ≠ 0 → yearOfEra (yearDays y - 1) = y - 1) := by
  decide +kernel

theorem yearOfEra_spec {doe : ℕ} (h : doe < 146097) :
    yearOfEra doe < 400 ∧ yearDays (yearOfEra doe) ≤ doe ∧
      (yearOfEra doe = 399 ∨ doe < yearDays (yearOfEra doe + 1)) := by
  have hlast : yearOfEra doe ≤ 399 := by
    have hmono := yearOfEra_mono (Nat.le_of_lt_succ h)
    exact hmono.trans (by decide)
  refine ⟨by omega, ?_, ?_⟩
  · by_contra hlt
    have hzero : yearOfEra doe ≠ 0 := by
      intro hzero
      rw [hzero] at hlt
      exact hlt (Nat.zero_le _)
    have hprev := (yearOfEra_first _ (Nat.lt_succ_of_le hlast)).2 hzero
    have hmono := yearOfEra_mono (show doe ≤ yearDays (yearOfEra doe) - 1 by
      omega)
    omega
  · by_contra hge
    rw [not_or, not_lt] at hge
    have hnext := (yearOfEra_first (yearOfEra doe + 1) (by omega)).1
    have hmono := yearOfEra_mono hge.2
    omega

theorem monthKey_bounds : ∀ doy < 366, 97 ≤ monthKey doy ∧
    monthKey doy ≤ 605 := by
  decide +kernel

theorem monthKey_succ : ∀ doy < 365, monthKey doy < monthKey (doy + 1) := by
  decide +kernel

/-- A calendar date as a number. -/
def dateKey (days : ℤ) : ℤ :=
  (civilFromDays days).1 * 512 + (civilFromDays days).2.1 * 32 +
    (civilFromDays days).2.2

/-- The day of the year that starts in March. -/
def dayOfYear (doe : ℕ) : ℕ :=
  doe - yearDays (yearOfEra doe)

theorem civilFromDays_eq (days : ℤ) :
    civilFromDays days =
      let z := days + 719468
      let doy := dayOfYear (z % 146097).toNat
      (yearOfEra (z % 146097).toNat + z / 146097 * 400 +
          (if monthOfYear doy ≤ 2 then 1 else 0),
        monthOfYear doy, dayOfMonth doy) :=
  rfl

theorem dateKey_eq (days : ℤ) :
    let z := days + 719468
    dateKey days =
      (yearOfEra (z % 146097).toNat + z / 146097 * 400) * 512 +
        monthKey (dayOfYear (z % 146097).toNat) := by
  simp only [dateKey, civilFromDays_eq, monthKey]
  split
  · push_cast
    ring
  · push_cast
    ring

theorem dayOfYear_lt {doe : ℕ} (h : doe < 146097) : dayOfYear doe < 366 := by
  obtain ⟨-, hlow, hhigh⟩ := yearOfEra_spec h
  rw [dayOfYear]
  rcases hhigh with hlast | hhigh
  · have hdays : yearDays 399 = 145731 := by decide
    rw [hlast, hdays] at hlow ⊢
    omega
  · simp only [yearDays] at hlow hhigh ⊢
    omega

theorem dateKey_lt_succ (days : ℤ) : dateKey days < dateKey (days + 1) := by
  have hkey := dateKey_eq days
  have hkey' := dateKey_eq (days + 1)
  dsimp only at hkey hkey'
  rw [show days + 1 + 719468 = days + 719468 + 1 by ring] at hkey'
  rw [hkey, hkey']
  generalize days + 719468 = z
  have hdoe : (z % 146097).toNat < 146097 := by omega
  have hdoe' : ((z + 1) % 146097).toNat < 146097 := by omega
  obtain ⟨hyear, hlow, -⟩ := yearOfEra_spec hdoe
  have hdoy := monthKey_bounds _ (dayOfYear_lt hdoe)
  have hdoy' := monthKey_bounds _ (dayOfYear_lt hdoe')
  rcases eq_or_ne (z % 146097) 146096 with hroll | hroll
  · have hera : (z + 1) / 146097 = z / 146097 + 1 := by omega
    have hzero : ((z + 1) % 146097).toNat = 0 := by omega
    have hfirst : yearOfEra 0 = 0 := by decide
    rw [hera]
    rw [hzero] at hdoy' ⊢
    rw [hfirst]
    omega
  · have hera : (z + 1) / 146097 = z / 146097 := by omega
    have hnext : ((z + 1) % 146097).toNat = (z % 146097).toNat + 1 := by omega
    rw [hera]
    rw [hnext] at hdoe' hdoy' ⊢
    generalize (z % 146097).toNat = doe at *
    have hmono : yearOfEra doe ≤ yearOfEra (doe + 1) :=
      yearOfEra_mono (Nat.le_succ doe)
    rcases hmono.eq_or_lt with hsame | hlater
    · have hday : dayOfYear (doe + 1) = dayOfYear doe + 1 := by
        rw [dayOfYear, dayOfYear, ← hsame]
        omega
      have hlt := dayOfYear_lt hdoe'
      have hstep := monthKey_succ (dayOfYear doe) (by omega)
      rw [← hsame, hday]
      omega
    · omega

theorem dateKey_strictMono : StrictMono dateKey :=
  strictMono_int_of_lt_succ dateKey_lt_succ

theorem monthDay_bounds : ∀ doy < 366,
    (1 ≤ monthOfYear doy ∧ monthOfYear doy ≤ 12) ∧
      1 ≤ dayOfMonth doy ∧ dayOfMonth doy ≤ 31 := by
  decide +kernel

theorem civilFromDays_bounds (days : ℤ) :
    (1 ≤ (civilFromDays days).2.1 ∧ (civilFromDays days).2.1 ≤ 12) ∧
      1 ≤ (civilFromDays days).2.2 ∧ (civilFromDays days).2.2 ≤ 31 := by
  rw [civilFromDays_eq]
  apply monthDay_bounds
  apply dayOfYear_lt
  omega

/-- A later day has a larger year, or a larger month of the year, or a larger
day of the month. -/
theorem civilFromDays_lt {a b : ℤ} (h : a < b) :
    (civilFromDays a).1 < (civilFromDays b).1 ∨
      (civilFromDays a).1 = (civilFromDays b).1 ∧
        ((civilFromDays a).2.1 < (civilFromDays b).2.1 ∨
          (civilFromDays a).2.1 = (civilFromDays b).2.1 ∧
            (civilFromDays a).2.2 < (civilFromDays b).2.2) := by
  have hkey := dateKey_strictMono h
  have ha := civilFromDays_bounds a
  have hb := civilFromDays_bounds b
  simp only [dateKey] at hkey
  omega

/-! ## Fields of fixed width -/

theorem padded_one (h : n < 10) : padded 1 n = [Nat.digitChar n] := by
  rw [padded, Nat.toDigits_of_lt_base h]
  rfl

theorem padded_succ (width n : ℕ) :
    padded (width + 2) n =
      padded (width + 1) (n / 10) ++ [Nat.digitChar (n % 10)] := by
  rcases Nat.lt_or_ge n 10 with hn | hn
  · rw [Nat.div_eq_of_lt hn, Nat.mod_eq_of_lt hn, padded, padded,
      Nat.toDigits_of_lt_base hn, Nat.toDigits_zero]
    simp [List.replicate_succ']
  · rw [padded, padded, Nat.toDigits_of_base_le (by decide) hn]
    simp

theorem length_padded (h : n < 10 ^ (width + 1)) :
    (padded (width + 1) n).length = width + 1 := by
  induction width generalizing n with
  | zero =>
      rw [padded_one (by simpa using h)]
      rfl
  | succ width ih =>
      rw [padded_succ, List.length_append, ih (by
        rw [Nat.div_lt_iff_lt_mul (by decide)]
        simpa [pow_succ] using h)]
      rfl

theorem append_lt_append {a b : List Char} (hlength : a.length = b.length)
    (h : a < b) (xs ys : List Char) : a ++ xs < b ++ ys := by
  induction a generalizing b with
  | nil =>
      cases b with
      | nil => exact absurd h (lt_irrefl _)
      | cons d b => cases hlength
  | cons c a ih =>
      cases b with
      | nil => cases hlength
      | cons d b =>
          rw [List.cons_append, List.cons_append, List.cons_lt_cons_iff]
          rcases List.cons_lt_cons_iff.mp h with hlt | ⟨heq, hlt⟩
          · exact Or.inl hlt
          · exact Or.inr ⟨heq, ih (Nat.succ.inj hlength) hlt⟩

theorem append_lt_append_left (a : List Char) (h : xs < ys) :
    a ++ xs < a ++ ys := by
  induction a with
  | nil => exact h
  | cons c a ih => exact List.cons_lt_cons_iff.mpr (Or.inr ⟨rfl, ih⟩)

theorem digitChar_lt : ∀ m < 10, ∀ n < m,
    Nat.digitChar n < Nat.digitChar m := by
  decide

theorem padded_lt (h : n < m) (hm : m < 10 ^ (width + 1)) :
    padded (width + 1) n < padded (width + 1) m := by
  induction width generalizing n m with
  | zero =>
      have hm : m < 10 := by simpa using hm
      rw [padded_one hm, padded_one (h.trans hm)]
      exact List.cons_lt_cons_iff.mpr (Or.inl (digitChar_lt m hm n h))
  | succ width ih =>
      rw [padded_succ, padded_succ]
      have hmod := Nat.mod_lt m (show 0 < 10 by decide)
      have hdiv : m / 10 < 10 ^ (width + 1) := by
        rw [Nat.div_lt_iff_lt_mul (by decide)]
        simpa [pow_succ] using hm
      rcases (Nat.div_le_div_right h.le : n / 10 ≤ m / 10).eq_or_lt with
        heq | hlt
      · rw [heq]
        apply append_lt_append_left
        exact List.cons_lt_cons_iff.mpr
          (Or.inl (digitChar_lt _ hmod _ (by omega)))
      · apply append_lt_append _ (ih hlt hdiv)
        rw [length_padded hdiv, length_padded (hlt.trans hdiv)]

/-- Two texts that start with a field compare by the field, and then by what
follows. -/
theorem padded_append_lt (hm : m < 10 ^ (width + 1))
    (h : n < m ∨ n = m ∧ xs < ys) :
    padded (width + 1) n ++ xs < padded (width + 1) m ++ ys := by
  rcases h with h | ⟨rfl, h⟩
  · apply append_lt_append _ (padded_lt h hm)
    rw [length_padded hm, length_padded (h.trans hm)]
  · exact append_lt_append_left _ h

theorem padded_cons_lt {c : Char} (hm : m < 10 ^ (width + 1))
    (h : n < m ∨ n = m ∧ xs < ys) :
    padded (width + 1) n ++ c :: xs < padded (width + 1) m ++ c :: ys :=
  padded_append_lt hm (h.imp_right fun ⟨heq, hlt⟩ =>
    ⟨heq, List.cons_lt_cons_iff.mpr (Or.inr ⟨rfl, hlt⟩)⟩)

/-! ## Instants -/

/-- An instant that a UTC datetime can name: its year is one of 1 to 9999. -/
structure Instant where
  micros : ℤ
  inRange : -62135596800000000 ≤ micros ∧ micros ≤ 253402300799999999
  deriving DecidableEq

theorem Instant.micros_inj {i j : Instant} : i.micros = j.micros ↔ i = j := by
  cases i
  cases j
  simp

theorem Instant.zero_inRange :
    (-62135596800000000 : ℤ) ≤ 0 ∧ (0 : ℤ) ≤ 253402300799999999 := by
  decide

/-- The aware datetime in UTC. -/
def Instant.toDatetime (i : Instant) : Datetime := ⟨i.micros, some 0⟩

def Instant.clock (i : Instant) : List Char :=
  let seconds := i.micros / 1000000
  let (year, month, day) := civilFromDays (seconds / 86400)
  let time := (seconds % 86400).toNat
  padded 4 year.toNat ++ '-' :: padded 2 month ++ '-' :: padded 2 day ++
    'T' :: padded 2 (time / 3600) ++ ':' :: padded 2 (time / 60 % 60) ++
    ':' :: padded 2 (time % 60) ++
    '.' :: padded 6 (i.micros % 1000000).toNat

def Instant.text (i : Instant) : String :=
  String.ofList (i.clock ++ ['Z'])

theorem Instant.year_bounds (i : Instant) :
    1 ≤ (civilFromDays (i.micros / 1000000 / 86400)).1 ∧
      (civilFromDays (i.micros / 1000000 / 86400)).1 ≤ 9999 := by
  obtain ⟨hlow, hhigh⟩ := i.inRange
  have hfirst : dateKey (-719162) = 545 := by decide +kernel
  have hlast : dateKey 2932896 = 5119903 := by decide +kernel
  have hlow := dateKey_strictMono.monotone
    (show -719162 ≤ i.micros / 1000000 / 86400 by omega)
  have hhigh := dateKey_strictMono.monotone
    (show i.micros / 1000000 / 86400 ≤ 2932896 by omega)
  have hbounds := civilFromDays_bounds (i.micros / 1000000 / 86400)
  rw [hfirst, dateKey] at hlow
  rw [hlast, dateKey] at hhigh
  omega

theorem Instant.isoWallClock_micros (i : Instant) :
    isoWallClock i.micros = .ok i.clock := by
  obtain ⟨hlow, hhigh⟩ := i.year_bounds
  have hyear : ¬ ((civilFromDays (i.micros / 1000000 / 86400)).1 < 1 ∨
      9999 < (civilFromDays (i.micros / 1000000 / 86400)).1) := by
    omega
  simp only [isoWallClock, if_neg hyear]
  rfl

theorem toJsonTimestamp_toDatetime (i : Instant) :
    toJsonTimestamp i.toDatetime = .ok i.text := by
  simp only [toJsonTimestamp, Instant.toDatetime, i.isoWallClock_micros]
  rfl

theorem exists_instant_of_isoWallClock {micros : ℤ} {clock : List Char}
    (h : isoWallClock micros = .ok clock) :
    ∃ i : Instant, i.micros = micros ∧ clock = i.clock := by
  rw [isoWallClock] at h
  dsimp only at h
  split_ifs at h with hyear
  rw [not_or, not_lt, not_lt] at hyear
  obtain ⟨hlow, hhigh⟩ := hyear
  have hbounds := civilFromDays_bounds (micros / 1000000 / 86400)
  have hkey : dateKey (micros / 1000000 / 86400) =
      (civilFromDays (micros / 1000000 / 86400)).1 * 512 +
        (civilFromDays (micros / 1000000 / 86400)).2.1 * 32 +
          (civilFromDays (micros / 1000000 / 86400)).2.2 := rfl
  have hfirst : dateKey (-719163) = 415 := by decide +kernel
  have hlast : dateKey 2932897 = 5120033 := by decide +kernel
  have hafter : -719163 < micros / 1000000 / 86400 := by
    rw [← dateKey_strictMono.lt_iff_lt]
    omega
  have hbefore : micros / 1000000 / 86400 < 2932897 := by
    rw [← dateKey_strictMono.lt_iff_lt]
    omega
  exact ⟨⟨micros, by omega⟩, rfl, (Except.ok.inj h).symm⟩

theorem exists_instant_of_toJsonTimestamp {value : Datetime} {text : String}
    (h : toJsonTimestamp value = .ok text) :
    ∃ i : Instant, i.micros = value.utcMicros ∧ text = i.text := by
  rw [toJsonTimestamp] at h
  split at h
  · cases h
  · obtain ⟨clock, hclock, h⟩ := bind_ok h
    obtain ⟨i, hi, rfl⟩ := exists_instant_of_isoWallClock hclock
    exact ⟨i, hi, (Except.ok.inj h).symm⟩

theorem Instant.text_lt_text {a b : Instant} (h : a.micros < b.micros) :
    a.text < b.text := by
  have ha := a.year_bounds
  have hb := b.year_bounds
  obtain ⟨⟨-, hmonths⟩, -, hdays⟩ :=
    civilFromDays_bounds (b.micros / 1000000 / 86400)
  have hyears : (civilFromDays (b.micros / 1000000 / 86400)).1.toNat <
      10 ^ (3 + 1) := by
    omega
  have hmonths : (civilFromDays (b.micros / 1000000 / 86400)).2.1 <
      10 ^ (1 + 1) := by
    omega
  have hdays : (civilFromDays (b.micros / 1000000 / 86400)).2.2 <
      10 ^ (1 + 1) := by
    omega
  rw [text, text, String.lt_iff]
  simp only [String.toList_ofList, clock, List.append_assoc,
    List.cons_append]
  rcases lt_or_ge (a.micros / 1000000 / 86400) (b.micros / 1000000 / 86400)
    with hday | hday
  · have hdate := civilFromDays_lt hday
    apply padded_cons_lt hyears
    rcases hdate with hyear | ⟨hyear, hdate⟩
    · exact Or.inl (by omega)
    refine Or.inr ⟨by rw [hyear], padded_cons_lt hmonths ?_⟩
    rcases hdate with hmonth | ⟨hmonth, hdate⟩
    · exact Or.inl hmonth
    exact Or.inr ⟨hmonth, padded_cons_lt hdays (Or.inl hdate)⟩
  · have hsame : a.micros / 1000000 / 86400 = b.micros / 1000000 / 86400 := by
      omega
    rw [hsame]
    refine padded_cons_lt hyears (Or.inr ⟨rfl, ?_⟩)
    refine padded_cons_lt hmonths (Or.inr ⟨rfl, ?_⟩)
    refine padded_cons_lt hdays (Or.inr ⟨rfl, ?_⟩)
    -- the same day: the fields of the time of day decide
    have htime : a.micros / 1000000 % 86400 < b.micros / 1000000 % 86400 ∨
        a.micros / 1000000 % 86400 = b.micros / 1000000 % 86400 ∧
          a.micros % 1000000 < b.micros % 1000000 := by
      omega
    have hlow : 0 ≤ a.micros / 1000000 % 86400 := by omega
    have hlow' : 0 ≤ a.micros % 1000000 := by omega
    have hhigh : b.micros / 1000000 % 86400 < 86400 := by omega
    have hhigh' : b.micros % 1000000 < 1000000 := by omega
    generalize a.micros / 1000000 % 86400 = s, b.micros / 1000000 % 86400 = t,
      a.micros % 1000000 = u, b.micros % 1000000 = v at *
    rcases lt_or_ge (s.toNat / 3600) (t.toNat / 3600) with hhour | hhour
    · exact padded_cons_lt (by omega) (Or.inl hhour)
    refine padded_cons_lt (by omega) (Or.inr ⟨by omega, ?_⟩)
    rcases lt_or_ge (s.toNat / 60 % 60) (t.toNat / 60 % 60) with hmin | hmin
    · exact padded_cons_lt (by omega) (Or.inl hmin)
    refine padded_cons_lt (by omega) (Or.inr ⟨by omega, ?_⟩)
    rcases lt_or_ge (s.toNat % 60) (t.toNat % 60) with hsec | hsec
    · exact padded_cons_lt (by omega) (Or.inl hsec)
    refine padded_cons_lt (by omega) (Or.inr ⟨by omega, ?_⟩)
    exact padded_append_lt (by omega) (Or.inl (by omega))

theorem Instant.text_lt_text_iff {a b : Instant} :
    a.text < b.text ↔ a.micros < b.micros := by
  constructor
  · intro h
    by_contra hge
    rcases (not_lt.mp hge).eq_or_lt with heq | hlt
    · obtain rfl : a = b := by
        cases a
        cases b
        simp_all
      exact lt_irrefl _ h
    · exact lt_asymm h (text_lt_text hlt)
  · exact text_lt_text

theorem Instant.decide_text_le_iff (a b : Instant) :
    decide (a.text ≤ b.text) = true ↔ a.micros ≤ b.micros := by
  rw [decide_eq_true_iff, ← not_lt, ← not_lt, text_lt_text_iff]

theorem Instant.text_injective : Function.Injective Instant.text := by
  intro a b h
  have hlt : ∀ {a b : Instant}, a.text = b.text → ¬ a.micros < b.micros :=
    fun heq hlt => (text_lt_text hlt).ne heq
  have hmicros : a.micros = b.micros :=
    le_antisymm (not_lt.mp (hlt h.symm)) (not_lt.mp (hlt h))
  cases a
  cases b
  simp_all

end ApexForensic.Domain
