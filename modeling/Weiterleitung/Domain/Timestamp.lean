/-
# `Domain.Timestamp` — the text of an instant sorts like the instant

The store compares timestamps as text.  For the years 0 to 9999 that is right: date and
time of day are digits in places of their own, the more significant ones first, and where
two fractions end at different places, `+` comes before the digits.

    later days are in later months, or later in one     (`monthIndex_lt`)
    later instants have later text, and the other way
      round                                             (`toRfc3339_lt_iff`)

The calendar counts years from March.  `monthIndex` counts months, and a date is a month
and a day in it.
-/
import Mathlib
import Weiterleitung.Domain.Instant

namespace Weiterleitung

namespace Instant

/-! ## The order of instants -/

theorem ext_key : Function.Injective fun t : Instant => toLex (t.seconds, t.nanos) := by
  rintro ⟨s, n⟩ ⟨s', n'⟩ h
  obtain ⟨rfl, rfl⟩ := Prod.mk.injEq .. ▸ toLex_inj.mp h
  rfl

instance : LinearOrder Instant :=
  LinearOrder.lift' (fun t : Instant => toLex (t.seconds, t.nanos)) ext_key

theorem lt_iff {t u : Instant} :
    t < u ↔ t.seconds < u.seconds ∨ t.seconds = u.seconds ∧ t.nanos < u.nanos :=
  Prod.Lex.toLex_lt_toLex

theorem addMinutes_le (t : Instant) {m n : Int} (h : m ≤ n) :
    t.addMinutes m ≤ t.addMinutes n := by
  rcases lt_or_eq_of_le h with h | rfl
  · exact le_of_lt (lt_iff.mpr (Or.inl (by unfold addMinutes; dsimp only; omega)))
  · exact le_refl _

theorem le_addMinutes (t : Instant) {n : Int} (h : 0 ≤ n) : t ≤ t.addMinutes n := by
  have h0 := t.addMinutes_le h
  rwa [show t.addMinutes 0 = t by unfold addMinutes; simp] at h0

/-! ## The calendar -/

/-- The year of a day in a cycle of 400 years. -/
def yearOfEra (day : Nat) : Nat := (day - day / 1460 + day / 36524 - day / 146096) / 365

/-- The first day of a year in a cycle. -/
def startOfYear (year : Nat) : Nat := 365 * year + year / 4 - year / 100

theorem yearOfEra_le {a b : Nat} (h : a ≤ b) : yearOfEra a ≤ yearOfEra b := by
  refine monotone_nat_of_le_succ (fun n => ?_) h
  unfold yearOfEra
  omega

theorem yearOfEra_lt {day : Nat} (h : day < 146097) : yearOfEra day < 400 := by
  have hlast := yearOfEra_le (Nat.le_of_lt_succ h)
  have h399 : yearOfEra 146096 = 399 := by decide
  omega

/-- A day is not before the first day of its year. -/
theorem startOfYear_le {day : Nat} (h : day < 146097) : startOfYear (yearOfEra day) ≤ day := by
  obtain ⟨y, hy⟩ : ∃ y, y = yearOfEra day := ⟨_, rfl⟩
  rw [← hy]
  unfold yearOfEra at hy
  unfold startOfYear
  have hleap : y / 4 ≤ day / 1460 := by omega
  have hcentury : day / 36524 ≤ y / 100 + 1 := by omega
  by_cases hf : day / 36524 ≤ y / 100
  · omega
  · have he : y / 4 ≤ 25 * (day / 36524) - 1 := by omega
    have ha : 25 * (day / 36524) ≤ day / 1460 := by omega
    omega

theorem le_startOfYear {day : Nat} (h : day < 146097) :
    day ≤ startOfYear (yearOfEra day) + 366 := by
  obtain ⟨y, hy⟩ : ∃ y, y = yearOfEra day := ⟨_, rfl⟩
  rw [← hy]
  unfold yearOfEra at hy
  unfold startOfYear
  have hfour : day / 36524 ≤ 4 := by omega
  obtain ⟨b, hb⟩ : ∃ b, b = day / 36524 := ⟨_, rfl⟩
  rw [← hb] at hfour hy
  interval_cases b <;> omega

/-- The day of the year, from March on. -/
def dayOfYear (day : Nat) : Nat := day - startOfYear (yearOfEra day)

def fromMarch (day : Nat) : Nat := (5 * dayOfYear day + 2) / 153

def dayOfMonth (day : Nat) : Nat := dayOfYear day - (153 * fromMarch day + 2) / 5 + 1

/-- The day in its cycle of a number of days since 1970. -/
def dayOfEra (days : Int) : Nat := ((days + 719468) % 146097).toNat

/-- The months up to a day. -/
def monthIndex (days : Int) : Int :=
  12 * (yearOfEra (dayOfEra days) + (days + 719468) / 146097 * 400) + fromMarch
    (dayOfEra days) + 2

theorem dayOfEra_lt (days : Int) : dayOfEra days < 146097 := by
  unfold dayOfEra
  omega

theorem fromMarch_le {day : Nat} (h : day < 146097) : fromMarch day ≤ 11 := by
  have h1 := le_startOfYear h
  unfold fromMarch dayOfYear
  omega

theorem dayOfMonth_le (day : Nat) : dayOfMonth day ≤ 31 := by
  unfold dayOfMonth fromMarch
  omega

/-- A date is a month and a day in it. -/
theorem civil_eq (days : Int) : civil days =
    (monthIndex days / 12, (monthIndex days % 12).toNat + 1, dayOfMonth (dayOfEra days)) := by
  have hmarch := fromMarch_le (dayOfEra_lt days)
  have hcivil : civil days =
      (yearOfEra (dayOfEra days) + (days + 719468) / 146097 * 400 +
        (if (if fromMarch (dayOfEra days) < 10 then fromMarch (dayOfEra days) + 3
          else fromMarch (dayOfEra days) - 9) ≤ 2 then 1 else 0),
        if fromMarch (dayOfEra days) < 10 then fromMarch (dayOfEra days) + 3
          else fromMarch (dayOfEra days) - 9,
        dayOfMonth (dayOfEra days)) := rfl
  rw [hcivil]
  unfold monthIndex
  by_cases h : fromMarch (dayOfEra days) < 10
  · simp only [if_pos h, Prod.mk.injEq, and_true]
    rw [if_neg (by omega)]
    constructor <;> omega
  · simp only [if_neg h, Prod.mk.injEq, and_true]
    rw [if_pos (by omega)]
    constructor <;> omega

/-- Later days are in later months, or later in the same month. -/
theorem monthIndex_lt {a b : Int} (h : a < b) : monthIndex a < monthIndex b ∨
    monthIndex a = monthIndex b ∧ dayOfMonth (dayOfEra a) < dayOfMonth (dayOfEra b) := by
  have ha := dayOfEra_lt a
  have hb := dayOfEra_lt b
  have hma := fromMarch_le ha
  have hya := yearOfEra_lt ha
  by_cases hera : (a + 719468) / 146097 < (b + 719468) / 146097
  · left
    unfold monthIndex
    omega
  · -- the same cycle
    have hera' : (a + 719468) / 146097 = (b + 719468) / 146097 := by omega
    have hday : dayOfEra a < dayOfEra b := by
      unfold dayOfEra
      omega
    have hyear := yearOfEra_le (Nat.le_of_lt hday)
    rcases Nat.lt_or_eq_of_le hyear with hyear | hyear
    · left
      unfold monthIndex
      omega
    · have hstart := startOfYear_le ha
      have hdoy : dayOfYear (dayOfEra a) < dayOfYear (dayOfEra b) := by
        unfold dayOfYear
        rw [← hyear]
        omega
      unfold monthIndex
      rw [← hyear, ← hera']
      unfold dayOfMonth fromMarch
      omega

/-- Nothing happens before year 0 or after year 9999. -/
def InYears (t : Instant) :
    Prop := 0 ≤ (civil (t.seconds / 86400)).1 ∧ (civil (t.seconds / 86400)).1 ≤ 9999

instance (t : Instant) : Decidable t.InYears := inferInstanceAs (Decidable (_ ∧ _))

theorem year_le {t u : Instant} (h : t ≤ u) :
    (civil (t.seconds / 86400)).1 ≤ (civil (u.seconds / 86400)).1 := by
  have hseconds : t.seconds ≤ u.seconds := by
    rcases lt_or_eq_of_le h with h | rfl
    · rcases lt_iff.mp h with h | ⟨h, -⟩
      · exact le_of_lt h
      · exact le_of_eq h
    · exact le_refl _
  rw [civil_eq, civil_eq]
  dsimp only
  rcases Int.lt_or_eq_of_le (Int.ediv_le_ediv (by decide : (0 : Int) < 86400) hseconds)
    with h | h
  · rcases monthIndex_lt h with h | ⟨h, -⟩ <;> omega
  · rw [h]

/-- What lies between two instants of these years is in these years. -/
theorem InYears.between {t u v : Instant} (ht : t.InYears) (hv : v.InYears)
    (htu : t ≤ u) (huv : u ≤ v) :
    u.InYears :=
  ⟨le_trans ht.1 (year_le htu), le_trans (year_le huv) hv.2⟩

/-! ## Digits -/

theorem toNat_digit {k : Nat} (h : k < 10) : (Char.ofNat (48 + k)).toNat = 48 + k := by
  rw [Char.toNat_ofNat, if_pos]
  exact Or.inl (by omega)

theorem digit_lt {j k : Nat} (h : j < k) (hk : k < 10) :
    Char.ofNat (48 + j) < Char.ofNat (48 + k) := by
  rw [Char.lt_def, UInt32.lt_iff_toNat_lt]
  have hj := toNat_digit (Nat.lt_trans h hk)
  have hk := toNat_digit hk
  unfold Char.toNat at hj hk
  omega

/-- Numbers are written in order, whatever follows them. -/
theorem digits_lt {x y : Str} : ∀ {width n m : Nat}, n < m → m < 10 ^ width →
    digits width n ++ x < digits width m ++ y
  | 0, n, m, h, hm => absurd hm (by omega)
  | width + 1, n, m, h, hm => by
      have hdiv : m / 10 < 10 ^ width := by
        rw [Nat.div_lt_iff_lt_mul (by decide)]
        rwa [Nat.pow_succ] at hm
      simp only [digits, List.append_assoc, List.singleton_append]
      rcases Nat.lt_or_eq_of_le (Nat.div_le_div_right (c := 10) (Nat.le_of_lt h))
        with hlt | heq
      · exact digits_lt hlt hdiv
      · rw [heq]
        refine List.append_left_lt (List.Lex.rel (digit_lt ?_ (Nat.mod_lt _ (by decide))))
        omega

theorem digits_add (v : Nat) :
    ∀ (w n : Nat), digits (v + w) n = digits v (n / 10 ^ w) ++ digits w n
  | 0, n => by simp [digits]
  | w + 1, n => by
      have ih := digits_add v w (n / 10)
      rw [← Nat.add_assoc, digits, ih, Nat.div_div_eq_div_mul, Nat.pow_succ,
        Nat.mul_comm (10 ^ w) 10, digits, List.append_assoc]

theorem digits_mod : ∀ (w n : Nat), digits w (n % 10 ^ w) = digits w n
  | 0, _ => rfl
  | w + 1, n => by
      have hdiv : n % 10 ^ (w + 1) / 10 = n / 10 % 10 ^ w := by
        rw [Nat.pow_succ, Nat.mul_comm, Nat.mod_mul_right_div_self]
      have hmod : n % 10 ^ (w + 1) % 10 = n % 10 :=
        Nat.mod_mod_of_dvd n ⟨10 ^ w, by rw [Nat.pow_succ, Nat.mul_comm]⟩
      rw [digits, digits, hdiv, digits_mod w (n / 10), hmod]

/-- A number begins with a digit. -/
theorem digits_head :
    ∀ (w n : Nat), ∃ k s, k < 10 ∧ digits (w + 1) n = Char.ofNat (48 + k) :: s
  | 0, n => ⟨n % 10, [], Nat.mod_lt _ (by decide), rfl⟩
  | w + 1, n => by
      obtain ⟨k, s, hk, hs⟩ := digits_head w (n / 10)
      refine ⟨k, s ++ [Char.ofNat (48 + n % 10)], hk, ?_⟩
      rw [digits, hs]
      rfl

/-! ## Fractions -/

/-- The end of a timestamp. -/
def zone : Str := "+00:00"

theorem zone_lt_digits (w n : Nat) (x : Str) : zone < digits (w + 1) n ++ x := by
  obtain ⟨k, s, hk, hs⟩ := digits_head w n
  have hzone : zone = '+' :: "00:00".toList := rfl
  rw [hs, hzone]
  refine List.Lex.rel ?_
  rw [Char.lt_def, UInt32.lt_iff_toNat_lt]
  have hdigit := toNat_digit hk
  unfold Char.toNat at hdigit
  have hplus : '+'.val.toNat = 43 := rfl
  omega

/-- Three digits and then the rest, or the end if nothing but naught is left. -/
def group (base : Nat) (rest : Nat → Str) (n : Nat) : Str :=
  if n = 0 then zone else digits 3 (n / base) ++ rest (n % base)

theorem group_lt {base : Nat} {rest : Nat → Str} (hrest : ∀ a b, a < b → b < base →
      rest a < rest b) (a b : Nat)
    (h : a < b) (hb : b < 1000 * base) : group base rest a < group base rest b := by
  have hbase : 0 < base := by
    by_contra h0
    have : base = 0 := by omega
    subst this
    omega
  unfold group
  rw [if_neg (by omega : ¬ b = 0)]
  by_cases ha : a = 0
  · rw [if_pos ha]
    exact zone_lt_digits 2 _ _
  · rw [if_neg ha]
    rcases Nat.lt_or_eq_of_le (Nat.div_le_div_right (c := base) (Nat.le_of_lt h))
      with hlt | heq
    · refine digits_lt hlt ?_
      rw [Nat.div_lt_iff_lt_mul hbase]
      exact hb
    · rw [heq]
      refine List.append_left_lt (hrest _ _ ?_ (Nat.mod_lt _ hbase))
      have h1 := Nat.div_add_mod a base
      have h2 := Nat.div_add_mod b base
      rw [heq] at h1
      omega

/-- Milliseconds, microseconds, nanoseconds, as far as they go. -/
def groups : Nat → Str := group 1000000 (group 1000 (group 1 fun _ => zone))

theorem groups_lt (a b : Nat) (h : a < b) (hb : b < 1000000000) : groups a < groups b := by
  refine group_lt (fun a b h hb => group_lt (fun a b h hb => group_lt ?_ a b h ?_) a b h ?_)
    a b h hb
  · intro a b h hb
    omega
  · exact hb
  · exact hb

/-- The fraction is written in groups of three digits. -/
theorem fractionText_zone (n : Nat) :
    fractionText n ++ zone = if n = 0 then zone else '.' :: groups n := by
  unfold fractionText
  by_cases h0 : n = 0
  · rw [if_pos h0, if_pos h0]
    rfl
  rw [if_neg h0, if_neg h0]
  unfold groups group
  rw [if_neg h0]
  by_cases h1 : n % 1000000 = 0
  · rw [if_pos h1, if_pos h1]
    rfl
  rw [if_neg h1, if_neg h1]
  have hmicro : digits 3 (n % 1000000 / 1000) = digits 3 (n / 1000) := by
    rw [← digits_mod 3 (n / 1000), ← digits_mod 3 (n % 1000000 / 1000)]
    congr 1
    omega
  have hmilli : n / 1000 / 10 ^ 3 = n / 1000000 := by omega
  by_cases h2 : n % 1000 = 0
  · rw [if_pos h2, if_pos (by omega), hmicro]
    have hsplit : digits 6 (n / 1000) = digits 3 (n / 1000000) ++ digits 3 (n / 1000) := by
      rw [digits_add 3 3, hmilli]
    rw [hsplit, List.cons_append, List.append_assoc]
  · rw [if_neg h2, if_neg (by omega), hmicro]
    have hnano : digits 3 (n % 1000000 % 1000 / 1) = digits 3 n := by
      rw [← digits_mod 3 n]
      congr 1
      omega
    have hsplit : digits 9 n = digits 3 (n / 1000000) ++
        (digits 3 (n / 1000) ++ digits 3 n) := by
      rw [digits_add 6 3, show n / 10 ^ 3 = n / 1000 from rfl, digits_add 3 3,
        hmilli, List.append_assoc]
    rw [hnano, hsplit, List.cons_append, List.append_assoc, List.append_assoc]

theorem fraction_lt {a b : Nat} (h : a < b) (hb : b < 1000000000) :
    fractionText a ++ zone < fractionText b ++ zone := by
  rw [fractionText_zone, fractionText_zone, if_neg (by omega : ¬ b = 0)]
  by_cases ha : a = 0
  · rw [if_pos ha]
    exact List.Lex.rel (by decide : '+' < '.')
  · rw [if_neg ha]
    exact List.Lex.cons (groups_lt a b h hb)

/-! ## Timestamps -/

/-- The time of day, the fraction and the zone. -/
def timeText (second nanos : Nat) : Str :=
  digits 2 (second / 3600) ++ ':' ::
    (digits 2 (second / 60 % 60) ++ ':' :: (digits 2 (second % 60) ++
    (fractionText nanos ++ zone)))

/-- A date, and what follows it. -/
def dateText (year month day : Nat) (rest : Str) : Str :=
  digits 4 year ++ '-' :: (digits 2 month ++ '-' :: (digits 2 day ++ 'T' :: rest))

theorem timeText_lt {a b : Nat} (h : a < b) (hb : b < 86400) (n m : Nat) :
    timeText a n < timeText b m := by
  unfold timeText
  rcases Nat.lt_or_eq_of_le (Nat.div_le_div_right (c := 3600) (Nat.le_of_lt h))
    with hlt | hhour
  · exact digits_lt hlt (by omega)
  rw [hhour]
  refine List.append_left_lt (List.Lex.cons ?_)
  rcases Nat.lt_or_eq_of_le (show a / 60 % 60 ≤ b / 60 % 60 by omega) with hlt | hminute
  · exact digits_lt hlt (by omega)
  rw [hminute]
  refine List.append_left_lt (List.Lex.cons ?_)
  exact digits_lt (by omega) (by omega)

theorem timeText_lt_nanos (second : Nat) {n m : Nat} (h : n < m) (hm : m < 1000000000) :
    timeText second n < timeText second m := by
  unfold timeText
  refine List.append_left_lt (List.Lex.cons (List.append_left_lt (List.Lex.cons ?_)))
  exact List.append_left_lt (fraction_lt h hm)

theorem dateText_lt_month {year year' month month' : Nat} (hyear : year' < 10000)
    (hmonth : month' < 100) (h : year < year' ∨ year = year' ∧ month < month') (day day' : Nat)
    (rest rest' : Str) :
    dateText year month day rest < dateText year' month' day' rest' := by
  unfold dateText
  rcases h with h | ⟨rfl, h⟩
  · exact digits_lt h hyear
  · exact List.append_left_lt (List.Lex.cons (digits_lt h hmonth))

theorem dateText_lt_day (year month : Nat) {day day' : Nat} (hday : day' < 100)
    (h : day < day') (rest rest' : Str) :
    dateText year month day rest < dateText year month day' rest' := by
  unfold dateText
  exact List.append_left_lt
    (List.Lex.cons (List.append_left_lt (List.Lex.cons (digits_lt h hday))))

theorem dateText_lt_rest (year month day : Nat) {rest rest' : Str} (h : rest < rest') :
    dateText year month day rest < dateText year month day rest' := by
  unfold dateText
  refine List.append_left_lt (List.Lex.cons (List.append_left_lt (List.Lex.cons ?_)))
  exact List.append_left_lt (List.Lex.cons h)

/-- The parts of a timestamp of these years. -/
theorem toRfc3339_eq {t : Instant} (h : t.InYears) : t.toRfc3339 =
    dateText (monthIndex (t.seconds / 86400) / 12).toNat
      ((monthIndex (t.seconds / 86400) % 12).toNat + 1)
      (dayOfMonth (dayOfEra (t.seconds / 86400)))
      (timeText (t.seconds % 86400).toNat t.nanos) := by
  have hyears := h
  unfold InYears at hyears
  unfold toRfc3339
  rw [civil_eq] at hyears ⊢
  dsimp only at hyears ⊢
  have habs : (monthIndex (t.seconds / 86400) / 12).natAbs
      = (monthIndex (t.seconds / 86400) / 12).toNat := by
    omega
  rw [yearText, if_pos hyears, habs]
  simp [dateText, timeText, zone]

/-- Later instants have later text. -/
theorem toRfc3339_lt {t u : Instant} (ht : t.InYears) (hu : u.InYears) (h : t < u) :
    t.toRfc3339 < u.toRfc3339 := by
  have hyears := hu
  unfold InYears at hyears
  rw [civil_eq] at hyears
  dsimp only at hyears
  have ht0 := ht.1
  rw [civil_eq] at ht0
  dsimp only at ht0
  rw [toRfc3339_eq ht, toRfc3339_eq hu]
  have hseconds : t.seconds ≤ u.seconds := by
    rcases lt_iff.mp h with h | ⟨h, -⟩
    · exact le_of_lt h
    · exact le_of_eq h
  rcases lt_or_eq_of_le (Int.ediv_le_ediv (by decide : (0 : Int) < 86400) hseconds)
    with hday | hday
  · rcases monthIndex_lt hday with hmonth | ⟨hmonth, hday⟩
    · exact dateText_lt_month (by omega) (by omega) (by omega) _ _ _ _
    · rw [hmonth]
      exact dateText_lt_day _ _ (Nat.lt_of_le_of_lt (dayOfMonth_le _) (by decide)) hday _ _
  · rw [hday]
    refine dateText_lt_rest _ _ _ ?_
    rcases lt_iff.mp h with h | ⟨h, hnanos⟩
    · exact timeText_lt (by omega) (by omega) _ _
    · rw [h]
      exact timeText_lt_nanos _ hnanos u.nanos.isLt

/-- For the years 0 to 9999 text order is chronological order. -/
theorem toRfc3339_lt_iff {t u : Instant} (ht : t.InYears) (hu : u.InYears) :
    t.toRfc3339 < u.toRfc3339 ↔ t < u := by
  constructor
  · intro h
    by_contra h0
    rcases lt_or_eq_of_le (not_lt.mp h0) with h1 | rfl
    · exact lt_asymm h (toRfc3339_lt hu ht h1)
    · exact lt_irrefl _ h
  · exact toRfc3339_lt ht hu

theorem toRfc3339_le_iff {t u : Instant} (ht : t.InYears) (hu : u.InYears) :
    t.toRfc3339 ≤ u.toRfc3339 ↔ t ≤ u := by
  rw [← not_lt, ← not_lt, toRfc3339_lt_iff hu ht]

example : toRfc3339 ⟨0, 5000000⟩ < toRfc3339 ⟨0, 5000001⟩ := by decide +kernel

end Instant

end Weiterleitung
