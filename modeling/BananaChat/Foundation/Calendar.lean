import Mathlib.Data.Nat.Find
import Mathlib.Data.List.Lex
import Mathlib.Order.Lattice

namespace BananaChat.Foundation

/-!
# Dates and moments

A moment is a number of microseconds since the first day of year 1 of the proleptic Gregorian
calendar.
-/

structure Stamp where
  year : ℕ
  month : ℕ
  day : ℕ
  hour : ℕ
  minute : ℕ
  second : ℕ
  micro : ℕ
deriving DecidableEq

namespace Calendar

def isLeap (year : ℕ) : Bool := year % 4 = 0 /\ (year % 100 ≠ 0 \/ year % 400 = 0)

def daysBeforeYear (years : ℕ) : ℕ := 365 * years + years / 4 - years / 100 + years / 400

def daysInMonth (year month : ℕ) : ℕ :=
  if month = 2 then (if isLeap year then 29 else 28)
  else if month = 4 \/ month = 6 \/ month = 9 \/ month = 11 then 30 else 31

def daysBeforeMonth (year : ℕ) : ℕ -> ℕ
  | 0 => 0
  | months + 1 => daysBeforeMonth year months + daysInMonth year (months + 1)

theorem daysBeforeMonth_year (year : ℕ) : daysBeforeMonth year 12 = if isLeap year then 366 else 365 := by
  cases leap : isLeap year with
  | true | false => simp [daysBeforeMonth, daysInMonth, leap]

theorem daysBeforeYear_succ (years : ℕ) :
  daysBeforeYear (years + 1) = daysBeforeYear years + daysBeforeMonth (years + 1) 12 := by
  rw [daysBeforeMonth_year]
  unfold daysBeforeYear isLeap
  rw [Nat.succ_div, Nat.succ_div, Nat.succ_div]
  simp only [Nat.dvd_iff_mod_eq_zero, decide_eq_true_eq]
  have fewer : years / 100 <= years / 4 := Nat.div_le_div_left (by decide) (by decide)
  have hundredth : (years + 1) % 100 = 0 -> (years + 1) % 4 = 0 := by omega
  have fourHundredth : (years + 1) % 400 = 0 -> (years + 1) % 100 = 0 := by omega
  generalize years / 4 = fours at *
  generalize years / 100 = hundreds at *
  generalize years / 400 = fourHundreds at *
  by_cases fourth : (years + 1) % 4 = 0
  · rw [if_pos fourth]
    by_cases century : (years + 1) % 100 = 0
    · rw [if_pos century]
      by_cases last : (years + 1) % 400 = 0
      · rw [if_pos last, if_pos ⟨fourth, .inr last⟩]
        omega
      · rw [if_neg last, if_neg fun leap => leap.2.elim (· century) last]
        omega
    · rw [if_neg century, if_neg (fun last => century (fourHundredth last)), if_pos ⟨fourth, .inl century⟩]
      omega
  · rw [if_neg fourth, if_neg (fun century => fourth (hundredth century)),
      if_neg (fun last => fourth (hundredth (fourHundredth last))), if_neg (fourth ·.1)]
    omega

theorem daysInMonth_pos (year month : ℕ) : 28 <= daysInMonth year month := by
  unfold daysInMonth
  split
  · split <;> omega
  · split <;> omega

theorem daysBeforeMonth_strictMono (year : ℕ) : StrictMono (daysBeforeMonth year) := by
  refine strictMono_nat_of_lt_succ ?_
  intro months
  have long := daysInMonth_pos year (months + 1)
  have next : daysBeforeMonth year (months + 1) = daysBeforeMonth year months + daysInMonth year (months + 1) := rfl
  omega

theorem daysBeforeYear_strictMono : StrictMono daysBeforeYear := by
  refine strictMono_nat_of_lt_succ ?_
  intro years
  rw [daysBeforeYear_succ]
  have positive := daysBeforeMonth_strictMono (years + 1) (show 0 < 12 by decide)
  have zero : daysBeforeMonth (years + 1) 0 = 0 := rfl
  omega

theorem le_daysBeforeYear (years : ℕ) : 365 * years <= daysBeforeYear years := by
  unfold daysBeforeYear
  omega

def yearsBefore (days : ℕ) : ℕ := Nat.findGreatest (daysBeforeYear · <= days) (days / 365)

def monthsBefore (year days : ℕ) : ℕ := Nat.findGreatest (daysBeforeMonth year · <= days) 11

theorem yearsBefore_spec (days : ℕ) :
  daysBeforeYear (yearsBefore days) <= days /\ days < daysBeforeYear (yearsBefore days + 1) := by
  have begun : daysBeforeYear 0 <= days := Nat.zero_le days
  refine ⟨@Nat.findGreatest_spec 0 (daysBeforeYear · <= days) _ _ (Nat.zero_le _) begun, ?_⟩
  by_contra early
  have later := Nat.le_of_not_lt early
  have bound := le_daysBeforeYear (yearsBefore days + 1)
  have within : yearsBefore days + 1 <= days / 365 := by omega
  exact Nat.findGreatest_is_greatest (Nat.lt_succ_self (yearsBefore days)) within later

theorem monthsBefore_spec {year days : ℕ} (within : days < daysBeforeMonth year 12) :
  monthsBefore year days <= 11 /\ daysBeforeMonth year (monthsBefore year days) <= days /\
    days < daysBeforeMonth year (monthsBefore year days + 1) := by
  have last : monthsBefore year days <= 11 := Nat.findGreatest_le 11
  have begun : daysBeforeMonth year 0 <= days := Nat.zero_le days
  refine ⟨last, @Nat.findGreatest_spec 0 (daysBeforeMonth year · <= days) _ _ (Nat.zero_le _) begun, ?_⟩
  by_contra early
  have later := Nat.le_of_not_lt early
  by_cases december : monthsBefore year days = 11
  · rw [december] at later
    exact absurd within (Nat.not_lt_of_le later)
  · exact Nat.findGreatest_is_greatest (Nat.lt_succ_self (monthsBefore year days)) (by omega) later

end Calendar

namespace Stamp

open Calendar

def Valid (stamp : Stamp) : Prop :=
  (1 <= stamp.year /\ 1 <= stamp.month /\ stamp.month <= 12 /\ 1 <= stamp.day /\ stamp.day <= daysInMonth stamp.year stamp.month) /\
    stamp.hour < 24 /\ stamp.minute < 60 /\ stamp.second < 60 /\ stamp.micro < 1000000

instance decidableValid (stamp : Stamp) : Decidable stamp.Valid := by
  unfold Valid
  infer_instance

def fields (stamp : Stamp) : List ℕ :=
  [stamp.year, stamp.month, stamp.day, stamp.hour, stamp.minute, stamp.second, stamp.micro]

def ordinal (stamp : Stamp) : ℕ :=
  daysBeforeYear (stamp.year - 1) + daysBeforeMonth stamp.year (stamp.month - 1) + (stamp.day - 1)

def microsOfDay (stamp : Stamp) : ℕ := ((stamp.hour * 60 + stamp.minute) * 60 + stamp.second) * 1000000 + stamp.micro

def dayMicros : ℕ := 86400000000

def moment (stamp : Stamp) : ℕ := stamp.ordinal * dayMicros + stamp.microsOfDay

def ofMoment (moment : ℕ) : Stamp :=
  let days := moment / dayMicros
  let micros := moment % dayMicros
  let years := yearsBefore days
  let rest := days - daysBeforeYear years
  let months := monthsBefore (years + 1) rest
  { year := years + 1,
    month := months + 1,
    day := rest - daysBeforeMonth (years + 1) months + 1,
    hour := micros / 3600000000,
    minute := micros / 60000000 % 60,
    second := micros / 1000000 % 60,
    micro := micros % 1000000 }

theorem ofMoment_spec (moment : ℕ) : (ofMoment moment).Valid /\ (ofMoment moment).moment = moment := by
  have year := yearsBefore_spec (moment / dayMicros)
  rw [daysBeforeYear_succ] at year
  have month := monthsBefore_spec
    (show moment / dayMicros - daysBeforeYear (yearsBefore (moment / dayMicros)) <
      daysBeforeMonth (yearsBefore (moment / dayMicros) + 1) 12 by omega)
  have split : moment = moment / dayMicros * dayMicros + moment % dayMicros := by
    rw [Nat.mul_comm]
    exact (Nat.div_add_mod moment dayMicros).symm
  have short : moment % dayMicros < dayMicros := Nat.mod_lt _ (by decide)
  revert year month split short
  unfold Valid Stamp.moment ordinal microsOfDay ofMoment
  dsimp only
  generalize moment / dayMicros = days
  generalize moment % dayMicros = micros
  generalize yearsBefore days = years
  generalize monthsBefore (years + 1) (days - daysBeforeYear years) = months
  intro _ _ split _
  have next : daysBeforeMonth (years + 1) (months + 1) =
      daysBeforeMonth (years + 1) months + daysInMonth (years + 1) (months + 1) := rfl
  have day : dayMicros = 86400000000 := rfl
  refine ⟨⟨⟨by omega, by omega, by omega, by omega, by omega⟩, by omega, by omega, by omega, by omega⟩, ?_⟩
  have days' : daysBeforeYear (years + 1 - 1) + daysBeforeMonth (years + 1) (months + 1 - 1) +
      (days - daysBeforeYear years - daysBeforeMonth (years + 1) months + 1 - 1) = days := by
    rw [Nat.add_sub_cancel, Nat.add_sub_cancel, Nat.add_sub_cancel]
    omega
  have time : ((micros / 3600000000 * 60 + micros / 60000000 % 60) * 60 + micros / 1000000 % 60) * 1000000 +
      micros % 1000000 = micros := by
    omega
  rw [days', time]
  exact split.symm

theorem microsOfDay_lt {stamp : Stamp} (valid : stamp.Valid) : stamp.microsOfDay < dayMicros := by
  rcases valid with ⟨_, _, _, _, _⟩
  unfold microsOfDay dayMicros
  omega

theorem ordinal_lt_year {stamp : Stamp} (valid : stamp.Valid) : stamp.ordinal < daysBeforeYear stamp.year := by
  rcases valid with ⟨⟨year, month, _, _, _⟩, _⟩
  have next : daysBeforeMonth stamp.year (stamp.month - 1 + 1) =
      daysBeforeMonth stamp.year (stamp.month - 1) + daysInMonth stamp.year (stamp.month - 1 + 1) := rfl
  have within := (daysBeforeMonth_strictMono stamp.year).monotone (show stamp.month - 1 + 1 <= 12 by omega)
  have whole := daysBeforeYear_succ (stamp.year - 1)
  rw [Nat.sub_add_cancel month] at next within
  rw [Nat.sub_add_cancel year] at whole
  unfold ordinal
  omega

variable {first second : Stamp}

theorem ordinal_lt (firstValid : first.Valid) (earlier : first.year < second.year \/ first.year = second.year /\
    (first.month < second.month \/ first.month = second.month /\ first.day < second.day)) :
  first.ordinal < second.ordinal := by
  rcases earlier with year | ⟨year, month | ⟨month, _⟩⟩
  · have before := ordinal_lt_year firstValid
    have years := daysBeforeYear_strictMono.monotone (Nat.le_sub_one_of_lt year)
    unfold ordinal at before ⊢
    omega
  · rcases firstValid with ⟨⟨_, january, _, _, _⟩, _⟩
    have next : daysBeforeMonth first.year (first.month - 1 + 1) =
        daysBeforeMonth first.year (first.month - 1) + daysInMonth first.year (first.month - 1 + 1) := rfl
    have months := (daysBeforeMonth_strictMono first.year).monotone (show first.month - 1 + 1 <= second.month - 1 by omega)
    rw [Nat.sub_add_cancel january] at next months
    unfold ordinal
    rw [<- year]
    omega
  · unfold ordinal
    rw [year, month]
    have firstDay := firstValid.1.2.2.2.1
    omega

theorem moment_lt (firstValid : first.Valid) (secondValid : second.Valid) (earlier : first.fields < second.fields) :
  first.moment < second.moment := by
  have firstShort := microsOfDay_lt firstValid
  have secondShort := microsOfDay_lt secondValid
  have earlierDay : first.ordinal < second.ordinal -> first.moment < second.moment := by
    intro day
    have step : first.ordinal * dayMicros + dayMicros <= second.ordinal * dayMicros := by
      rw [<- Nat.succ_mul]
      exact Nat.mul_le_mul_right dayMicros day
    unfold moment
    omega
  have sameDay : first.year = second.year -> first.month = second.month -> first.day = second.day ->
      first.microsOfDay < second.microsOfDay -> first.moment < second.moment := by
    intro year month day time
    have ordinals : first.ordinal = second.ordinal := by
      unfold ordinal
      rw [year, month, day]
    unfold moment
    rw [ordinals]
    omega
  rcases firstValid.2 with ⟨_, _, _, _⟩
  rcases secondValid.2 with ⟨_, _, _, _⟩
  unfold fields at earlier
  simp only [List.cons_lt_cons_iff, List.not_lt_nil, and_false, or_false] at earlier
  rcases earlier with year | ⟨year, month | ⟨month, day | ⟨day, _⟩⟩⟩
  · exact earlierDay (ordinal_lt firstValid (.inl year))
  · exact earlierDay (ordinal_lt firstValid (.inr ⟨year, .inl month⟩))
  · exact earlierDay (ordinal_lt firstValid (.inr ⟨year, .inr ⟨month, day⟩⟩))
  · refine sameDay year month day ?_
    unfold microsOfDay
    omega

theorem fields_injective (same : first.fields = second.fields) : first = second := by
  cases first
  cases second
  unfold fields at same
  rcases same with ⟨rfl, rfl, rfl, rfl, rfl, rfl, rfl⟩
  rfl

theorem fields_le_iff (firstValid : first.Valid) (secondValid : second.Valid) :
  first.fields <= second.fields ↔ first.moment <= second.moment := by
  constructor
  · intro earlier
    rcases earlier.lt_or_eq with before | same
    · exact (moment_lt firstValid secondValid before).le
    · rw [fields_injective same]
  · intro earlier
    by_contra later
    exact absurd (moment_lt secondValid firstValid (not_le.mp later)) (not_lt.mpr earlier)

/-- A leap day, read and written. -/
example : ofMoment (moment ⟨2024, 2, 29, 23, 59, 59, 999999⟩ + 1) = ⟨2024, 3, 1, 0, 0, 0, 0⟩ := by decide +kernel

end Stamp
end BananaChat.Foundation
