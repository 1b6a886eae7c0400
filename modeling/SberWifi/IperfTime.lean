import Mathlib.Algebra.Order.Group.Nat

namespace SberWifi.IperfTime

structure Time where
  secs : UInt32
  usecs : UInt32
deriving DecidableEq

def timeAddUsecs (time : Time) (usecs : UInt64) : Time :=
  let secs := time.secs + (usecs / 1000000).toUInt32
  let rest := time.usecs + (usecs % 1000000).toUInt32
  if 1000000 ≤ rest then ⟨secs + rest / 1000000, rest % 1000000⟩ else ⟨secs, rest⟩

def timeCompare (time1 time2 : Time) : Int :=
  if time1.secs < time2.secs then -1
  else if time1.secs > time2.secs then 1
  else if time1.usecs < time2.usecs then -1
  else if time1.usecs > time2.usecs then 1
  else 0

/-- What `iperf_time_diff` does with the later and the earlier time. -/
def timeMinus (later earlier : Time) : Time :=
  if later.usecs < earlier.usecs then
    ⟨later.secs - earlier.secs - 1, later.usecs + 1000000 - earlier.usecs⟩
  else ⟨later.secs - earlier.secs, later.usecs - earlier.usecs⟩

/-- The difference, and whether the first time is past. -/
def timeDiff (time1 time2 : Time) : Time × Bool :=
  let cmp := timeCompare time1 time2
  if cmp = 0 then (⟨0, 0⟩, true)
  else if cmp = 1 then (timeMinus time1 time2, false)
  else (timeMinus time2 time1, true)

/-- The clock gives such times, and so does adding. -/
def Time.WellFormed (time : Time) : Prop := time.usecs.toNat < 1000000

instance (time : Time) : Decidable time.WellFormed := inferInstanceAs (Decidable (_ < _))

def Time.value (time : Time) : Nat := time.secs.toNat * 1000000 + time.usecs.toNat

def Time.rank (time : Time) : Nat := time.secs.toNat * 2 ^ 32 + time.usecs.toNat

theorem timeCompare_cases (time1 time2 : Time) :
    (timeCompare time1 time2 = -1 ∧ time1.rank < time2.rank) ∨
      (timeCompare time1 time2 = 0 ∧ time1.rank = time2.rank) ∨
      (timeCompare time1 time2 = 1 ∧ time2.rank < time1.rank) := by
  have h1 := time1.usecs.toNat_lt
  have h2 := time2.usecs.toNat_lt
  simp only [timeCompare, Time.rank, UInt32.lt_iff_toNat_lt, gt_iff_lt]
  split_ifs with ha hb hc hd
  · exact .inl ⟨rfl, by omega⟩
  · exact .inr (.inr ⟨rfl, by omega⟩)
  · exact .inl ⟨rfl, by omega⟩
  · exact .inr (.inr ⟨rfl, by omega⟩)
  · exact .inr (.inl ⟨rfl, by omega⟩)

theorem timeCompare_lt_zero {time1 time2 : Time} : timeCompare time1 time2 < 0 ↔ time1.rank < time2.rank := by
  rcases timeCompare_cases time1 time2 with h | h | h <;> omega

theorem timeCompare_pos {time1 time2 : Time} : 0 < timeCompare time1 time2 ↔ time2.rank < time1.rank := by
  rcases timeCompare_cases time1 time2 with h | h | h <;> omega

theorem rank_lt_iff {time1 time2 : Time} (h1 : time1.WellFormed) (h2 : time2.WellFormed) :
    time1.rank < time2.rank ↔ time1.value < time2.value := by
  simp only [Time.rank, Time.value, Time.WellFormed] at *
  omega

section Adding

theorem million_toNat : (1000000 : UInt64).toNat = 1000000 := rfl

theorem rest_toNat (usecs : UInt64) : (usecs % 1000000).toUInt32.toNat = usecs.toNat % 1000000 := by
  rw [UInt64.toNat_toUInt32, UInt64.toNat_mod, million_toNat]
  omega

theorem whole_toNat (usecs : UInt64) : (usecs / 1000000).toUInt32.toNat = usecs.toNat / 1000000 % 2 ^ 32 := by
  rw [UInt64.toNat_toUInt32, UInt64.toNat_div, million_toNat]

theorem timeAddUsecs_wellFormed (time : Time) (usecs : UInt64) : (timeAddUsecs time usecs).WellFormed := by
  simp only [timeAddUsecs, UInt32.le_iff_toNat_le, UInt32.toNat_add, rest_toNat, Time.WellFormed]
  split_ifs
  · simp only [UInt32.toNat_mod, UInt32.toNat_add, rest_toNat, UInt32.reduceToNat]
    omega
  · simp only [UInt32.toNat_add, rest_toNat, UInt32.reduceToNat] at *
    omega

/-- Adding is exact as long as the seconds fit. -/
theorem timeAddUsecs_value {time : Time} (h : time.WellFormed) (usecs : UInt64)
    (hfit : time.value + usecs.toNat < 2 ^ 32 * 1000000) :
    (timeAddUsecs time usecs).value = time.value + usecs.toNat := by
  simp only [timeAddUsecs, UInt32.le_iff_toNat_le, UInt32.toNat_add, rest_toNat]
  simp only [Time.WellFormed, Time.value] at *
  split_ifs
  · simp only [UInt32.toNat_mod, UInt32.toNat_add, UInt32.toNat_div, rest_toNat, whole_toNat,
      UInt32.reduceToNat] at *
    omega
  · simp only [UInt32.toNat_add, rest_toNat, whole_toNat, UInt32.reduceToNat] at *
    omega

end Adding

section Difference

variable {time1 time2 : Time} (h1 : time1.WellFormed) (h2 : time2.WellFormed)
include h1 h2

end Difference

end SberWifi.IperfTime
