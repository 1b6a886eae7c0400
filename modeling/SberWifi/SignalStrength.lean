import Mathlib.Data.Nat.Basic
import Mathlib.Order.Lattice
import Mathlib.Tactic.SplitIfs

namespace SberWifi.SignalStrength

def minRssi : Int32 := -100

def maxRssi : Int32 := -55

def calculateSignalLevel (rssi numLevels : Int32) : Int32 :=
  if rssi ≤ minRssi then 0
  else if rssi ≥ maxRssi then numLevels - 1
  else (rssi - minRssi) * (numLevels - 1) / (maxRssi - minRssi)

inductive Strength
  | ZERO
  | ONE
  | TWO
  | THREE
  | FOUR
deriving DecidableEq, Repr

def Strength.values : List Strength := [.ZERO, .ONE, .TWO, .THREE, .FOUR]

def Strength.getNumberOfStrength : Strength → Int32
  | .ZERO => 1
  | .ONE => 2
  | .TWO => 3
  | .THREE => 4
  | .FOUR => 5

/-- `values()[index]`. The proof says that the index is in range, so no access
of the source can throw. -/
def Strength.get (index : Int32) (h : 0 ≤ index.toInt ∧ index.toInt < 5) : Strength :=
  Strength.values.get ⟨index.toInt.toNat, by
    have hlt : index.toInt.toNat < 5 := by omega
    exact hlt⟩

theorem rssi_sub_toInt {rssi : Int32} (hmin : ¬ rssi ≤ minRssi) (hmax : ¬ rssi ≥ maxRssi) :
    (rssi - minRssi).toInt = rssi.toInt + 100 := by
  rw [Int32.le_iff_toInt_le, show minRssi.toInt = -100 by decide] at hmin
  rw [ge_iff_le, Int32.le_iff_toInt_le, show maxRssi.toInt = -55 by decide] at hmax
  rw [Int32.toInt_sub, show minRssi.toInt = -100 by decide, Int.bmod_eq_of_le] <;> omega

theorem rssi_mul_toInt {rssi : Int32} (hmin : ¬ rssi ≤ minRssi) (hmax : ¬ rssi ≥ maxRssi) :
    ((rssi - minRssi) * (5 - 1)).toInt = (rssi.toInt + 100) * 4 := by
  have hsub := rssi_sub_toInt hmin hmax
  rw [Int32.le_iff_toInt_le, show minRssi.toInt = -100 by decide] at hmin
  rw [ge_iff_le, Int32.le_iff_toInt_le, show maxRssi.toInt = -55 by decide] at hmax
  rw [Int32.toInt_mul, hsub, show ((5 : Int32) - 1).toInt = 4 by decide, Int.bmod_eq_of_le] <;> omega

theorem scaled_toInt {rssi : Int32} (hmin : ¬ rssi ≤ minRssi) (hmax : ¬ rssi ≥ maxRssi) :
    ((rssi - minRssi) * (5 - 1) / (maxRssi - minRssi)).toInt = (rssi.toInt + 100) * 4 / 45 := by
  have hmul := rssi_mul_toInt hmin hmax
  rw [Int32.le_iff_toInt_le, show minRssi.toInt = -100 by decide] at hmin
  rw [ge_iff_le, Int32.le_iff_toInt_le, show maxRssi.toInt = -55 by decide] at hmax
  rw [Int32.toInt_div, hmul, show (maxRssi - minRssi).toInt = 45 by decide,
    Int.tdiv_eq_ediv_of_nonneg (by omega), Int.bmod_eq_of_le] <;> omega

/-- What `calculateSignalLevel` answers for five levels, on any Int. -/
theorem calculateSignalLevel_toInt (rssi : Int32) : (calculateSignalLevel rssi 5).toInt =
    if rssi.toInt ≤ -100 then 0 else if -55 ≤ rssi.toInt then 4 else (rssi.toInt + 100) * 4 / 45 := by
  have hmin : rssi ≤ minRssi ↔ rssi.toInt ≤ -100 := Int32.le_iff_toInt_le
  have hmax : rssi ≥ maxRssi ↔ -55 ≤ rssi.toInt := Int32.le_iff_toInt_le
  rw [calculateSignalLevel]
  by_cases h₁ : rssi ≤ minRssi
  · rw [if_pos h₁, if_pos (hmin.1 h₁)]
    rfl
  · rw [if_neg h₁, if_neg (fun h => h₁ (hmin.2 h))]
    by_cases h₂ : rssi ≥ maxRssi
    · rw [if_pos h₂, if_pos (hmax.1 h₂)]
      rfl
    · rw [if_neg h₂, if_neg (fun h => h₂ (hmax.2 h)), scaled_toInt h₁ h₂]

theorem calculateSignalLevel_range (rssi : Int32) :
    0 ≤ (calculateSignalLevel rssi 5).toInt ∧ (calculateSignalLevel rssi 5).toInt < 5 := by
  rw [calculateSignalLevel_toInt]
  constructor <;> split_ifs <;> omega

def Strength.calculate (level : Int32) : Strength :=
  .get (calculateSignalLevel level 5) (calculateSignalLevel_range level)

theorem reverse_range (strength : Strength) :
    0 ≤ ((5 : Int32) - strength.getNumberOfStrength).toInt ∧
      ((5 : Int32) - strength.getNumberOfStrength).toInt < 5 := by
  cases strength <;> decide

def Strength.reverse (strength : Strength) : Strength :=
  .get (5 - strength.getNumberOfStrength) (reverse_range strength)

theorem strongest_range (lhs rhs : Strength) :
    0 ≤ (max (lhs.getNumberOfStrength - 1) (rhs.getNumberOfStrength - 1)).toInt ∧
      (max (lhs.getNumberOfStrength - 1) (rhs.getNumberOfStrength - 1)).toInt < 5 := by
  cases lhs <;> cases rhs <;> decide

/-- The assignment in the loop of `getStrength`. -/
def Strength.strongest (lhs rhs : Strength) : Strength :=
  .get (max (lhs.getNumberOfStrength - 1) (rhs.getNumberOfStrength - 1)) (strongest_range lhs rhs)

def Strength.ordinal : Strength → Nat
  | .ZERO => 0
  | .ONE => 1
  | .TWO => 2
  | .THREE => 3
  | .FOUR => 4

instance : LinearOrder Strength := LinearOrder.lift' Strength.ordinal (by
  intro a b h
  cases a <;> cases b <;> first | rfl | cases h)

theorem strongest_eq_max (lhs rhs : Strength) : lhs.strongest rhs = max lhs rhs := by
  cases lhs <;> cases rhs <;> decide

theorem reverse_injective {a b : Strength} (h : a.reverse = b.reverse) : a = b := by
  revert h
  cases a <;> cases b <;> decide

theorem zero_le (a : Strength) : Strength.ZERO ≤ a := by
  cases a <;> decide

end SberWifi.SignalStrength
