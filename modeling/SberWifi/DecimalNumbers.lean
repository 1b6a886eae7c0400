import Mathlib.Algebra.Order.Group.Nat
import Mathlib.Tactic.Ring
import SberWifi.JsonRules

namespace SberWifi.DecimalNumbers

open JsonRules

def number (ds : List (Fin 10)) : Nat := ds.foldl (fun v d => 10 * v + d.val) 0

@[simp] theorem number_nil : number [] = 0 := rfl

theorem number_concat (ds : List (Fin 10)) (d : Fin 10) : number (ds ++ [d]) = 10 * number ds + d.val := by
  rw [number, List.foldl_append]
  rfl

@[simp] theorem number_singleton (d : Fin 10) : number [d] = d.val := by
  have h := number_concat [] d
  simpa using h

theorem number_zeros (ds : List (Fin 10)) (k : Nat) :
    number (ds ++ List.replicate k 0) = number ds * 10 ^ k := by
  induction k with
  | zero => simp
  | succ k ih =>
      rw [List.replicate_succ', ← List.append_assoc, number_concat, ih, Nat.pow_succ]
      simp only [Fin.val_zero]
      ring

def lastDigit (n : Nat) : Fin 10 := ⟨n % 10, Nat.mod_lt n (by decide)⟩

def digitsFuel : Nat → Nat → List (Fin 10)
  | 0, n => [lastDigit n]
  | fuel + 1, n => if n < 10 then [lastDigit n] else digitsFuel fuel (n / 10) ++ [lastDigit n]

def digits (n : Nat) : List (Fin 10) := digitsFuel n n

theorem digitsFuel_eq {fuel fuel' n : Nat} (h : n ≤ fuel) (h' : n ≤ fuel') :
    digitsFuel fuel n = digitsFuel fuel' n := by
  induction fuel generalizing fuel' n with
  | zero =>
      obtain rfl : n = 0 := Nat.le_zero.1 h
      cases fuel' <;> rfl
  | succ fuel ih =>
      cases fuel' with
      | zero =>
          obtain rfl : n = 0 := Nat.le_zero.1 h'
          rfl
      | succ fuel' =>
          rw [digitsFuel, digitsFuel]
          by_cases hn : n < 10
          · rw [if_pos hn, if_pos hn]
          · rw [if_neg hn, if_neg hn, ih (by omega : n / 10 ≤ fuel) (by omega : n / 10 ≤ fuel')]

theorem digits_of_lt {n : Nat} (h : n < 10) : digits n = [lastDigit n] := by
  cases n with
  | zero => rfl
  | succ n => rw [digits, digitsFuel, if_pos h]

theorem digits_of_ge {n : Nat} (h : 10 ≤ n) : digits n = digits (n / 10) ++ [lastDigit n] := by
  obtain ⟨m, rfl⟩ : ∃ m, n = m + 1 := ⟨n - 1, by omega⟩
  have hfuel : (m + 1) / 10 ≤ m := by omega
  rw [digits, digitsFuel, if_neg (by omega), digits, digitsFuel_eq hfuel (Nat.le_refl _)]

/-- What holds of one digit, and of a number if it holds of it without its last
digit, holds of every number. -/
theorem digits_induction {p : Nat → Prop} (hone : ∀ n < 10, p n) (hmore : ∀ n, 10 ≤ n → p (n / 10) → p n)
    (n : Nat) : p n := by
  induction n using Nat.strongRecOn with
  | ind n ih =>
      by_cases h : n < 10
      · exact hone n h
      · exact hmore n (Nat.le_of_not_lt h) (ih (n / 10) (by omega))

theorem number_digits (n : Nat) : number (digits n) = n := by
  induction n using digits_induction with
  | hone n h =>
      rw [digits_of_lt h, number_singleton]
      exact Nat.mod_eq_of_lt h
  | hmore n h ih =>
      rw [digits_of_ge h, number_concat, ih]
      exact Nat.div_add_mod n 10

theorem digits_ne_nil (n : Nat) : digits n ≠ [] := by
  induction n using digits_induction with
  | hone n h => simp [digits_of_lt h]
  | hmore n h ih => simp [digits_of_ge h]

theorem digits_head (n : Nat) : (digits n).head? ≠ some 0 ∨ (digits n).length = 1 := by
  induction n using digits_induction with
  | hone n h => exact .inr (by rw [digits_of_lt h]; rfl)
  | hmore n h ih =>
      left
      rw [digits_of_ge h, List.head?_append_of_ne_nil _ (digits_ne_nil _)]
      rcases ih with ih | ih
      · exact ih
      · obtain ⟨d, hd⟩ := List.length_eq_one_iff.1 ih
        have hvalue := number_digits (n / 10)
        rw [hd, number_singleton] at hvalue
        rw [hd]
        rintro hzero
        obtain rfl := Option.some.inj hzero
        rw [Fin.val_zero] at hvalue
        omega

theorem length_digits_le {n k : Nat} (hk : 0 < k) : (digits n).length ≤ k ↔ n < 10 ^ k := by
  induction k, hk using Nat.le_induction generalizing n with
  | base =>
      by_cases h : n < 10
      · simp [digits_of_lt h, h]
      · have hne : 0 < (digits (n / 10)).length := List.length_pos_of_ne_nil (digits_ne_nil _)
        rw [digits_of_ge (Nat.le_of_not_lt h), List.length_append, List.length_singleton]
        omega
  | succ k hk ih =>
      by_cases h : n < 10
      · have hpow : 10 ≤ 10 ^ (k + 1) := Nat.le_self_pow (by omega) 10
        rw [digits_of_lt h, List.length_singleton]
        omega
      · rw [digits_of_ge (Nat.le_of_not_lt h), List.length_append, List.length_singleton,
          Nat.add_le_add_iff_right, ih, Nat.div_lt_iff_lt_mul (by decide), Nat.pow_succ]

def scale (exponent : Option (Bool × List (Fin 10))) : Nat × Nat :=
  match exponent with
  | none => (0, 0)
  | some (false, ds) => (number ds, 0)
  | some (true, ds) => (0, number ds)

def Equals (x : Decimal) (n : Nat) : Prop :=
  x.negative = false ∧ number (x.int ++ x.fraction) * 10 ^ (scale x.exponent).1 =
    n * 10 ^ (x.fraction.length + (scale x.exponent).2)

def plain (n : Nat) : Decimal where
  negative := false
  int := digits n
  fraction := []
  exponent := none
  int_ne := digits_ne_nil n
  int_head := digits_head n
  exponent_ne _ h := absurd h (Option.not_mem_none _)

theorem plain_equals (n : Nat) : Equals (plain n) n := by
  refine ⟨rfl, ?_⟩
  simp [plain, number_digits, scale]

def dropZeros : List (Fin 10) → List (Fin 10)
  | [] => []
  | d :: ds => if d.val = 0 ∧ dropZeros ds = [] then [] else d :: dropZeros ds

theorem dropZeros_append (ds : List (Fin 10)) : ∃ k, ds = dropZeros ds ++ List.replicate k 0 := by
  induction ds with
  | nil => exact ⟨0, rfl⟩
  | cons d ds ih =>
      obtain ⟨k, hk⟩ := ih
      rw [dropZeros]
      split_ifs with h
      · rw [h.2, List.nil_append] at hk
        have hd : d = 0 := Fin.ext h.1
        exact ⟨k + 1, by rw [hd, List.nil_append, List.replicate_succ, ← hk]⟩
      · exact ⟨k, by rw [List.cons_append, ← hk]⟩

def exponentDigits (n : Nat) : List (Fin 10) := if n < 10 then [lastDigit 0, lastDigit n] else digits n

theorem number_exponentDigits (n : Nat) : number (exponentDigits n) = n := by
  rw [exponentDigits]
  split_ifs with h
  · have hconcat := number_concat [lastDigit 0] (lastDigit n)
    rw [List.singleton_append, number_singleton] at hconcat
    rw [hconcat]
    exact (Nat.zero_add _).trans (Nat.mod_eq_of_lt h)
  · exact number_digits n

theorem exponentDigits_ne_nil (n : Nat) : exponentDigits n ≠ [] := by
  rw [exponentDigits]
  split_ifs
  · exact List.cons_ne_nil _ _
  · exact digits_ne_nil n

theorem firstDigit_ne_nil (m : Nat) : (digits m).take 1 ≠ [] := by
  simp [digits_ne_nil m]

theorem firstDigit_head (m : Nat) : ((digits m).take 1).head? ≠ some 0 ∨ ((digits m).take 1).length = 1 := by
  right
  rw [List.length_take]
  exact Nat.min_eq_left (List.length_pos_of_ne_nil (digits_ne_nil m))

theorem exponentDigits_ne_nil_of_mem {n : Nat} (e : Bool × List (Fin 10))
    (he : e ∈ some (false, exponentDigits n)) : e.2 ≠ [] := by
  rw [← Option.mem_some_iff.1 he]
  exact exponentDigits_ne_nil n

/-- One digit before the point, and no zeros at the end. -/
def scientific (m e : Nat) : Decimal where
  negative := false
  int := (digits m).take 1
  fraction := dropZeros ((digits m).drop 1)
  exponent := some (false, exponentDigits ((digits m).length - 1 + e))
  int_ne := firstDigit_ne_nil m
  int_head := firstDigit_head m
  exponent_ne := exponentDigits_ne_nil_of_mem

theorem scientific_equals (m e : Nat) : Equals (scientific m e) (m * 10 ^ e) := by
  refine ⟨rfl, ?_⟩
  obtain ⟨k, hk⟩ := dropZeros_append ((digits m).drop 1)
  have hsplit : digits m = ((digits m).take 1 ++ dropZeros ((digits m).drop 1)) ++ List.replicate k 0 := by
    rw [List.append_assoc, ← hk, List.take_append_drop]
  have hvalue := congrArg number hsplit
  rw [number_digits, number_zeros] at hvalue
  have hlength := congrArg List.length hk
  rw [List.length_drop, List.length_append, List.length_replicate] at hlength
  simp only [scientific, scale, number_exponentDigits, hlength]
  calc number ((digits m).take 1 ++ dropZeros ((digits m).drop 1)) *
        10 ^ ((dropZeros ((digits m).drop 1)).length + k + e)
      = (number ((digits m).take 1 ++ dropZeros ((digits m).drop 1)) * 10 ^ k) * 10 ^ e *
          10 ^ (dropZeros ((digits m).drop 1)).length := by ring
    _ = m * 10 ^ e * 10 ^ ((dropZeros ((digits m).drop 1)).length + 0) := by rw [← hvalue, Nat.add_zero]

def roundHalfEven (n unit : Nat) : Nat :=
  if 2 * (n % unit) > unit ∨ 2 * (n % unit) = unit ∧ n / unit % 2 = 1 then n / unit + 1 else n / unit

def formatG (precision n : Nat) : Decimal :=
  if n < 10 ^ precision then plain n
  else
    let e := (digits n).length - precision
    scientific (roundHalfEven n (10 ^ e)) e

example : (formatG 15 123456789012345).token = JavaString.str "123456789012345" := by decide

example : (formatG 15 9999999999999999).token = JavaString.str "1e+16" := by decide

example : (formatG 15 1234567890123450).token = JavaString.str "1.23456789012345e+15" := by decide

end SberWifi.DecimalNumbers
