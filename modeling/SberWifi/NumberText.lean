import SberWifi.JavaString

namespace SberWifi.NumberText

open JavaString

theorem str_append (s t : String) : str (s ++ t) = str s ++ str t := by
  rw [str, String.toList_append, List.map_append]
  rfl

theorem str_toString_nat (n : Nat) :
    str (toString n) = (Nat.toDigits 10 n).map fun c => c.val.toUInt16 := by
  rw [str, Nat.toString_eq_ofList_toDigits, String.toList_ofList]

theorem digit_unit {c : Char} (h : c.isDigit) :
    48 ≤ c.val.toUInt16 ∧ c.val.toUInt16 ≤ 57 ∧ Char.ofNat c.val.toUInt16.toNat = c := by
  have hrange : 48 ≤ c.toNat ∧ c.toNat ≤ 57 := by
    simpa [Char.isDigit, UInt32.le_iff_toNat_le] using h
  have hval : c.val.toUInt16.toNat = c.toNat := by
    rw [UInt32.toNat_toUInt16]
    exact Nat.mod_eq_of_lt (Nat.lt_of_le_of_lt hrange.2 (by decide))
  refine ⟨?_, ?_, ?_⟩
  · rw [UInt16.le_iff_toNat_le, hval]
    exact hrange.1
  · rw [UInt16.le_iff_toNat_le, hval]
    exact hrange.2
  · rw [hval, Char.ofNat_toNat]

theorem digit_of_mem_toDigits {n : Nat} {c : Char} (h : c ∈ Nat.toDigits 10 n) : c.isDigit :=
  Nat.isDigit_of_mem_toDigits (by decide) (by decide) h

theorem digit_of_mem_nat {n : Nat} {u : UInt16} (h : u ∈ str (toString n)) : 48 ≤ u ∧ u ≤ 57 := by
  rw [str_toString_nat] at h
  obtain ⟨c, hc, rfl⟩ := List.mem_map.1 h
  have hunit := digit_unit (digit_of_mem_toDigits hc)
  exact ⟨hunit.1, hunit.2.1⟩

theorem nat_ne_nil (n : Nat) : str (toString n) ≠ [] := by
  rw [str_toString_nat]
  simp

theorem nat_injective {m n : Nat} (h : str (toString m) = str (toString n)) : m = n := by
  have hback (k : Nat) :
      (str (toString k)).map (fun u => Char.ofNat u.toNat) = Nat.toDigits 10 k := by
    rw [str_toString_nat, List.map_map]
    have hdigits : ∀ c ∈ Nat.toDigits 10 k, Char.ofNat c.val.toUInt16.toNat = c := fun c hc =>
      (digit_unit (digit_of_mem_toDigits hc)).2.2
    exact (List.map_congr_left hdigits).trans (List.map_id _)
  have hdigits := congrArg (List.map fun u => Char.ofNat u.toNat) h
  rw [hback, hback] at hdigits
  have hvalue := congrArg (fun ds => Nat.ofDigitChars 10 ds 0) hdigits
  simpa only [Nat.ofDigitChars_ten_toDigits] using hvalue

/-- A number below zero is a minus before its absolute value. -/
theorem int_cases (i : Int) :
    (∃ n : Nat, i = n ∧ str (toString i) = str (toString n)) ∨
      ∃ n : Nat, i < 0 ∧ str (toString i) = 45 :: str (toString n) := by
  cases i with
  | ofNat n => exact .inl ⟨n, rfl, rfl⟩
  | negSucc n => exact .inr ⟨n + 1, by omega, str_append "-" (toString (n + 1))⟩

end SberWifi.NumberText
