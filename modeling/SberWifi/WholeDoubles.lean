import SberWifi.ByteCounts
import SberWifi.CJsonRoundTrip

namespace SberWifi.WholeDoubles

open ByteCounts CJsonPrint CJsonParse CJsonRoundTrip DecimalNumbers JsonPath JsonRules

def signed (n : Int) : Decimal := { plain n.natAbs with negative := decide (n < 0) }

def sprintf (n : Int) : Bytes := printed 46 (signed n)

def hasDigit (s : Bytes) : Bool := s.any fun c => 48 ≤ c && c ≤ 57

def value (s : Bytes) : Int :=
  if (units s).head? = some 45 then -wholePart (units s).tail else wholePart (units s)

/-- A text with a digit is taken whole. -/
def strtod (s : Bytes) : Option (Int × Nat) := if hasDigit s then some (value s, s.length) else none

theorem hasDigit_printed (x : Decimal) : hasDigit (printed 46 x) := by
  have hdigit : ∀ d, (48 ≤ digitByte d && digitByte d ≤ 57) = true := by decide
  obtain ⟨d, ds, hint⟩ := List.exists_cons_of_ne_nil x.int_ne
  refine List.any_eq_true.2 ⟨digitByte d, ?_, hdigit d⟩
  rw [printed, hint]
  simp

theorem value_sprintf (n : Int) : value (sprintf n) = n := by
  have hplain := wholePart_token (plain_equals n.natAbs)
  have hhead : (plain n.natAbs).token.head? ≠ some 45 := by
    obtain ⟨d, ds, hint⟩ := List.exists_cons_of_ne_nil (plain n.natAbs).int_ne
    rw [Decimal.token, Decimal.signToken, hint]
    exact fun h => digit_ne_minus d (Option.some.inj h)
  rw [value, sprintf, units_printed_point]
  by_cases hneg : n < 0
  · have htoken : (signed n).token = 45 :: (plain n.natAbs).token := by
      rw [Decimal.token, Decimal.signToken, signed]
      simp only [hneg, decide_true]
      rfl
    rw [htoken, List.head?_cons, if_pos rfl, List.tail_cons, hplain]
    omega
  · have htoken : (signed n).token = (plain n.natAbs).token := by
      rw [signed]
      simp only [hneg, decide_false]
      rfl
    rw [htoken, if_neg hhead, hplain]
    omega

/-- The numbers that are taken for finite have at most twenty digits. -/
def short (n : Int) : Bool := n.natAbs < 10 ^ 20

theorem sprintf_printed (n : Int) (_ : short n) : ∃ x, sprintf n = printed 46 x := ⟨_, rfl⟩

def integers : CLib Int where
  finite := short
  same m n := m == n
  decimalPoint := 46
  sprintf15 := sprintf
  sprintf17 := sprintf
  sscanf s := (strtod s).map Prod.fst
  decimalPoint_free := point_free
  sprintf15_finite := sprintf_printed
  sprintf17_finite := sprintf_printed

theorem strtod_le (s : Bytes) (r : Int × Nat) (h : strtod s = some r) : 0 < r.2 ∧ r.2 ≤ s.length := by
  rw [strtod] at h
  split at h
  · rename_i hany
    cases h
    refine ⟨List.length_pos_iff.2 ?_, le_rfl⟩
    rintro rfl
    cases hany
  · cases h

theorem strtod_sscanf (s : Bytes) (d : Int) (h : integers.sscanf s = some d) : ∃ n, strtod s = some (d, n) := by
  obtain ⟨r, hr, rfl⟩ := Option.map_eq_some_iff.1 h
  exact ⟨r.2, hr⟩

theorem strtod_sprintf (d : Int) (_ : integers.finite d) : ∀ r ∈ strtod (sprintf d), integers.same r.1 d := by
  have hread : strtod (sprintf d) = some (value (sprintf d), (sprintf d).length) :=
    if_pos (hasDigit_printed (signed d))
  rintro r hr
  rw [hread, value_sprintf] at hr
  cases hr
  exact beq_self_eq_true d

theorem length_sprintf {n : Int} (h : short n) : (sprintf n).length ≤ 21 := by
  have hdigits := (length_digits_le (n := n.natAbs) (k := 20) (by decide)).2 (of_decide_eq_true h)
  have hsign : (signBytes (signed n)).length ≤ 1 := by
    rw [signBytes]
    split <;> decide
  have hint : (signed n).int = digits n.natAbs := rfl
  have hrest : fractionBytes 46 (signed n) ++ exponentBytes (signed n) = [] := rfl
  rw [sprintf, printed, hint, hrest, List.length_append, List.length_append, List.length_map, List.length_nil]
  omega

theorem integers_short : ShortNumbers integers := by
  intro n
  rw [numberBuffer]
  split
  · decide
  · rename_i hshort
    have hlength := length_sprintf (n := n) (by simpa [integers] using hshort)
    split
    · exact hlength.trans (by decide)
    · exact hlength.trans (by decide)

def integersStrtod : Strtod integers where
  strtod := strtod
  strtod_le := strtod_le
  strtod_printed x := ⟨_, if_pos (hasDigit_printed x)⟩
  strtod_sscanf := strtod_sscanf
  strtod_sprintf17 := strtod_sprintf

end SberWifi.WholeDoubles
