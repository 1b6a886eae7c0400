import Mathlib.Tactic.IntervalCases
import SberWifi.Transformer

namespace SberWifi.IpAddress

open JavaString Transformer

def octet (ipAddress : Int32) (i : Nat) : Nat := ipAddress.toUInt32.toNat / 256 ^ i % 256

def dottedQuad (ipAddress : Int32) : JString :=
  (str ".").intercalate ((List.range 4).map fun i => str (toString (octet ipAddress i)))

def LeadsWithSign (ipAddress : Int32) : Prop :=
  (octet ipAddress 0 = 0 ∧ octet ipAddress 1 < 128) ∨ (octet ipAddress 0 = 255 ∧ 128 ≤ octet ipAddress 1)

instance (ipAddress : Int32) : Decidable (LeadsWithSign ipAddress) := by
  unfold LeadsWithSign
  infer_instance

theorem bytes_toInt32 (v : UInt32) :
    bytes v.toInt32 = [(v >>> 24).toUInt8, (v >>> 16).toUInt8, (v >>> 8).toUInt8, v.toUInt8] := by
  simp [bytes]

theorem bytes_reverseBytes (ipAddress : Int32) :
    bytes (reverseBytes ipAddress) = (bytes ipAddress).reverse := by
  rw [reverseBytes, bytes_toInt32]
  simp only [bytes, List.reverse_cons, List.reverse_nil, List.nil_append, List.cons_append,
    List.cons.injEq, and_true]
  -- each octet is compared bit by bit
  refine ⟨?_, ?_, ?_, ?_⟩ <;>
  · apply UInt8.toBitVec_inj.1
    ext i hi
    interval_cases i <;> simp

theorem octets_eq (ipAddress : Int32) :
    (List.range 4).map (octet ipAddress) = (bytes ipAddress).reverse.map UInt8.toNat := by
  simp [bytes, octet, List.range_succ, Nat.shiftRight_eq_div_pow]

theorem length_dropSign_le (l : List UInt8) : (dropSign l).length ≤ l.length := by
  fun_induction dropSign l with
  | case1 a b rest h ih => exact ih.trans (Nat.le_succ _)
  | case2 a b rest h => exact le_rfl
  | case3 l h => exact le_rfl

/-- The array keeps its four bytes exactly when the first one is needed for the
sign. Without it there is no address of that length. -/
theorem convertIpAddress_eq {platform : Platform} (hlittle : platform.littleEndian) (ipAddress : Int32) :
    convertIpAddress platform ipAddress = if LeadsWithSign ipAddress then [] else dottedQuad ipAddress := by
  obtain ⟨a, b, c, d, hbytes⟩ : ∃ a b c d, (bytes ipAddress).reverse = [a, b, c, d] := ⟨_, _, _, _, rfl⟩
  have hoctets := octets_eq ipAddress
  rw [hbytes] at hoctets
  have h0 : octet ipAddress 0 = a.toNat := (List.cons.inj hoctets).1
  have h1 : octet ipAddress 1 = b.toNat := (List.cons.inj (List.cons.inj hoctets).2).1
  have hsign : LeadsWithSign ipAddress ↔ (a = 0 ∧ b < 128) ∨ (a = 255 ∧ 128 ≤ b) := by
    simp [LeadsWithSign, h0, h1, UInt8.lt_iff_toNat_lt, UInt8.le_iff_toNat_le, ← UInt8.toNat_inj]
  have harray : toByteArray (reverseBytes ipAddress) = dropSign [a, b, c, d] := by
    rw [toByteArray, bytes_reverseBytes, hbytes]
  rw [convertIpAddress, if_pos hlittle, harray, dropSign]
  by_cases h : LeadsWithSign ipAddress
  · have hshort : (dropSign [b, c, d]).length ≠ 4 := by
      have := length_dropSign_le [b, c, d]
      simp only [List.length_cons, List.length_nil] at this
      omega
    rw [if_pos (hsign.1 h), if_pos h, hostAddress, if_neg hshort]
    rfl
  · have hquad : dottedQuad ipAddress =
        (str ".").intercalate ([a, b, c, d].map fun b => str (toString b.toNat)) := by
      have hjoin := congrArg (fun l => (str ".").intercalate (l.map fun n => str (toString n))) hoctets
      simp only [List.map_map] at hjoin
      exact hjoin
    rw [if_neg (mt hsign.2 h), if_neg h, hquad]
    rfl

theorem convertIpAddress_exact_or_silent {platform : Platform} (hlittle : platform.littleEndian)
    (ipAddress : Int32) :
    (convertIpAddress platform ipAddress = dottedQuad ipAddress ∨ convertIpAddress platform ipAddress = []) ∧
      (1 ≤ octet ipAddress 0 ∧ octet ipAddress 0 ≤ 254 →
        convertIpAddress platform ipAddress = dottedQuad ipAddress) := by
  rw [convertIpAddress_eq hlittle]
  constructor
  · by_cases h : LeadsWithSign ipAddress
    · exact .inr (if_pos h)
    · exact .inl (if_neg h)
  · intro h
    apply if_neg
    rintro (⟨hzero, -⟩ | ⟨hones, -⟩) <;> omega

theorem convertIpAddress_exact_or_silent_lan :
    (1 ≤ octet 16820416 0 ∧ octet 16820416 0 ≤ 254) ∧
      convertIpAddress ⟨[], [], 28, true⟩ 16820416 = dottedQuad 16820416 ∧
      dottedQuad 16820416 = str "192.168.0.1" :=
  ⟨by decide, (convertIpAddress_exact_or_silent rfl 16820416).2 (by decide), by decide⟩

end SberWifi.IpAddress
