import Mathlib.Algebra.Group.Nat.Defs
import SberWifi.CJsonPrint

-- An iterator of the utf8 library is what follows it up to the end of the text.

namespace SberWifi.ReplaceInvalid

open CJsonPrint

inductive UtfError
  | NOT_ENOUGH_ROOM
  | INVALID_LEAD
  | INCOMPLETE_SEQUENCE
  | OVERLONG_SEQUENCE
  | INVALID_CODE_POINT
deriving DecidableEq

def is_trail (oc : UInt8) : Bool := oc >>> 6 == 2

def is_surrogate (cp : UInt32) : Bool := 0xd800 ≤ cp && cp ≤ 0xdfff

def is_code_point_valid (cp : UInt32) : Bool := cp ≤ 0x10ffff && !is_surrogate cp

def sequence_length (lead : UInt8) : Nat :=
  if lead < 0x80 then 1
  else if lead >>> 5 = 0x6 then 2
  else if lead >>> 4 = 0xe then 3
  else if lead >>> 3 = 0x1e then 4
  else 0

def is_overlong_sequence (cp : UInt32) (length : Nat) : Bool :=
  if cp < 0x80 then length != 1
  else if cp < 0x800 then length != 2
  else if cp < 0x10000 then length != 3
  else false

def increase_safely : Bytes → Except UtfError (UInt8 × Bytes)
  | [] => .error .NOT_ENOUGH_ROOM
  | c :: it => if !is_trail c then .error .INCOMPLETE_SEQUENCE else .ok (c, it)

def get_sequence_1 (lead : UInt8) (it : Bytes) : Except UtfError (UInt32 × Bytes) := .ok (lead.toUInt32, it)

def get_sequence_2 (lead : UInt8) (it : Bytes) : Except UtfError (UInt32 × Bytes) := do
  let (b, it) ← increase_safely it
  return (((lead.toUInt32 <<< 6) &&& 0x7ff) + (b.toUInt32 &&& 0x3f), it)

def get_sequence_3 (lead : UInt8) (it : Bytes) : Except UtfError (UInt32 × Bytes) := do
  let (b, it) ← increase_safely it
  let code_point := ((lead.toUInt32 <<< 12) &&& (0xffff : UInt32)) + ((b.toUInt32 <<< 6) &&& (0xfff : UInt32))
  let (c, it) ← increase_safely it
  return (code_point + (c.toUInt32 &&& 0x3f), it)

def get_sequence_4 (lead : UInt8) (it : Bytes) : Except UtfError (UInt32 × Bytes) := do
  let (b, it) ← increase_safely it
  let code_point := ((lead.toUInt32 <<< 18) &&& (0x1fffff : UInt32)) + ((b.toUInt32 <<< 12) &&& (0x3ffff : UInt32))
  let (c, it) ← increase_safely it
  let code_point := code_point + ((c.toUInt32 <<< 6) &&& 0xfff)
  let (d, it) ← increase_safely it
  return (code_point + (d.toUInt32 &&& 0x3f), it)

def get_sequence (lead : UInt8) (it : Bytes) : Except UtfError (UInt32 × Bytes) :=
  match sequence_length lead with
  | 0 => .error .INVALID_LEAD
  | 1 => get_sequence_1 lead it
  | 2 => get_sequence_2 lead it
  | 3 => get_sequence_3 lead it
  | _ => get_sequence_4 lead it

def validate_next (lead : UInt8) (it : Bytes) : Except UtfError Bytes := do
  let (cp, it) ← get_sequence lead it
  if is_code_point_valid cp then
    if !is_overlong_sequence cp (sequence_length lead) then return it else throw .OVERLONG_SEQUENCE
  else throw .INVALID_CODE_POINT

/-- The octets of a code point; one that is not valid throws. -/
def append (cp : UInt32) : Option Bytes :=
  if !is_code_point_valid cp then none
  else if cp < 0x80 then some [cp.toUInt8]
  else if cp < 0x800 then some [((cp >>> 6) ||| 0xc0).toUInt8, ((cp &&& 0x3f) ||| 0x80).toUInt8]
  else if cp < 0x10000 then
    some [((cp >>> 12) ||| 0xe0).toUInt8, (((cp >>> 6) &&& 0x3f) ||| 0x80).toUInt8,
      ((cp &&& 0x3f) ||| 0x80).toUInt8]
  else
    some [((cp >>> 18) ||| 0xf0).toUInt8, (((cp >>> 12) &&& 0x3f) ||| 0x80).toUInt8,
      (((cp >>> 6) &&& 0x3f) ||| 0x80).toUInt8, ((cp &&& 0x3f) ||| 0x80).toUInt8]

def replacement_marker : UInt32 := 0xfffd

/-- What one pass of the loop appends, and where it goes on; `none` is an
exception. -/
def replaceNext (lead : UInt8) (it : Bytes) : Option (Bytes × Bytes) :=
  match validate_next lead it with
  | .ok start => some ((lead :: it).take ((lead :: it).length - start.length), start)
  | .error .NOT_ENOUGH_ROOM => none
  | .error .INVALID_LEAD => do
      let mark ← append replacement_marker
      return (mark, it)
  -- one mark for a broken sequence with the trail bytes that follow
  | .error .INCOMPLETE_SEQUENCE | .error .OVERLONG_SEQUENCE | .error .INVALID_CODE_POINT => do
      let mark ← append replacement_marker
      return (mark, it.dropWhile is_trail)

theorem forall_byte {p : UInt8 → Prop} [DecidablePred p] (h : ∀ n < 256, p (UInt8.ofNat n)) (c : UInt8) : p c := by
  have hc := h c.toNat c.toNat_lt
  rwa [UInt8.ofNat_toNat] at hc

def Trail (c : UInt8) : Prop := 0x80 ≤ c.toNat ∧ c.toNat ≤ 0xBF

instance (c : UInt8) : Decidable (Trail c) := inferInstanceAs (Decidable (_ ∧ _))

theorem is_trail_iff (c : UInt8) : is_trail c ↔ Trail c := by
  revert c
  exact forall_byte (by decide +kernel)

theorem sequence_length_cases (lead : UInt8) :
    (lead.toNat < 0x80 ∧ sequence_length lead = 1) ∨
      (0xC0 ≤ lead.toNat ∧ lead.toNat ≤ 0xDF ∧ sequence_length lead = 2) ∨
      (0xE0 ≤ lead.toNat ∧ lead.toNat ≤ 0xEF ∧ sequence_length lead = 3) ∨
      (0xF0 ≤ lead.toNat ∧ lead.toNat ≤ 0xF7 ∧ sequence_length lead = 4) ∨
      ((Trail lead ∨ 0xF8 ≤ lead.toNat) ∧ sequence_length lead = 0) := by
  revert lead
  exact forall_byte (by decide +kernel)

theorem sequence_length_one : ∀ lead : UInt8, lead.toNat < 0x80 → sequence_length lead = 1 :=
  forall_byte (by decide +kernel)

theorem sequence_length_two :
    ∀ lead : UInt8, 0xC0 ≤ lead.toNat → lead.toNat ≤ 0xDF → sequence_length lead = 2 :=
  forall_byte (by decide +kernel)

theorem sequence_length_three :
    ∀ lead : UInt8, 0xE0 ≤ lead.toNat → lead.toNat ≤ 0xEF → sequence_length lead = 3 :=
  forall_byte (by decide +kernel)

theorem sequence_length_four :
    ∀ lead : UInt8, 0xF0 ≤ lead.toNat → lead.toNat ≤ 0xF7 → sequence_length lead = 4 :=
  forall_byte (by decide +kernel)

theorem sequence_length_trail : ∀ lead : UInt8, Trail lead → sequence_length lead = 0 :=
  forall_byte (by decide +kernel)

def takeTrails : Nat → Bytes → Except UtfError (Bytes × Bytes)
  | 0, it => .ok ([], it)
  | n + 1, it => (increase_safely it).bind fun c => (takeTrails n c.2).map fun r => (c.1 :: r.1, r.2)

inductive TakesTrails (n : Nat) (it : Bytes) : Except UtfError (Bytes × Bytes) → Prop
  | all {trails after : Bytes} (hit : it = trails ++ after) (htrails : ∀ c ∈ trails, Trail c)
      (hlength : trails.length = n) : TakesTrails n it (.ok (trails, after))
  | room (htrails : ∀ c ∈ it, Trail c) (hshort : it.length < n) :
      TakesTrails n it (.error .NOT_ENOUGH_ROOM)
  | broken {trails after : Bytes} {c : UInt8} (hit : it = trails ++ c :: after)
      (htrails : ∀ c ∈ trails, Trail c) (hc : ¬ Trail c) (hshort : trails.length < n) :
      TakesTrails n it (.error .INCOMPLETE_SEQUENCE)

theorem increase_safely_trail {c : UInt8} (hc : Trail c) (it : Bytes) :
    increase_safely (c :: it) = .ok (c, it) := by
  simp [increase_safely, (is_trail_iff c).2 hc]

theorem increase_safely_other {c : UInt8} (hc : ¬ Trail c) (it : Bytes) :
    increase_safely (c :: it) = .error .INCOMPLETE_SEQUENCE := by
  simp [increase_safely, mt (is_trail_iff c).1 hc]

theorem takeTrails_trail (n : Nat) {c : UInt8} (hc : Trail c) (it : Bytes) :
    takeTrails (n + 1) (c :: it) = (takeTrails n it).map fun r => (c :: r.1, r.2) := by
  rw [takeTrails, increase_safely_trail hc]
  rfl

theorem takeTrails_takes (n : Nat) (it : Bytes) : TakesTrails n it (takeTrails n it) := by
  induction n generalizing it with
  | zero => exact .all (show it = [] ++ it from rfl) (by simp) rfl
  | succ n ih =>
      cases it with
      | nil => exact .room (by simp) (Nat.succ_pos n)
      | cons c it =>
          by_cases hc : Trail c
          · rw [takeTrails_trail n hc]
            have hrest := ih it
            generalize takeTrails n it = r at hrest
            cases hrest with
            | all hit htrails hlength =>
                exact .all (congrArg (c :: ·) hit) (List.forall_mem_cons.2 ⟨hc, htrails⟩)
                  (congrArg (· + 1) hlength)
            | room htrails hshort =>
                exact .room (List.forall_mem_cons.2 ⟨hc, htrails⟩) (Nat.succ_lt_succ hshort)
            | broken hit htrails hd hshort =>
                exact .broken (congrArg (c :: ·) hit) (List.forall_mem_cons.2 ⟨hc, htrails⟩) hd
                  (Nat.succ_lt_succ hshort)
          · rw [takeTrails, increase_safely_other hc]
            exact .broken (show c :: it = [] ++ c :: it from rfl) (by simp) hc (Nat.succ_pos n)

def FourBytes (q : Bytes) : Prop :=
  ∃ a b c d, q = [a, b, c, d] ∧ Trail b ∧ Trail c ∧ Trail d ∧
    (a.toNat = 0xF0 ∧ 0x90 ≤ b.toNat ∨ 0xF1 ≤ a.toNat ∧ a.toNat ≤ 0xF3 ∨ a.toNat = 0xF4 ∧ b.toNat ≤ 0x8F)

theorem shift_mask (c : UInt8) (s m : UInt32) {k n : Nat} (hs : s.toNat % 32 = k) (hm : m.toNat = 2 ^ n - 1)
    (hfit : c.toNat * 2 ^ k < 2 ^ 32) : ((c.toUInt32 <<< s) &&& m).toNat = c.toNat * 2 ^ k % 2 ^ n := by
  rw [UInt32.toNat_and, hm, Nat.and_two_pow_sub_one_eq_mod, UInt32.toNat_shiftLeft, hs,
    UInt8.toNat_toUInt32, Nat.shiftLeft_eq, Nat.mod_eq_of_lt hfit]

theorem mask_toNat (c : UInt8) : (c.toUInt32 &&& 0x3f).toNat = c.toNat % 64 := by
  rw [UInt32.toNat_and, UInt8.toNat_toUInt32]
  exact Nat.and_two_pow_sub_one_eq_mod c.toNat 6

def codePoint (a b c d : UInt8) : UInt32 :=
  ((a.toUInt32 <<< 18) &&& (0x1fffff : UInt32)) + ((b.toUInt32 <<< 12) &&& (0x3ffff : UInt32)) +
    ((c.toUInt32 <<< 6) &&& (0xfff : UInt32)) + (d.toUInt32 &&& 0x3f)

theorem codePoint_toNat (a b c d : UInt8) : (codePoint a b c d).toNat =
    a.toNat % 8 * 262144 + b.toNat % 64 * 4096 + c.toNat % 64 * 64 + d.toNat % 64 := by
  have hlt (x : UInt8) : x.toNat < 256 := x.toNat_lt
  have ha : ((a.toUInt32 <<< 18) &&& (0x1fffff : UInt32)).toNat = a.toNat * 2 ^ 18 % 2 ^ 21 :=
    shift_mask a 18 0x1fffff rfl rfl (by have := hlt a; omega)
  have hb : ((b.toUInt32 <<< 12) &&& (0x3ffff : UInt32)).toNat = b.toNat * 2 ^ 12 % 2 ^ 18 :=
    shift_mask b 12 0x3ffff rfl rfl (by have := hlt b; omega)
  have hc : ((c.toUInt32 <<< 6) &&& (0xfff : UInt32)).toNat = c.toNat * 2 ^ 6 % 2 ^ 12 :=
    shift_mask c 6 0xfff rfl rfl (by have := hlt c; omega)
  rw [codePoint, UInt32.toNat_add, UInt32.toNat_add, UInt32.toNat_add, ha, hb, hc, mask_toNat]
  omega

def sequenceValue (lead : UInt8) : Bytes → Nat
  | [] => lead.toNat
  | [b] => lead.toNat % 32 * 64 + b.toNat % 64
  | [b, c] => lead.toNat % 16 * 4096 + b.toNat % 64 * 64 + c.toNat % 64
  | [b, c, d] => lead.toNat % 8 * 262144 + b.toNat % 64 * 4096 + c.toNat % 64 * 64 + d.toNat % 64
  | _ => 0

theorem get_sequence_2_eq (lead : UInt8) (it : Bytes) :
    get_sequence_2 lead it = (takeTrails 1 it).map fun r =>
      (((lead.toUInt32 <<< 6) &&& (0x7ff : UInt32)) + ((r.1.getD 0 0).toUInt32 &&& (0x3f : UInt32)), r.2) := by
  simp only [get_sequence_2, takeTrails, bind, Except.bind, Except.map]
  cases increase_safely it with
  | error e => rfl
  | ok b => rfl

theorem get_sequence_3_eq (lead : UInt8) (it : Bytes) :
    get_sequence_3 lead it = (takeTrails 2 it).map fun r =>
      (((lead.toUInt32 <<< 12) &&& (0xffff : UInt32)) +
        (((r.1.getD 0 0).toUInt32 <<< (6 : UInt32)) &&& (0xfff : UInt32)) +
        ((r.1.getD 1 0).toUInt32 &&& (0x3f : UInt32)), r.2) := by
  simp only [get_sequence_3, takeTrails, bind, Except.bind, Except.map]
  cases increase_safely it with
  | error e => rfl
  | ok b =>
      simp only
      cases increase_safely b.2 with
      | error e => rfl
      | ok c => rfl

theorem get_sequence_4_eq (lead : UInt8) (it : Bytes) :
    get_sequence_4 lead it = (takeTrails 3 it).map fun r =>
      (codePoint lead (r.1.getD 0 0) (r.1.getD 1 0) (r.1.getD 2 0), r.2) := by
  simp only [get_sequence_4, takeTrails, bind, Except.bind, Except.map]
  cases increase_safely it with
  | error e => rfl
  | ok b =>
      simp only
      cases increase_safely b.2 with
      | error e => rfl
      | ok c =>
          simp only
          cases increase_safely c.2 with
          | error e => rfl
          | ok d => rfl

/-- A sequence reads as the trail bytes that its lead asks for, and their
number. -/
theorem get_sequence_eq {lead : UInt8} {n : Nat} (h : sequence_length lead = n + 1) (it : Bytes) :
    ∃ f : Bytes → UInt32, (∀ trails, trails.length = n → (f trails).toNat = sequenceValue lead trails) ∧
      get_sequence lead it = (takeTrails n it).map fun r => (f r.1, r.2) := by
  have hlead := lead.toNat_lt
  rcases sequence_length_cases lead with ⟨-, h'⟩ | ⟨-, -, h'⟩ | ⟨-, -, h'⟩ | ⟨-, -, h'⟩ | ⟨-, h'⟩
  · obtain rfl : n = 0 := by omega
    refine ⟨fun _ => lead.toUInt32, fun trails hl => ?_, ?_⟩
    · rw [List.length_eq_zero_iff.1 hl]
      exact UInt8.toNat_toUInt32 lead
    · rw [get_sequence, h']
      rfl
  · obtain rfl : n = 1 := by omega
    refine ⟨fun l => ((lead.toUInt32 <<< 6) &&& (0x7ff : UInt32)) + ((l.getD 0 0).toUInt32 &&& 0x3f),
      fun trails hl => ?_, ?_⟩
    · obtain ⟨b, rfl⟩ := List.length_eq_one_iff.1 hl
      have ha : ((lead.toUInt32 <<< 6) &&& (0x7ff : UInt32)).toNat = lead.toNat * 2 ^ 6 % 2 ^ 11 :=
        shift_mask lead 6 0x7ff rfl rfl (by omega)
      simp only [List.getD_cons_zero, sequenceValue, UInt32.toNat_add, ha, mask_toNat]
      omega
    · rw [get_sequence, h']
      exact get_sequence_2_eq lead it
  · obtain rfl : n = 2 := by omega
    refine ⟨fun l => ((lead.toUInt32 <<< 12) &&& (0xffff : UInt32)) +
      (((l.getD 0 0).toUInt32 <<< 6) &&& (0xfff : UInt32)) + ((l.getD 1 0).toUInt32 &&& 0x3f),
      fun trails hl => ?_, ?_⟩
    · obtain ⟨b, c, rfl⟩ := List.length_eq_two.1 hl
      have ha : ((lead.toUInt32 <<< 12) &&& (0xffff : UInt32)).toNat = lead.toNat * 2 ^ 12 % 2 ^ 16 :=
        shift_mask lead 12 0xffff rfl rfl (by omega)
      have hb : ((b.toUInt32 <<< 6) &&& (0xfff : UInt32)).toNat = b.toNat * 2 ^ 6 % 2 ^ 12 :=
        shift_mask b 6 0xfff rfl rfl (by have := b.toNat_lt; omega)
      simp only [List.getD_cons_zero, List.getD_cons_succ, sequenceValue, UInt32.toNat_add, ha, hb,
        mask_toNat]
      omega
    · rw [get_sequence, h']
      exact get_sequence_3_eq lead it
  · obtain rfl : n = 3 := by omega
    refine ⟨fun l => codePoint lead (l.getD 0 0) (l.getD 1 0) (l.getD 2 0), fun trails hl => ?_, ?_⟩
    · obtain ⟨b, c, d, rfl⟩ := List.length_eq_three.1 hl
      exact codePoint_toNat lead b c d
    · rw [get_sequence, h']
      exact get_sequence_4_eq lead it
  · omega

def ValidNumber (length v : Nat) : Prop :=
  v ≤ 0x10FFFF ∧ ¬(0xD800 ≤ v ∧ v ≤ 0xDFFF) ∧ (v < 0x80 → length = 1) ∧
    (0x80 ≤ v → v < 0x800 → length = 2) ∧ (0x800 ≤ v → v < 0x10000 → length = 3)

theorem checks_iff (cp : UInt32) (length : Nat) :
    is_code_point_valid cp ∧ is_overlong_sequence cp length = false ↔ ValidNumber length cp.toNat := by
  simp only [is_code_point_valid, is_surrogate, is_overlong_sequence, ValidNumber, Bool.and_eq_true,
    Bool.not_eq_true', Bool.and_eq_false_iff, decide_eq_true_eq, decide_eq_false_iff_not,
    UInt32.le_iff_toNat_le, UInt32.lt_iff_toNat_lt]
  simp only [UInt32.reduceToNat]
  split_ifs <;> simp <;> omega

structure WellFormed (lead : UInt8) (trails : Bytes) : Prop where
  length : trails.length + 1 = sequence_length lead
  trail : ∀ c ∈ trails, Trail c
  number : ValidNumber (sequence_length lead) (sequenceValue lead trails)

def EndsInside (t : Bytes) : Prop :=
  ∃ lead it, t = lead :: it ∧ (∀ c ∈ it, Trail c) ∧ it.length + 1 < sequence_length lead

inductive Validated (lead : UInt8) (it : Bytes) : Except UtfError Bytes → Prop
  | valid {trails after : Bytes} (hit : it = trails ++ after) (h : WellFormed lead trails) :
      Validated lead it (.ok after)
  | room (h : EndsInside (lead :: it)) : Validated lead it (.error .NOT_ENOUGH_ROOM)
  | lead (h : sequence_length lead = 0) : Validated lead it (.error .INVALID_LEAD)
  | broken {e : UtfError} (he : e ≠ .NOT_ENOUGH_ROOM) (he' : e ≠ .INVALID_LEAD)
      (hroom : ¬ EndsInside (lead :: it))
      (h : ∀ trails after, it = trails ++ after → ¬ WellFormed lead trails) : Validated lead it (.error e)

theorem get_sequence_zero {lead : UInt8} (h : sequence_length lead = 0) (it : Bytes) :
    get_sequence lead it = .error .INVALID_LEAD := by
  rw [get_sequence, h]
  rfl

theorem not_endsInside {lead : UInt8} {trails : Bytes} (h : trails.length + 1 = sequence_length lead)
    (after : Bytes) : ¬ EndsInside (lead :: (trails ++ after)) := by
  rintro ⟨_, _, heq, -, hshort⟩
  obtain ⟨rfl, rfl⟩ := List.cons.inj heq
  rw [List.length_append] at hshort
  omega

theorem not_endsInside_other {lead c : UInt8} {it : Bytes} (hmem : c ∈ it) (hc : ¬ Trail c) :
    ¬ EndsInside (lead :: it) := by
  rintro ⟨_, _, heq, htrail, -⟩
  obtain ⟨rfl, rfl⟩ := List.cons.inj heq
  exact hc (htrail c hmem)

section Broken

variable {lead : UInt8} {trails : Bytes}

theorem not_wellFormed_number (hlength : trails.length + 1 = sequence_length lead)
    (hv : ¬ ValidNumber (sequence_length lead) (sequenceValue lead trails)) (after trails' after' : Bytes)
    (heq : trails ++ after = trails' ++ after') : ¬ WellFormed lead trails' := by
  intro hw
  have hl := hw.length
  obtain ⟨rfl, -⟩ := List.append_inj heq (by omega)
  exact hv hw.number

theorem not_wellFormed_other {c : UInt8} (hc : ¬ Trail c) (hshort : trails.length + 1 < sequence_length lead)
    (after trails' after' : Bytes) (heq : trails ++ c :: after = trails' ++ after') :
    ¬ WellFormed lead trails' := by
  intro hw
  have hl := hw.length
  obtain ⟨more, rfl, hmore⟩ : ∃ more, trails' = trails ++ more ∧ c :: after = more ++ after' := by
    rcases List.append_eq_append_iff.1 heq with ⟨more, h1, h2⟩ | ⟨more, h1, h2⟩
    · exact ⟨more, h1, h2⟩
    · have hshort' := congrArg List.length h1
      rw [List.length_append] at hshort'
      omega
  cases more with
  | nil => rw [List.append_nil] at hl; omega
  | cons d more =>
      obtain ⟨rfl, -⟩ := List.cons.inj hmore
      exact hc (hw.trail c (by simp))

end Broken

theorem validate_next_validated (lead : UInt8) (it : Bytes) : Validated lead it (validate_next lead it) := by
  cases hlength : sequence_length lead with
  | zero =>
      rw [validate_next, get_sequence_zero hlength]
      exact .lead hlength
  | succ n =>
      obtain ⟨f, hf, hget⟩ := get_sequence_eq hlength it
      have htakes := takeTrails_takes n it
      rw [validate_next, hget]
      generalize takeTrails n it = taken at htakes
      cases htakes with
      | @all trails after hit htrails hn =>
          have hchecks := checks_iff (f trails) (sequence_length lead)
          rw [hf trails hn] at hchecks
          subst hit
          have hwhole : trails.length + 1 = sequence_length lead := by omega
          have hroom := not_endsInside hwhole after
          simp only [Except.map, bind, Except.bind, pure, Except.pure]
          by_cases hcp : is_code_point_valid (f trails) = true
          · rw [if_pos hcp]
            cases hover : is_overlong_sequence (f trails) (sequence_length lead) with
            | false => exact .valid rfl ⟨hwhole, htrails, hchecks.1 ⟨hcp, hover⟩⟩
            | true =>
                exact .broken (by simp) (by simp) hroom
                  (not_wellFormed_number hwhole (fun hv => absurd (hchecks.2 hv).2 (by simp [hover])) after)
          · rw [if_neg hcp]
            exact .broken (by simp) (by simp) hroom
              (not_wellFormed_number hwhole (fun hv => hcp (hchecks.2 hv).1) after)
      | room htrails hshort => exact .room ⟨lead, it, rfl, htrails, by omega⟩
      | @broken trails after c hit htrails hc hshort =>
          subst hit
          exact .broken (by simp) (by simp) (not_endsInside_other (by simp) hc)
            (not_wellFormed_other hc (by omega) after)

/-- A sequence of Modified UTF-8. The first octet of the longest is below
`0xF0`, and zero is two octets. -/
inductive ModifiedSequence : Bytes → Prop
  | one {a : UInt8} (ha : 0 < a.toNat) (ha' : a.toNat < 0x80) : ModifiedSequence [a]
  | zero : ModifiedSequence [0xC0, 0x80]
  | two {a b : UInt8} (ha : 0xC2 ≤ a.toNat) (ha' : a.toNat ≤ 0xDF) (hb : Trail b) : ModifiedSequence [a, b]
  | three {a b c : UInt8} (ha : 0xE0 ≤ a.toNat) (ha' : a.toNat ≤ 0xEF) (hb : Trail b) (hc : Trail c)
      (hab : a.toNat = 0xE0 → 0xA0 ≤ b.toNat) : ModifiedSequence [a, b, c]

inductive ModifiedUtf8 : Bytes → Prop
  | nil : ModifiedUtf8 []
  | cons {q rest : Bytes} (hq : ModifiedSequence q) (hrest : ModifiedUtf8 rest) : ModifiedUtf8 (q ++ rest)

theorem ModifiedSequence.head {q : Bytes} (hq : ModifiedSequence q) :
    ∃ a t, q = a :: t ∧ a.toNat < 0xF0 ∧ q.length = sequence_length a := by
  cases hq with
  | @one a ha ha' => exact ⟨a, [], rfl, by omega, (sequence_length_one a ha').symm⟩
  | zero => exact ⟨0xC0, [0x80], rfl, by decide, by decide⟩
  | @two a b ha ha' hb => exact ⟨a, [b], rfl, by omega, (sequence_length_two a (by omega) ha').symm⟩
  | @three a b c ha ha' hb hc hab =>
      exact ⟨a, [b, c], rfl, by omega, (sequence_length_three a ha ha').symm⟩

theorem modifiedUtf8_append {q : Bytes} (hq : ModifiedSequence q) (rest : Bytes) :
    ModifiedUtf8 (q ++ rest) ↔ ModifiedUtf8 rest := by
  refine ⟨fun h => ?_, .cons hq⟩
  generalize htext : q ++ rest = text at h
  obtain ⟨a, t, rfl, -, hlength⟩ := hq.head
  cases h with
  | nil => simp at htext
  | cons hq' hrest =>
      obtain ⟨a', t', rfl, -, hlength'⟩ := hq'.head
      obtain rfl : a = a' := (List.cons.inj htext).1
      obtain ⟨-, rfl⟩ := List.append_inj htext (hlength.trans hlength'.symm)
      exact hrest

theorem not_modifiedUtf8 {a : UInt8} (ha : 0xF0 ≤ a.toNat) (rest : Bytes) : ¬ ModifiedUtf8 (a :: rest) := by
  intro h
  generalize htext : a :: rest = text at h
  cases h with
  | nil => simp at htext
  | cons hq hrest =>
      obtain ⟨a', t', rfl, ha', -⟩ := hq.head
      obtain rfl : a = a' := (List.cons.inj htext).1
      omega

theorem modifiedSequence_mark : ModifiedSequence [0xEF, 0xBF, 0xBD] :=
  .three (by decide) (by decide) (by decide) (by decide) (by decide)

/-- The well-formed sequences are those of Modified UTF-8, and the four-byte
ones. -/
theorem WellFormed.sequence {lead : UInt8} {trails : Bytes} (h : WellFormed lead trails) (hlead : lead ≠ 0) :
    ModifiedSequence (lead :: trails) ∨ FourBytes (lead :: trails) := by
  obtain ⟨hl, htrail, hmax, -, hone, htwo, hthree⟩ := h
  rcases sequence_length_cases lead with
    ⟨ha, h'⟩ | ⟨ha, ha', h'⟩ | ⟨ha, ha', h'⟩ | ⟨ha, ha', h'⟩ | ⟨-, h'⟩
  · obtain rfl := List.length_eq_zero_iff.1 (show trails.length = 0 by omega)
    have hpos : 0 < lead.toNat := Nat.pos_of_ne_zero fun h0 => hlead (UInt8.toNat_inj.1 h0)
    exact .inl (.one hpos ha)
  · obtain ⟨b, rfl⟩ := List.length_eq_one_iff.1 (show trails.length = 1 by omega)
    simp only [sequenceValue] at hone
    exact .inl (.two (by omega) ha' (htrail b (by simp)))
  · obtain ⟨b, c, rfl⟩ := List.length_eq_two.1 (show trails.length = 2 by omega)
    have hb : Trail b := htrail b (by simp)
    simp only [sequenceValue] at hone htwo
    refine .inl (.three ha ha' hb (htrail c (by simp)) fun h0 => ?_)
    obtain ⟨hb, hb'⟩ := hb
    omega
  · obtain ⟨b, c, d, rfl⟩ := List.length_eq_three.1 (show trails.length = 3 by omega)
    have hb : Trail b := htrail b (by simp)
    simp only [sequenceValue] at hmax hone htwo hthree
    refine .inr ⟨lead, b, c, d, rfl, hb, htrail c (by simp), htrail d (by simp), ?_⟩
    obtain ⟨hb, hb'⟩ := hb
    omega
  · omega

theorem wellFormed_of_fourBytes {lead : UInt8} {trails : Bytes} (h : FourBytes (lead :: trails)) :
    WellFormed lead trails := by
  obtain ⟨a, b, c, d, heq, hb, hc, hd, ha⟩ := h
  obtain ⟨rfl, rfl⟩ := List.cons.inj heq
  have hlength : sequence_length lead = 4 := sequence_length_four lead (by omega) (by omega)
  refine ⟨hlength.symm, by simp [hb, hc, hd], ?_⟩
  simp only [ValidNumber, sequenceValue, hlength]
  obtain ⟨hb, hb'⟩ := hb
  obtain ⟨hc, hc'⟩ := hc
  obtain ⟨hd, hd'⟩ := hd
  omega

def BeginsFour (t : Bytes) : Prop := ∃ q, FourBytes q ∧ q <+: t

theorem not_trail_of_endsInside {c : UInt8} {t : Bytes} (h : EndsInside (c :: t)) : ¬ Trail c := by
  obtain ⟨_, _, heq, -, hshort⟩ := h
  obtain ⟨rfl, rfl⟩ := List.cons.inj heq
  intro hc
  rw [sequence_length_trail c hc] at hshort
  omega

theorem not_trail_of_beginsFour {c : UInt8} {t : Bytes} (h : BeginsFour (c :: t)) : ¬ Trail c := by
  obtain ⟨q, ⟨a, b, c', d, rfl, -, -, -, ha⟩, hq⟩ := h
  obtain ⟨rfl, -⟩ := List.cons_prefix_cons.1 hq
  rintro ⟨hc, hc'⟩
  omega

theorem not_endsInside_nil : ¬ EndsInside [] := by
  rintro ⟨_, _, heq, -⟩
  cases heq

theorem not_beginsFour_nil : ¬ BeginsFour [] := by
  rintro ⟨q, ⟨_, _, _, _, rfl, -⟩, hq⟩
  cases List.prefix_nil.1 hq

section Suffixes

variable {P : Bytes → Prop} (hhead : ∀ c t, P (c :: t) → ¬ Trail c)
include hhead

/-- What a suffix starts with is not a trail byte, so none starts among
them. -/
theorem exists_suffix_trails {trails : Bytes} (htrails : ∀ c ∈ trails, Trail c) (after : Bytes) :
    (∃ t, t <:+ trails ++ after ∧ P t) ↔ ∃ t, t <:+ after ∧ P t := by
  induction trails with
  | nil => rfl
  | cons c trails ih =>
      rw [← ih fun d hd => htrails d (List.mem_cons_of_mem c hd)]
      constructor
      · rintro ⟨t, ht, hP⟩
        rcases List.suffix_cons_iff.1 ht with rfl | ht
        · exact absurd (htrails c (by simp)) (hhead c _ hP)
        · exact ⟨t, ht, hP⟩
      · rintro ⟨t, ht, hP⟩
        exact ⟨t, ht.trans (List.suffix_cons c _), hP⟩

theorem exists_suffix_sequence {lead : UInt8} {trails after : Bytes} (htrails : ∀ c ∈ trails, Trail c)
    (hwhole : ¬ P (lead :: (trails ++ after))) :
    (∃ t, t <:+ lead :: (trails ++ after) ∧ P t) ↔ ∃ t, t <:+ after ∧ P t := by
  rw [← exists_suffix_trails hhead htrails after]
  constructor
  · rintro ⟨t, ht, hP⟩
    rcases List.suffix_cons_iff.1 ht with rfl | ht
    · exact absurd hP hwhole
    · exact ⟨t, ht, hP⟩
  · rintro ⟨t, ht, hP⟩
    exact ⟨t, ht.trans (List.suffix_cons lead _), hP⟩

end Suffixes

/-- One pass copies a well-formed sequence or puts a mark for a lead and trail
bytes; it throws where the text ends inside a sequence. -/
inductive Replaced (lead : UInt8) (it : Bytes) : Option (Bytes × Bytes) → Prop
  | throws (h : EndsInside (lead :: it)) : Replaced lead it none
  | copies {trails after : Bytes} (hit : it = trails ++ after) (h : WellFormed lead trails) :
      Replaced lead it (some (lead :: trails, after))
  | marks {trails after : Bytes} (hit : it = trails ++ after) (htrails : ∀ c ∈ trails, Trail c)
      (hroom : ¬ EndsInside (lead :: it)) (hfour : ¬ BeginsFour (lead :: it)) :
      Replaced lead it (some ([0xEF, 0xBF, 0xBD], after))

theorem BeginsFour.wellFormed {lead : UInt8} {it : Bytes} (h : BeginsFour (lead :: it)) :
    ∃ trails after, it = trails ++ after ∧ FourBytes (lead :: trails) := by
  obtain ⟨q, hq, after, hafter⟩ := h
  obtain ⟨a, b, c, d, rfl, -⟩ := id hq
  obtain ⟨rfl, hit⟩ := List.cons.inj hafter
  exact ⟨[b, c, d], after, hit.symm, hq⟩

theorem not_beginsFour {lead : UInt8} {it : Bytes}
    (h : ∀ trails after, it = trails ++ after → ¬ WellFormed lead trails) : ¬ BeginsFour (lead :: it) := by
  intro hfour
  obtain ⟨trails, after, hit, hq⟩ := hfour.wellFormed
  exact h trails after hit (wellFormed_of_fourBytes hq)

theorem marks_dropWhile {lead : UInt8} {it : Bytes} (hroom : ¬ EndsInside (lead :: it))
    (hfour : ¬ BeginsFour (lead :: it)) :
    Replaced lead it (some ([0xEF, 0xBF, 0xBD], it.dropWhile is_trail)) :=
  .marks (List.takeWhile_append_dropWhile).symm
    (fun c hc => (is_trail_iff c).1 (List.mem_takeWhile_imp hc)) hroom hfour

theorem replaceNext_replaced (lead : UInt8) (it : Bytes) : Replaced lead it (replaceNext lead it) := by
  have hvalidated := validate_next_validated lead it
  rw [replaceNext]
  generalize validate_next lead it = r at hvalidated
  cases hvalidated with
  | @valid trails after hit h =>
      subst hit
      have htake : (lead :: (trails ++ after)).take ((lead :: (trails ++ after)).length - after.length) =
          lead :: trails := by
        rw [← List.cons_append, List.length_append, Nat.add_sub_cancel]
        exact List.take_left
      simp only [htake]
      exact .copies rfl h
  | room h => exact .throws h
  | lead h =>
      have hroom : ¬ EndsInside (lead :: it) := by
        rintro ⟨_, _, heq, -, hshort⟩
        obtain ⟨rfl, rfl⟩ := List.cons.inj heq
        omega
      have hfour : ¬ BeginsFour (lead :: it) := by
        refine not_beginsFour fun trails after _ hw => ?_
        have hl := hw.length
        omega
      exact .marks (show it = [] ++ it from rfl) (by simp) hroom hfour
  | @broken e he he' hroom h =>
      cases e with
      | NOT_ENOUGH_ROOM => exact absurd rfl he
      | INVALID_LEAD => exact absurd rfl he'
      | INCOMPLETE_SEQUENCE | OVERLONG_SEQUENCE | INVALID_CODE_POINT =>
          exact marks_dropWhile hroom (not_beginsFour h)

theorem replaceNext_length {lead : UInt8} {it out rest : Bytes} (h : replaceNext lead it = some (out, rest)) :
    rest.length ≤ it.length := by
  have hreplaced := replaceNext_replaced lead it
  rw [h] at hreplaced
  cases hreplaced with
  | copies hit | marks hit => simp [hit]

/-- The loop over a text; `none` is an exception. -/
def replace_invalid : Bytes → Option Bytes
  | [] => some []
  | lead :: it =>
      match _h : replaceNext lead it with
      | none => none
      | some (out, rest) => (replace_invalid rest).map (out ++ ·)
termination_by s => s.length
decreasing_by exact Nat.lt_succ_of_le (replaceNext_length _h)

theorem replace_invalid_none {lead : UInt8} {it : Bytes} (h : replaceNext lead it = none) :
    replace_invalid (lead :: it) = none := by
  rw [replace_invalid]
  split
  · rfl
  · next h' => rw [h] at h'; cases h'

theorem replace_invalid_some {lead : UInt8} {it out rest : Bytes} (h : replaceNext lead it = some (out, rest)) :
    replace_invalid (lead :: it) = (replace_invalid rest).map (out ++ ·) := by
  rw [replace_invalid]
  split
  · next h' => rw [h] at h'; cases h'
  · next h' =>
      obtain ⟨rfl, rfl⟩ := Prod.mk.inj (Option.some.inj (h.symm.trans h'))
      rfl

theorem replaced_suffixes {lead : UInt8} {it out rest : Bytes} (h : replaceNext lead it = some (out, rest)) :
    ((∃ t, t <:+ lead :: it ∧ EndsInside t) ↔ ∃ t, t <:+ rest ∧ EndsInside t) := by
  have hreplaced := replaceNext_replaced lead it
  rw [h] at hreplaced
  have hhead : ∀ c t, EndsInside (c :: t) → ¬ Trail c := fun c t => not_trail_of_endsInside
  cases hreplaced with
  | @copies trails _ hit hw =>
      subst hit
      exact exists_suffix_sequence hhead hw.trail (not_endsInside hw.length _)
  | marks hit htrails hroom hfour =>
      subst hit
      exact exists_suffix_sequence hhead htrails hroom

/-- The loop throws on the texts that end inside a sequence. -/
theorem replace_invalid_eq_none_iff (s : Bytes) :
    replace_invalid s = none ↔ ∃ t, t <:+ s ∧ EndsInside t := by
  induction s using replace_invalid.induct with
  | case1 =>
      rw [replace_invalid]
      refine ⟨fun h => (Option.some_ne_none _ h).elim, ?_⟩
      rintro ⟨t, ht, hends⟩
      rw [List.suffix_nil.1 ht] at hends
      exact absurd hends not_endsInside_nil
  | case2 lead it h =>
      refine ⟨fun _ => ⟨lead :: it, List.suffix_rfl, ?_⟩, fun _ => replace_invalid_none h⟩
      have hreplaced := replaceNext_replaced lead it
      rw [h] at hreplaced
      cases hreplaced with
      | throws h => exact h
  | case3 lead it out rest h ih =>
      rw [replace_invalid_some h, Option.map_eq_none_iff, ih, replaced_suffixes h]

/-- What the loop writes is Modified UTF-8, but for the four-byte sequences of
the text, which it copies. -/
theorem modifiedUtf8_replace_invalid {s : Bytes} (h0 : 0 ∉ s) {out : Bytes} (h : replace_invalid s = some out) :
    ModifiedUtf8 out ↔ ¬ ∃ t, t <:+ s ∧ BeginsFour t := by
  induction s using replace_invalid.induct generalizing out with
  | case1 =>
      rw [replace_invalid] at h
      obtain rfl := Option.some.inj h
      refine ⟨fun _ => ?_, fun _ => .nil⟩
      rintro ⟨t, ht, hfour⟩
      rw [List.suffix_nil.1 ht] at hfour
      exact not_beginsFour_nil hfour
  | case2 lead it hnext =>
      rw [replace_invalid_none hnext] at h
      cases h
  | case3 lead it piece rest hnext ih =>
      rw [replace_invalid_some hnext] at h
      obtain ⟨out, hout, rfl⟩ := Option.map_eq_some_iff.1 h
      have hreplaced := replaceNext_replaced lead it
      rw [hnext] at hreplaced
      have hhead : ∀ c t, BeginsFour (c :: t) → ¬ Trail c := fun c t => not_trail_of_beginsFour
      cases hreplaced with
      | @copies trails _ hit hw =>
          subst hit
          rcases hw.sequence fun h => h0 (by simp [h]) with hq | hq
          · obtain ⟨a, t, heq, ha, -⟩ := hq.head
            obtain ⟨rfl, rfl⟩ := List.cons.inj heq
            have hwhole : ¬ BeginsFour (lead :: (trails ++ rest)) := by
              rintro ⟨q, ⟨a, b, c, d, rfl, -, -, -, ha'⟩, hq⟩
              obtain ⟨rfl, -⟩ := List.cons_prefix_cons.1 hq
              omega
            rw [modifiedUtf8_append hq, exists_suffix_sequence hhead hw.trail hwhole]
            exact ih (fun h => h0 (by simp [h])) hout
          · obtain ⟨a, b, c, d, heq, -, -, -, ha⟩ := id hq
            obtain ⟨rfl, rfl⟩ := List.cons.inj heq
            refine iff_of_false (not_modifiedUtf8 (by omega) _) (not_not_intro ?_)
            exact ⟨_, List.suffix_rfl, _, hq, List.prefix_append _ rest⟩
      | @marks trails _ hit htrails hroom hfour =>
          subst hit
          rw [modifiedUtf8_append modifiedSequence_mark, exists_suffix_sequence hhead htrails hfour]
          exact ih (fun h => h0 (by simp [h])) hout

end SberWifi.ReplaceInvalid
