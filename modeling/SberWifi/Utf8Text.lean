import SberWifi.ReplaceInvalid

namespace SberWifi.Utf8Text

open CJsonPrint ReplaceInvalid

inductive ValidUtf8 : Bytes → Prop
  | nil : ValidUtf8 []
  | cons {lead : UInt8} {trails rest : Bytes} (h : WellFormed lead trails) (hrest : ValidUtf8 rest) :
      ValidUtf8 (lead :: (trails ++ rest))

theorem wellFormed_unique {lead : UInt8} {trails trails' after after' : Bytes} (h : WellFormed lead trails)
    (h' : WellFormed lead trails') (heq : trails ++ after = trails' ++ after') : after = after' :=
  (List.append_inj heq (Nat.succ.inj (h.length.trans h'.length.symm))).2

section Replacing

theorem validate_next_wellFormed {lead : UInt8} {trails : Bytes} (h : WellFormed lead trails) (rest : Bytes) :
    validate_next lead (trails ++ rest) = .ok rest := by
  have hvalidated := validate_next_validated lead (trails ++ rest)
  generalize validate_next lead (trails ++ rest) = r at hvalidated
  cases hvalidated with
  | valid hit h' => rw [wellFormed_unique h h' hit]
  | room hends => exact (not_endsInside h.length rest hends).elim
  | lead hlength =>
      have hl := h.length
      omega
  | broken _ _ _ hnone => exact (hnone trails rest rfl h).elim

theorem replaceNext_wellFormed {lead : UInt8} {trails : Bytes} (h : WellFormed lead trails) (rest : Bytes) :
    replaceNext lead (trails ++ rest) = some (lead :: trails, rest) := by
  rw [replaceNext, validate_next_wellFormed h]
  dsimp only
  rw [← List.cons_append, List.length_append, Nat.add_sub_cancel, List.take_left]

theorem mark_wellFormed : WellFormed 0xEF [0xBF, 0xBD] where
  length := by decide
  trail := List.forall_mem_cons.2 ⟨by decide, List.forall_mem_singleton.2 (by decide)⟩
  number := ⟨by decide, by decide, by decide, by decide, by decide⟩

theorem replace_invalid_valid {s : Bytes} (h : ValidUtf8 s) : replace_invalid s = some s := by
  induction h with
  | nil => rw [replace_invalid]
  | @cons lead trails rest hw hrest ih =>
      rw [replace_invalid_some (replaceNext_wellFormed hw rest), ih]
      rfl

theorem valid_replace_invalid {s out : Bytes} (h : replace_invalid s = some out) : ValidUtf8 out := by
  induction s using replace_invalid.induct generalizing out with
  | case1 =>
      rw [replace_invalid] at h
      obtain rfl := Option.some.inj h
      exact .nil
  | case2 lead it hnext =>
      rw [replace_invalid_none hnext] at h
      cases h
  | case3 lead it piece rest hnext ih =>
      rw [replace_invalid_some hnext] at h
      obtain ⟨out, hout, rfl⟩ := Option.map_eq_some_iff.1 h
      have hreplaced := replaceNext_replaced lead it
      rw [hnext] at hreplaced
      cases hreplaced with
      | copies hit hw => exact .cons hw (ih hout)
      | marks => exact .cons mark_wellFormed (ih hout)

/-- A mark takes three bytes, and what it stands for at least one. -/
theorem length_replace_invalid {s out : Bytes} (h : replace_invalid s = some out) : out.length ≤ 3 * s.length := by
  induction s using replace_invalid.induct generalizing out with
  | case1 =>
      rw [replace_invalid] at h
      obtain rfl := Option.some.inj h
      exact Nat.le_refl 0
  | case2 lead it hnext =>
      rw [replace_invalid_none hnext] at h
      cases h
  | case3 lead it piece rest hnext ih =>
      rw [replace_invalid_some hnext] at h
      obtain ⟨out, hout, rfl⟩ := Option.map_eq_some_iff.1 h
      have ih := ih hout
      have hreplaced := replaceNext_replaced lead it
      rw [hnext] at hreplaced
      cases hreplaced with
      | copies hit | marks hit =>
          simp only [hit, List.length_append, List.length_cons, List.length_nil]
          omega

end Replacing

section Appending

theorem toNat_lead {x b : UInt32} {i a v : Nat} (hx : x.toNat = v) (hv : v < 2 ^ i) (hb : b.toNat = 2 ^ i * a)
    (hfit : 2 ^ i * a + v < 256) : (x ||| b).toUInt8.toNat = 2 ^ i * a + v := by
  rw [UInt32.toNat_toUInt8, UInt32.toNat_or, hx, hb, Nat.or_comm, ← Nat.two_pow_add_eq_or_of_lt hv,
    Nat.mod_eq_of_lt hfit]

theorem toNat_shift (cp s : UInt32) {k : Nat} (hs : s.toNat % 32 = k) : (cp >>> s).toNat = cp.toNat / 2 ^ k := by
  rw [UInt32.toNat_shiftRight, hs, Nat.shiftRight_eq_div_pow]

theorem toNat_low (cp : UInt32) : (cp &&& 0x3f).toNat = cp.toNat % 64 := by
  rw [UInt32.toNat_and]
  exact Nat.and_two_pow_sub_one_eq_mod cp.toNat 6

theorem toNat_trail (cp : UInt32) : ((cp &&& 0x3f) ||| 0x80).toUInt8.toNat = 128 + cp.toNat % 64 :=
  toNat_lead (i := 6) (a := 2) (toNat_low cp) (Nat.mod_lt _ (by decide)) rfl (by omega)

theorem trail_append (cp : UInt32) : Trail ((cp &&& 0x3f) ||| 0x80).toUInt8 := by
  rw [Trail, toNat_trail]
  omega

theorem valid_iff (cp : UInt32) :
    is_code_point_valid cp ↔ cp.toNat ≤ 0x10FFFF ∧ ¬(0xD800 ≤ cp.toNat ∧ cp.toNat ≤ 0xDFFF) := by
  simp only [is_code_point_valid, is_surrogate, Bool.and_eq_true, Bool.not_eq_true', Bool.and_eq_false_iff,
    decide_eq_true_eq, decide_eq_false_iff_not, UInt32.le_iff_toNat_le]
  simp only [UInt32.reduceToNat]
  omega

theorem wellFormed_of_value {lead : UInt8} {trails : Bytes} {n v : Nat} (hlength : sequence_length lead = n)
    (hn : trails.length + 1 = n) (htrails : ∀ c ∈ trails, Trail c) (hvalue : sequenceValue lead trails = v)
    (hv : ValidNumber n v) : WellFormed lead trails ∧ sequenceValue lead trails = v := by
  subst hlength hvalue
  exact ⟨⟨hn, htrails, hv⟩, rfl⟩

def trailByte (cp : UInt32) : UInt8 := ((cp &&& 0x3f) ||| 0x80).toUInt8

theorem toNat_trailByte (cp s : UInt32) {k : Nat} (hs : s.toNat % 32 = k) :
    (trailByte (cp >>> s)).toNat = 128 + cp.toNat / 2 ^ k % 64 := by
  rw [trailByte, toNat_trail, toNat_shift cp s hs]

variable {cp : UInt32}

theorem one_wellFormed (h : cp.toNat < 0x80) :
    WellFormed cp.toUInt8 [] ∧ sequenceValue cp.toUInt8 [] = cp.toNat := by
  have hlead : cp.toUInt8.toNat = cp.toNat := by
    rw [UInt32.toNat_toUInt8]
    exact Nat.mod_eq_of_lt (h.trans (by decide))
  refine wellFormed_of_value (sequence_length_one _ (by omega)) rfl (List.forall_mem_nil _) hlead ?_
  refine ⟨?_, ?_, ?_, ?_, ?_⟩ <;> omega

theorem two_wellFormed (hlow : 0x80 ≤ cp.toNat) (hhigh : cp.toNat < 0x800) :
    WellFormed ((cp >>> 6) ||| 0xc0).toUInt8 [trailByte cp] ∧
      sequenceValue ((cp >>> 6) ||| 0xc0).toUInt8 [trailByte cp] = cp.toNat := by
  have hlead : ((cp >>> 6) ||| 0xc0).toUInt8.toNat = 192 + cp.toNat / 2 ^ 6 :=
    toNat_lead (i := 6) (a := 3) (toNat_shift cp 6 rfl) (by omega) rfl (by omega)
  have hb : (trailByte cp).toNat = 128 + cp.toNat % 64 := toNat_trail cp
  refine wellFormed_of_value (sequence_length_two _ (by omega) (by omega)) rfl ?_ ?_ ?_
  · exact List.forall_mem_singleton.2 (trail_append cp)
  · rw [sequenceValue, hlead, hb]
    omega
  · refine ⟨?_, ?_, ?_, ?_, ?_⟩ <;> omega

theorem three_wellFormed (hlow : 0x800 ≤ cp.toNat) (hhigh : cp.toNat < 0x10000)
    (hsurrogate : ¬(0xD800 ≤ cp.toNat ∧ cp.toNat ≤ 0xDFFF)) :
    WellFormed ((cp >>> 12) ||| 0xe0).toUInt8 [trailByte (cp >>> 6), trailByte cp] ∧
      sequenceValue ((cp >>> 12) ||| 0xe0).toUInt8 [trailByte (cp >>> 6), trailByte cp] = cp.toNat := by
  have hlead : ((cp >>> 12) ||| 0xe0).toUInt8.toNat = 224 + cp.toNat / 2 ^ 12 :=
    toNat_lead (i := 4) (a := 14) (toNat_shift cp 12 rfl) (by omega) rfl (by omega)
  have hb : (trailByte (cp >>> 6)).toNat = 128 + cp.toNat / 2 ^ 6 % 64 := toNat_trailByte cp 6 rfl
  have hc : (trailByte cp).toNat = 128 + cp.toNat % 64 := toNat_trail cp
  refine wellFormed_of_value (sequence_length_three _ (by omega) (by omega)) rfl ?_ ?_ ?_
  · exact List.forall_mem_cons.2 ⟨trail_append (cp >>> 6), List.forall_mem_singleton.2 (trail_append cp)⟩
  · rw [sequenceValue, hlead, hb, hc]
    omega
  · refine ⟨?_, hsurrogate, ?_, ?_, ?_⟩ <;> omega

theorem four_wellFormed (hlow : 0x10000 ≤ cp.toNat) (hhigh : cp.toNat ≤ 0x10FFFF) :
    WellFormed ((cp >>> 18) ||| 0xf0).toUInt8 [trailByte (cp >>> 12), trailByte (cp >>> 6), trailByte cp] ∧
      sequenceValue ((cp >>> 18) ||| 0xf0).toUInt8 [trailByte (cp >>> 12), trailByte (cp >>> 6), trailByte cp] =
        cp.toNat := by
  have hlead : ((cp >>> 18) ||| 0xf0).toUInt8.toNat = 240 + cp.toNat / 2 ^ 18 :=
    toNat_lead (i := 3) (a := 30) (toNat_shift cp 18 rfl) (by omega) rfl (by omega)
  have hb : (trailByte (cp >>> 12)).toNat = 128 + cp.toNat / 2 ^ 12 % 64 := toNat_trailByte cp 12 rfl
  have hc : (trailByte (cp >>> 6)).toNat = 128 + cp.toNat / 2 ^ 6 % 64 := toNat_trailByte cp 6 rfl
  have hd : (trailByte cp).toNat = 128 + cp.toNat % 64 := toNat_trail cp
  refine wellFormed_of_value (sequence_length_four _ (by omega) (by omega)) rfl ?_ ?_ ?_
  · exact List.forall_mem_cons.2 ⟨trail_append (cp >>> 12),
      List.forall_mem_cons.2 ⟨trail_append (cp >>> 6), List.forall_mem_singleton.2 (trail_append cp)⟩⟩
  · rw [sequenceValue, hlead, hb, hc, hd]
    omega
  · refine ⟨hhigh, ?_, ?_, ?_, ?_⟩ <;> omega

/-- What `append` writes is the sequence of the code point. -/
theorem append_wellFormed (h : is_code_point_valid cp) :
    ∃ lead trails, append cp = some (lead :: trails) ∧ WellFormed lead trails ∧
      sequenceValue lead trails = cp.toNat := by
  obtain ⟨hmax, hsurrogate⟩ := (valid_iff cp).1 h
  have hlt1 : cp < 0x80 ↔ cp.toNat < 0x80 := UInt32.lt_iff_toNat_lt
  have hlt2 : cp < 0x800 ↔ cp.toNat < 0x800 := UInt32.lt_iff_toNat_lt
  have hlt3 : cp < 0x10000 ↔ cp.toNat < 0x10000 := UInt32.lt_iff_toNat_lt
  rw [append, if_neg (by simp [h])]
  by_cases hone : cp.toNat < 0x80
  · rw [if_pos (hlt1.2 hone)]
    exact ⟨_, _, rfl, one_wellFormed hone⟩
  rw [if_neg fun h => hone (hlt1.1 h)]
  by_cases htwo : cp.toNat < 0x800
  · rw [if_pos (hlt2.2 htwo)]
    exact ⟨_, _, rfl, two_wellFormed (Nat.not_lt.1 hone) htwo⟩
  rw [if_neg fun h => htwo (hlt2.1 h)]
  by_cases hthree : cp.toNat < 0x10000
  · rw [if_pos (hlt3.2 hthree)]
    exact ⟨_, _, rfl, three_wellFormed (Nat.not_lt.1 htwo) hthree hsurrogate⟩
  rw [if_neg fun h => hthree (hlt3.1 h)]
  exact ⟨_, _, rfl, four_wellFormed (Nat.not_lt.1 hthree) hmax⟩

end Appending

section Reading

inductive Shape (v : Nat) : UInt8 → Bytes → Prop
  | one {a : UInt8} (ha : a.toNat = v) (hv : v < 0x80) : Shape v a []
  | two {a b : UInt8} (ha : a.toNat = 192 + v / 64) (hb : b.toNat = 128 + v % 64) (hlow : 0x80 ≤ v)
      (hv : v < 0x800) : Shape v a [b]
  | three {a b c : UInt8} (ha : a.toNat = 224 + v / 4096) (hb : b.toNat = 128 + v / 64 % 64)
      (hc : c.toNat = 128 + v % 64) (hlow : 0x800 ≤ v) (hv : v < 0x10000) : Shape v a [b, c]
  | four {a b c d : UInt8} (ha : a.toNat = 240 + v / 262144) (hb : b.toNat = 128 + v / 4096 % 64)
      (hc : c.toNat = 128 + v / 64 % 64) (hd : d.toNat = 128 + v % 64) (hlow : 0x10000 ≤ v) : Shape v a [b, c, d]

theorem shape_of_wellFormed {lead : UInt8} {trails : Bytes} (h : WellFormed lead trails) :
    Shape (sequenceValue lead trails) lead trails := by
  obtain ⟨hl, htrail, hmax, -, hone, htwo, hthree⟩ := h
  rcases sequence_length_cases lead with
    ⟨ha, h'⟩ | ⟨ha, ha', h'⟩ | ⟨ha, ha', h'⟩ | ⟨ha, ha', h'⟩ | ⟨-, h'⟩
  · obtain rfl := List.length_eq_zero_iff.1 (show trails.length = 0 by omega)
    exact .one rfl ha
  · obtain ⟨b, rfl⟩ := List.length_eq_one_iff.1 (show trails.length = 1 by omega)
    obtain ⟨hb, hb'⟩ := htrail b (by simp)
    simp only [sequenceValue] at hone ⊢
    exact .two (by omega) (by omega) (by omega) (by omega)
  · obtain ⟨b, c, rfl⟩ := List.length_eq_two.1 (show trails.length = 2 by omega)
    obtain ⟨hb, hb'⟩ := htrail b (by simp)
    obtain ⟨hc, hc'⟩ := htrail c (by simp)
    simp only [sequenceValue] at hone htwo ⊢
    exact .three (by omega) (by omega) (by omega) (by omega) (by omega)
  · obtain ⟨b, c, d, rfl⟩ := List.length_eq_three.1 (show trails.length = 3 by omega)
    obtain ⟨hb, hb'⟩ := htrail b (by simp)
    obtain ⟨hc, hc'⟩ := htrail c (by simp)
    obtain ⟨hd, hd'⟩ := htrail d (by simp)
    simp only [sequenceValue] at hone htwo hthree ⊢
    exact .four (by omega) (by omega) (by omega) (by omega) (by omega)
  · omega

theorem byte_eq {x y : UInt8} {n : Nat} (hx : x.toNat = n) (hy : y.toNat = n) : x = y :=
  UInt8.toNat_inj.1 (hx.trans hy.symm)

/-- A number has one sequence. -/
theorem shape_unique {v : Nat} {lead lead' : UInt8} {trails trails' : Bytes} (h : Shape v lead trails)
    (h' : Shape v lead' trails') : lead = lead' ∧ trails = trails' := by
  cases h with
  | one ha hv =>
      cases h' with
      | one ha' => exact ⟨byte_eq ha ha', rfl⟩
      | two | three | four => omega
  | two ha hb hlow hv =>
      cases h' with
      | two ha' hb' => exact ⟨byte_eq ha ha', by rw [byte_eq hb hb']⟩
      | one | three | four => omega
  | three ha hb hc hlow hv =>
      cases h' with
      | three ha' hb' hc' => exact ⟨byte_eq ha ha', by rw [byte_eq hb hb', byte_eq hc hc']⟩
      | one | two | four => omega
  | four ha hb hc hd hlow =>
      cases h' with
      | four ha' hb' hc' hd' => exact ⟨byte_eq ha ha', by rw [byte_eq hb hb', byte_eq hc hc', byte_eq hd hd']⟩
      | one | two | three => omega

/-- A well-formed sequence is what `append` writes for its number. -/
theorem append_of_wellFormed {lead : UInt8} {trails : Bytes} (h : WellFormed lead trails) :
    ∃ cp, is_code_point_valid cp ∧ cp.toNat = sequenceValue lead trails ∧ append cp = some (lead :: trails) := by
  obtain ⟨hmax, hsurrogate, -⟩ := h.number
  have hcp : (UInt32.ofNat (sequenceValue lead trails)).toNat = sequenceValue lead trails :=
    UInt32.toNat_ofNat_of_lt' (hmax.trans_lt (by decide))
  have hvalid : is_code_point_valid (.ofNat (sequenceValue lead trails)) := by
    rw [valid_iff, hcp]
    exact ⟨hmax, hsurrogate⟩
  obtain ⟨lead', trails', happend, hw, hvalue⟩ := append_wellFormed hvalid
  have hshape := shape_of_wellFormed hw
  rw [hvalue, hcp] at hshape
  obtain ⟨rfl, rfl⟩ := shape_unique hshape (shape_of_wellFormed h)
  exact ⟨_, hvalid, hcp, happend⟩

theorem takeTrails_append {trails : Bytes} (htrails : ∀ c ∈ trails, Trail c) (rest : Bytes) :
    takeTrails trails.length (trails ++ rest) = .ok (trails, rest) := by
  induction trails with
  | nil => rfl
  | cons c trails ih =>
      obtain ⟨hc, htrails⟩ := List.forall_mem_cons.1 htrails
      rw [List.length_cons, List.cons_append, takeTrails_trail _ hc, ih htrails]
      rfl

theorem get_sequence_wellFormed {lead : UInt8} {trails : Bytes} (h : WellFormed lead trails) {cp : UInt32}
    (hcp : cp.toNat = sequenceValue lead trails) (rest : Bytes) :
    get_sequence lead (trails ++ rest) = .ok (cp, rest) := by
  obtain ⟨f, hf, hget⟩ := get_sequence_eq h.length.symm (trails ++ rest)
  rw [hget, takeTrails_append h.trail]
  have hvalue : f trails = cp := UInt32.toNat_inj.1 ((hf trails rfl).trans hcp.symm)
  rw [← hvalue]
  rfl

/-- What is written for a valid code point is read as this code point, and what is
accepted is what is written for the code point that is read. -/
theorem append_read (lead : UInt8) (it rest : Bytes) (cp : UInt32) :
    validate_next lead it = .ok rest ∧ get_sequence lead it = .ok (cp, rest) ↔
      ∃ trails, is_code_point_valid cp ∧ append cp = some (lead :: trails) ∧ it = trails ++ rest := by
  constructor
  · rintro ⟨hnext, hget⟩
    have hvalidated := validate_next_validated lead it
    rw [hnext] at hvalidated
    cases hvalidated with
    | @valid trails _ hit hw =>
        subst hit
        obtain ⟨cp', hvalid, hvalue, happend⟩ := append_of_wellFormed hw
        rw [get_sequence_wellFormed hw hvalue] at hget
        obtain ⟨rfl, -⟩ := Prod.mk.inj (Except.ok.inj hget)
        exact ⟨trails, hvalid, happend, rfl⟩
  · rintro ⟨trails, hvalid, happend, rfl⟩
    obtain ⟨lead', trails', happend', hw, hvalue⟩ := append_wellFormed hvalid
    obtain ⟨rfl, rfl⟩ := List.cons.inj (Option.some.inj (happend'.symm.trans happend))
    exact ⟨validate_next_wellFormed hw rest, get_sequence_wellFormed hw hvalue.symm rest⟩

end Reading

section Texts

def text (cps : List UInt32) : Bytes := cps.flatMap fun cp => (append cp).getD []

theorem validUtf8_iff (s : Bytes) : ValidUtf8 s ↔ ∃ cps, (∀ cp ∈ cps, is_code_point_valid cp) ∧ s = text cps := by
  constructor
  · intro h
    induction h with
    | nil => exact ⟨[], List.forall_mem_nil _, rfl⟩
    | @cons lead trails rest hw hrest ih =>
        obtain ⟨cps, hcps, rfl⟩ := ih
        obtain ⟨cp, hvalid, -, happend⟩ := append_of_wellFormed hw
        refine ⟨cp :: cps, List.forall_mem_cons.2 ⟨hvalid, hcps⟩, ?_⟩
        rw [text, text, List.flatMap_cons, happend]
        rfl
  · rintro ⟨cps, hcps, rfl⟩
    induction cps with
    | nil => exact .nil
    | cons cp cps ih =>
        obtain ⟨hvalid, hcps⟩ := List.forall_mem_cons.1 hcps
        obtain ⟨lead, trails, happend, hw, -⟩ := append_wellFormed hvalid
        rw [text, List.flatMap_cons, happend]
        exact .cons hw (ih hcps)

/-- Only the texts of valid code points are left as they are. A cleaned text is one
of them, so that cleaning it again changes nothing. -/
theorem replace_invalid_text (s : Bytes) :
    (replace_invalid s = some s ↔ ∃ cps, (∀ cp ∈ cps, is_code_point_valid cp) ∧ s = text cps) ∧
      ∀ out, replace_invalid s = some out →
        (∃ cps, (∀ cp ∈ cps, is_code_point_valid cp) ∧ out = text cps) ∧ replace_invalid out = some out ∧
          out.length ≤ 3 * s.length := by
  constructor
  · rw [← validUtf8_iff]
    exact ⟨valid_replace_invalid, replace_invalid_valid⟩
  · intro out h
    have hvalid := valid_replace_invalid h
    exact ⟨(validUtf8_iff out).1 hvalid, replace_invalid_valid hvalid, length_replace_invalid h⟩

theorem replace_invalid_mark : replace_invalid [0x61, 0x80, 0x62] = some [0x61, 0xEF, 0xBF, 0xBD, 0x62] := by
  rw [replace_invalid_some (show replaceNext 0x61 [0x80, 0x62] = some ([0x61], [0x80, 0x62]) from rfl),
    replace_invalid_some (show replaceNext 0x80 [0x62] = some ([0xEF, 0xBF, 0xBD], [0x62]) from rfl),
    replace_invalid_some (show replaceNext 0x62 [] = some ([0x62], []) from rfl), replace_invalid]
  rfl

theorem replace_invalid_text_sample :
    replace_invalid [0x61, 0xEF, 0xBF, 0xBD, 0x62] = some [0x61, 0xEF, 0xBF, 0xBD, 0x62] ∧
      ¬ ∃ cps, (∀ cp ∈ cps, is_code_point_valid cp) ∧ [0x61, 0x80, 0x62] = text cps := by
  obtain ⟨hleft, hcleaned⟩ := replace_invalid_text [0x61, 0x80, 0x62]
  obtain ⟨-, htwice, -⟩ := hcleaned _ replace_invalid_mark
  refine ⟨htwice, fun h => ?_⟩
  rw [replace_invalid_mark] at hleft
  exact absurd (hleft.2 h) (by decide)

end Texts

end SberWifi.Utf8Text
