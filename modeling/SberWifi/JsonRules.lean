import Mathlib.Data.List.TakeWhile
import SberWifi.JsonText

namespace SberWifi.JsonRules

open JavaString JsonTokens JsonText

section Spaces

variable {w : JString} (hw : w.all isSpace)
include hw

theorem next_spaces (s : JString) : next (w ++ s) = next s := by
  have hdrop : (w ++ s).dropWhile isSpace = s.dropWhile isSpace := by
    exact List.dropWhile_append_of_pos (List.all_eq_true.1 hw)
  rw [next, next, hdrop]

theorem value_spaces (n : Nat) (s : JString) : value n (w ++ s) = value n s := by
  cases n with
  | zero => rfl
  | succ n => rw [value, value, next_spaces hw]

theorem expect_spaces (c : UInt16) (s : JString) : expect c (w ++ s) = expect c s := by
  rw [expect, expect, next_spaces hw]

theorem stops_spaces {t : JString} (ht : Stops t) : Stops (w ++ t) := by
  cases w with
  | nil => exact ht
  | cons d w =>
      intro c hc
      cases hc
      have hd := List.all_eq_true.1 hw d List.mem_cons_self
      simp only [isSpace, Bool.or_eq_true, beq_iff_eq] at hd
      rcases hd with ((rfl | rfl) | rfl) | rfl <;> rfl

theorem parse_spaces_left {s : JString} {v : Json} (h : parse s = some v) : parse (w ++ s) = some v := by
  obtain ⟨n, rest, hv, hrest⟩ := (parse_iff s v).1 h
  apply (parse_iff (w ++ s) v).2
  refine ⟨n, rest, ?_, hrest⟩
  rw [value_spaces hw, hv]

theorem parse_spaces_right {s : JString} {v : Json} (h : parse s = some v) : parse (s ++ w) = some v := by
  have hstops : Stops w := by
    have hnil := stops_spaces hw (t := []) (by simp [Stops])
    rwa [List.append_nil] at hnil
  obtain ⟨rest, hrest, hv⟩ := value_of_parse h hstops (Nat.le_refl _)
  apply (parse_iff (s ++ w) v).2
  refine ⟨s.length, rest ++ w, hv, ?_⟩
  rw [List.all_append, hrest, hw]
  rfl

end Spaces

/-- No value begins with a bracket that closes. -/
theorem next_of_parse {s : JString} {v : Json} (h : parse s = some v) :
    ∃ c r, next s = some (c, r) ∧ c ≠ 93 ∧ c ≠ 125 := by
  obtain ⟨n, rest, hv, -⟩ := (parse_iff s v).1 h
  cases n with
  | zero => cases hv
  | succ n =>
      obtain ⟨⟨c, r⟩, hnext, -⟩ := Option.bind_eq_some_iff.1 hv
      refine ⟨c, r, hnext, ?_, ?_⟩
      · rintro rfl
        rw [value_of_next hnext] at hv
        cases hv
      · rintro rfl
        rw [value_of_next hnext] at hv
        cases hv

theorem parse_of_value {s : JString} {v : Json} {n : Nat} (h : value n s = some (v, [])) :
    parse s = some v :=
  (parse_iff s v).2 ⟨n, [], h, rfl⟩

theorem parse_null : parse (str "null") = some .null := rfl

theorem parse_bool (b : Bool) : parse (str (if b then "true" else "false")) = some (.bool b) := by
  cases b <;> rfl

section Numbers

theorem isNumberUnit_of_isDigit {c : UInt16} (h : isDigit c) : isNumberUnit c := by
  simp only [isNumberUnit, h, Bool.true_or]

theorem takeWhile_units (s : JString) : (s.takeWhile isDigit).all isNumberUnit := by
  apply List.all_eq_true.2
  intro c hc
  exact isNumberUnit_of_isDigit (List.all_eq_true.1 List.all_takeWhile c hc)

theorem isExponent_units {s : JString} (h : isExponent s) : s.all isNumberUnit := by
  have digits_units {l : JString} (hl : l.all isDigit) : l.all isNumberUnit := by
    apply List.all_eq_true.2
    intro c hc
    exact isNumberUnit_of_isDigit (List.all_eq_true.1 hl c hc)
  match s with
  | [] => rfl
  | [e] => simp [isExponent] at h
  | e :: c :: rest =>
      rw [isExponent, Bool.and_eq_true, Bool.and_eq_true] at h
      obtain ⟨he, -, hdigits⟩ := h
      have hexponent : isNumberUnit e := by
        rw [Bool.or_eq_true, beq_iff_eq, beq_iff_eq] at he
        rcases he with rfl | rfl <;> rfl
      by_cases hsign : c = 45 ∨ c = 43
      · rw [if_pos hsign] at hdigits
        have hc : isNumberUnit c := by rcases hsign with rfl | rfl <;> rfl
        rw [List.all_cons, List.all_cons, hexponent, hc, digits_units hdigits]
        rfl
      · rw [if_neg hsign] at hdigits
        rw [List.all_cons, hexponent, digits_units hdigits]
        rfl

theorem isFraction_units {s : JString} (h : isFraction s) : s.all isNumberUnit := by
  cases s with
  | nil => rfl
  | cons c s =>
      rw [isFraction] at h
      by_cases hpoint : c = 46
      · rw [if_pos hpoint, Bool.and_eq_true] at h
        rw [← List.takeWhile_append_dropWhile (p := isDigit) (l := s), List.all_cons, List.all_append,
          takeWhile_units, isExponent_units h.2, hpoint]
        rfl
      · rw [if_neg hpoint] at h
        exact isExponent_units h

theorem isNumber_units {token : JString} (h : isNumber token) : token.all isNumberUnit := by
  have unsigned_units (s : JString) (hs : isFraction (s.dropWhile isDigit)) : s.all isNumberUnit := by
    rw [← List.takeWhile_append_dropWhile (p := isDigit) (l := s), List.all_append, takeWhile_units,
      isFraction_units hs]
    rfl
  rw [isNumber, Bool.and_eq_true] at h
  have hunsigned := unsigned_units _ h.2
  by_cases hsign : token.head? = some 45
  · rw [if_pos hsign] at hunsigned
    obtain ⟨rest, rfl⟩ := List.head?_eq_some_iff.1 hsign
    rw [List.all_cons]
    exact hunsigned
  · rwa [if_neg hsign] at hunsigned

theorem parse_number {token : JString} (h : isNumber token) : parse token = some (.number token) := by
  have hunits := List.all_eq_true.1 (isNumber_units h)
  obtain ⟨c, r, rfl⟩ : ∃ c r, token = c :: r := by
    cases token with
    | nil => cases h
    | cons c r => exact ⟨c, r, rfl⟩
  have hc := hunits c List.mem_cons_self
  have hnext : next (c :: r) = some (c, r) := by
    apply next_unit
    intro hspace
    simp only [isSpace, Bool.or_eq_true, beq_iff_eq] at hspace
    rcases hspace with ((rfl | rfl) | rfl) | rfl <;> cases hc
  apply parse_of_value (n := 1)
  rw [value_of_next hnext, if_neg (by rintro rfl; cases hc), if_neg (by rintro rfl; cases hc),
    if_neg (by rintro rfl; cases hc), if_pos hc, number, List.takeWhile_eq_self_iff.2 hunits,
    List.dropWhile_eq_nil_iff.2 hunits, if_pos h]

/-- A number by its digits. The exponent has a sign and at least one digit. -/
structure Decimal where
  negative : Bool
  int : List (Fin 10)
  fraction : List (Fin 10)
  exponent : Option (Bool × List (Fin 10))
  int_ne : int ≠ []
  int_head : int.head? ≠ some 0 ∨ int.length = 1
  exponent_ne : ∀ e ∈ exponent, e.2 ≠ []

def digit (d : Fin 10) : UInt16 := 48 + d.val.toUInt16

theorem isDigit_digit : ∀ d, isDigit (digit d) := by decide

theorem digit_ne_minus : ∀ d, digit d ≠ 45 := by decide

theorem eq_zero_of_digit : ∀ d, digit d = 48 → d = 0 := by decide

namespace Decimal

variable (x : Decimal)

def signToken : JString := if x.negative then [45] else []

def fractionToken : JString := if x.fraction = [] then [] else 46 :: x.fraction.map digit

def exponentToken : JString :=
  match x.exponent with
  | none => []
  | some (negative, digits) => 101 :: (if negative then 45 else 43) :: digits.map digit

def token : JString := x.signToken ++ (x.int.map digit ++ (x.fractionToken ++ x.exponentToken))

end Decimal

theorem digits_append {t : JString} (ht : ∀ c ∈ t.head?, isDigit c = false) (ds : List (Fin 10)) :
    (ds.map digit ++ t).takeWhile isDigit = ds.map digit ∧ (ds.map digit ++ t).dropWhile isDigit = t := by
  induction ds with
  | nil =>
      cases t with
      | nil => exact ⟨rfl, rfl⟩
      | cons c t =>
          have hc := ht c rfl
          simp [hc]
  | cons d ds ih => simp [isDigit_digit d, ih]

theorem isExponent_token (x : Decimal) : isExponent x.exponentToken := by
  rw [Decimal.exponentToken]
  cases he : x.exponent with
  | none => rfl
  | some e =>
      obtain ⟨negative, digits⟩ := e
      have hne : digits ≠ [] := x.exponent_ne _ he
      have hall : (digits.map digit).all isDigit := by
        rw [List.all_map]
        exact List.all_eq_true.2 fun d _ => isDigit_digit d
      cases negative <;> simp [isExponent, hne, hall]

theorem exponent_head (x : Decimal) : ∀ c ∈ x.exponentToken.head?, isDigit c = false ∧ c ≠ 46 := by
  intro c hc
  rw [Decimal.exponentToken] at hc
  cases he : x.exponent with
  | none =>
      rw [he] at hc
      cases hc
  | some e =>
      rw [he] at hc
      cases hc
      exact ⟨rfl, by decide⟩

theorem isFraction_token (x : Decimal) : isFraction (x.fractionToken ++ x.exponentToken) := by
  have hexponent := isExponent_token x
  rw [Decimal.fractionToken]
  by_cases hf : x.fraction = []
  · rw [if_pos hf, List.nil_append]
    cases he : x.exponentToken with
    | nil => rfl
    | cons c s =>
        have hc := (exponent_head x c (by rw [he]; rfl)).2
        rw [he] at hexponent
        rw [isFraction, if_neg hc, hexponent]
  · obtain ⟨htake, hdrop⟩ := digits_append (fun c hc => (exponent_head x c hc).1) x.fraction
    rw [if_neg hf, List.cons_append, isFraction, if_pos rfl, htake, hdrop, hexponent]
    simp [hf]

theorem fraction_head (x : Decimal) :
    ∀ c ∈ (x.fractionToken ++ x.exponentToken).head?, isDigit c = false := by
  rw [Decimal.fractionToken]
  by_cases hf : x.fraction = []
  · rw [if_pos hf, List.nil_append]
    exact fun c hc => (exponent_head x c hc).1
  · rw [if_neg hf]
    intro c hc
    cases hc
    rfl

theorem isNumber_token (x : Decimal) : isNumber x.token := by
  have hunsigned : (if x.token.head? = some 45 then x.token.tail else x.token) =
      x.int.map digit ++ (x.fractionToken ++ x.exponentToken) := by
    rw [Decimal.token, Decimal.signToken]
    cases x.negative with
    | true => rfl
    | false =>
        obtain ⟨d, ds, hint⟩ := List.exists_cons_of_ne_nil x.int_ne
        rw [hint, if_neg]
        · rfl
        · intro hsign
          exact digit_ne_minus d (Option.some_inj.1 hsign)
  have hzero : (x.int.map digit).head? ≠ some 48 ∨ (x.int.map digit).length = 1 := by
    rw [List.head?_map, List.length_map]
    refine x.int_head.imp ?_ id
    intro hhead hmap
    obtain ⟨d, hd, he⟩ := Option.map_eq_some_iff.1 hmap
    exact hhead (eq_zero_of_digit d he ▸ hd)
  obtain ⟨htake, hdrop⟩ := digits_append (fraction_head x) x.int
  rw [isNumber, hunsigned, htake, hdrop, isFraction_token]
  simpa [x.int_ne] using hzero

end Numbers

section Strings

def Encodes (body d : JString) : Prop := ∀ t, stringBody (body ++ 34 :: t) = some (d, t)

theorem encodes_nil : Encodes [] [] := stringBody_quote

variable {body d : JString} (h : Encodes body d)
include h

theorem Encodes.unit {c : UInt16} (hquote : c ≠ 34) (hescape : c ≠ 92) (hcontrol : ¬ c < 32) :
    Encodes (c :: body) (c :: d) := by
  intro t
  rw [List.cons_append, stringBody_unit hquote hescape hcontrol, h t]
  rfl

theorem Encodes.escape {e u : UInt16} (he : e ≠ 117) (hu : unescape e = some u) :
    Encodes (92 :: e :: body) (u :: d) := by
  intro t
  rw [List.cons_append, List.cons_append, stringBody_escape he, hu, Option.bind_some, h t]
  rfl

theorem Encodes.unicode {a b c e u : UInt16} (hu : hexUnit a b c e = some u) :
    Encodes (92 :: 117 :: a :: b :: c :: e :: body) (u :: d) := by
  intro t
  simp only [List.cons_append]
  rw [stringBody_unicode, hu, Option.bind_some, h t]
  rfl

theorem parse_string : parse (34 :: (body ++ [34])) = some (.string d) := by
  have hnext : next (34 :: (body ++ [34])) = some (34, body ++ [34]) := next_unit (by decide) _
  apply parse_of_value (n := 1)
  rw [value_of_next hnext, if_pos rfl, h []]
  rfl

end Strings

theorem stops_unit {c : UInt16} (hc : isNumberUnit c = false) (t : JString) : Stops (c :: t) := by
  intro d hd
  cases hd
  exact hc

section Arrays

structure ReadsItems (s : JString) (items : List Json) : Prop where
  opens : ∃ c r, next s = some (c, r) ∧ c ≠ 93
  reads : ∀ n w t, s.length < n → w.all isSpace → elements n (s ++ (w ++ 93 :: t)) = some (items, t)

variable {s : JString} {v : Json}

theorem readsItems_last (h : parse s = some v) : ReadsItems s [v] := by
  refine ⟨?_, ?_⟩
  · obtain ⟨c, r, hnext, hc, -⟩ := next_of_parse h
    exact ⟨c, r, hnext, hc⟩
  · intro n w t hn hw
    obtain ⟨m, rfl⟩ : ∃ m, n = m + 1 := ⟨n - 1, by omega⟩
    have hstops := stops_spaces hw (stops_unit (c := 93) rfl t)
    obtain ⟨rest, hrest, hv⟩ := value_of_parse h hstops (Nat.lt_succ_iff.1 hn)
    rw [elements, hv, Option.bind_eq_bind, Option.bind_some]
    dsimp only
    rw [next_spaces hrest, next_of_space hw (by decide), Option.bind_eq_bind, Option.bind_some]
    exact if_pos rfl

theorem readsItems_cons (h : parse s = some v) {rest : JString} {items : List Json}
    (hitems : ReadsItems rest items) : ReadsItems (s ++ 44 :: rest) (v :: items) := by
  refine ⟨?_, ?_⟩
  · obtain ⟨c, r, hnext, hc, -⟩ := next_of_parse h
    exact ⟨c, r ++ 44 :: rest, next_append hnext _, hc⟩
  · intro n w t hn hw
    rw [List.length_append, List.length_cons] at hn
    obtain ⟨m, rfl⟩ : ∃ m, n = m + 1 := ⟨n - 1, by omega⟩
    have hfuel : s.length ≤ m := by omega
    obtain ⟨space, hspace, hv⟩ := value_of_parse h (stops_unit (c := 44) rfl (rest ++ (w ++ 93 :: t))) hfuel
    have htail := hitems.reads m w t (by omega) hw
    rw [List.append_assoc, List.cons_append, elements, hv, Option.bind_eq_bind, Option.bind_some]
    dsimp only
    rw [next_of_space hspace (by decide), Option.bind_eq_bind, Option.bind_some]
    dsimp only
    rw [if_neg (by decide), if_pos rfl, htail]
    rfl

variable {w : JString} (hw : w.all isSpace)
include hw

theorem readsItems_spaces {items : List Json} (h : ReadsItems s items) : ReadsItems (w ++ s) items := by
  refine ⟨?_, ?_⟩
  · rw [next_spaces hw]
    exact h.opens
  · intro n w' t hn hw'
    rw [List.length_append] at hn
    obtain ⟨m, rfl⟩ : ∃ m, n = m + 1 := ⟨n - 1, by omega⟩
    have hread := h.reads (m + 1) w' t (by omega) hw'
    rw [elements] at hread ⊢
    rw [List.append_assoc, value_spaces hw]
    exact hread

theorem parse_array {items : List Json} (h : ReadsItems s items) :
    parse (91 :: (s ++ (w ++ [93]))) = some (.array items) := by
  obtain ⟨c, r, hfirst, hc⟩ := h.opens
  have hnext : next (91 :: (s ++ (w ++ [93]))) = some (91, s ++ (w ++ [93])) := next_unit (by decide) _
  apply parse_of_value (n := s.length + 2)
  rw [value_of_next hnext, if_neg (by decide), if_pos rfl, next_append hfirst, Option.bind_some, if_neg hc,
    h.reads _ w [] (Nat.lt_succ_self _) hw]
  rfl

theorem parse_array_nil : parse (91 :: (w ++ [93])) = some (.array []) := by
  have hnext : next (91 :: (w ++ [93])) = some (91, w ++ [93]) := next_unit (by decide) _
  apply parse_of_value (n := 1)
  rw [value_of_next hnext, if_neg (by decide), if_pos rfl, next_of_space hw (by decide), Option.bind_some]
  rfl

end Arrays

section Objects

structure ReadsMembers (s : JString) (ms : List (JString × Json)) : Prop where
  opens : ∃ r, next s = some (34, r)
  reads : ∀ n w t, s.length < n → w.all isSpace → members n (s ++ (w ++ 125 :: t)) = some (ms, t)

def member (w body s : JString) : JString := w ++ 34 :: (body ++ 34 :: 58 :: s)

theorem member_append (w body s t : JString) : member w body s ++ t = member w body (s ++ t) := by
  simp only [member, List.append_assoc, List.cons_append]

variable {w body key s : JString} {v : Json} (hw : w.all isSpace)
include hw

theorem next_member (t : JString) : next (member w body s ++ t) = some (34, body ++ 34 :: 58 :: (s ++ t)) := by
  simp only [member, List.append_assoc, List.cons_append]
  exact next_of_space hw (by decide) _

section Reading

variable (hkey : Encodes body key) (hv : parse s = some v)
include hkey hv

theorem members_member {n : Nat} (hn : (member w body s).length ≤ n) {w' : JString} (hw' : w'.all isSpace)
    {c : UInt16} (hc : isNumberUnit c = false) (hspace : ¬ isSpace c) (t : JString) :
    members (n + 1) (member w body s ++ (w' ++ c :: t)) =
      if c = 125 then some ([(key, v)], t)
      else if c = 44 then (members n t).bind fun p => some ((key, v) :: p.1, p.2)
      else none := by
  have hfuel : s.length ≤ n := by
    simp only [member, List.length_append, List.length_cons] at hn
    omega
  have hquote : expect 34 (member w body s ++ (w' ++ c :: t)) =
      some (body ++ 34 :: 58 :: (s ++ (w' ++ c :: t))) := by
    rw [expect, next_member hw]
    rfl
  have hcolon : expect 58 (58 :: (s ++ (w' ++ c :: t))) = some (s ++ (w' ++ c :: t)) :=
    expect_unit (by decide) _
  obtain ⟨rest, hrest, hvalue⟩ := value_of_parse hv (stops_spaces hw' (stops_unit hc t)) hfuel
  rw [members, hquote, Option.bind_eq_bind, Option.bind_some, hkey, Option.bind_eq_bind, Option.bind_some]
  dsimp only
  rw [hcolon, Option.bind_eq_bind, Option.bind_some, hvalue, Option.bind_eq_bind, Option.bind_some]
  dsimp only
  rw [next_spaces hrest, next_of_space hw' hspace, Option.bind_eq_bind, Option.bind_some]

theorem readsMembers_last : ReadsMembers (member w body s) [(key, v)] := by
  refine ⟨?_, ?_⟩
  · have hnext : next (member w body s ++ []) = _ := next_member hw []
    rw [List.append_nil] at hnext
    exact ⟨_, hnext⟩
  · intro n w' t hn hw'
    obtain ⟨m, rfl⟩ : ∃ m, n = m + 1 := ⟨n - 1, by omega⟩
    rw [members_member hw hkey hv (Nat.lt_succ_iff.1 hn) hw' rfl (by decide), if_pos rfl]

theorem readsMembers_cons {rest : JString} {ms : List (JString × Json)} (hms : ReadsMembers rest ms) :
    ReadsMembers (member w body s ++ 44 :: rest) ((key, v) :: ms) := by
  refine ⟨⟨_, next_member hw _⟩, ?_⟩
  intro n w' t hn hw'
  rw [List.length_append, List.length_cons] at hn
  obtain ⟨m, rfl⟩ : ∃ m, n = m + 1 := ⟨n - 1, by omega⟩
  have htail := hms.reads m w' t (by omega) hw'
  have hnone : ([] : JString).all isSpace := rfl
  have hcomma := members_member hw hkey hv (n := m) (by omega) hnone (c := 44) rfl (by decide)
    (rest ++ (w' ++ 125 :: t))
  rw [List.append_assoc, List.cons_append]
  rw [List.nil_append, if_neg (by decide), if_pos rfl, htail] at hcomma
  exact hcomma

end Reading

theorem readsMembers_spaces {ms : List (JString × Json)} (h : ReadsMembers s ms) :
    ReadsMembers (w ++ s) ms := by
  refine ⟨?_, ?_⟩
  · rw [next_spaces hw]
    exact h.opens
  · intro n w' t hn hw'
    rw [List.length_append] at hn
    obtain ⟨m, rfl⟩ : ∃ m, n = m + 1 := ⟨n - 1, by omega⟩
    have hread := h.reads (m + 1) w' t (by omega) hw'
    rw [members] at hread ⊢
    rw [List.append_assoc, expect_spaces hw]
    exact hread

theorem parse_object {ms : List (JString × Json)} (h : ReadsMembers s ms) :
    parse (123 :: (s ++ (w ++ [125]))) = some (.object ms) := by
  obtain ⟨r, hfirst⟩ := h.opens
  have hnext : next (123 :: (s ++ (w ++ [125]))) = some (123, s ++ (w ++ [125])) := next_unit (by decide) _
  apply parse_of_value (n := s.length + 2)
  rw [value_of_next hnext, if_neg (by decide), if_neg (by decide), if_pos rfl, next_append hfirst,
    Option.bind_some]
  dsimp only
  rw [if_neg (by decide), h.reads _ w [] (Nat.lt_succ_self _) hw]
  rfl

theorem parse_object_nil : parse (123 :: (w ++ [125])) = some (.object []) := by
  have hnext : next (123 :: (w ++ [125])) = some (123, w ++ [125]) := next_unit (by decide) _
  apply parse_of_value (n := 1)
  rw [value_of_next hnext, if_neg (by decide), if_neg (by decide), if_pos rfl,
    next_of_space hw (by decide), Option.bind_some]
  rfl

end Objects

end SberWifi.JsonRules
