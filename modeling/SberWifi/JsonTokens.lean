import SberWifi.JavaString

namespace SberWifi.JsonTokens

open JavaString

def isSpace (c : UInt16) : Bool := c == 32 || c == 9 || c == 10 || c == 13

def isDigit (c : UInt16) : Bool := 48 ≤ c && c ≤ 57

def isNumberUnit (c : UInt16) : Bool :=
  isDigit c || c == 45 || c == 43 || c == 46 || c == 101 || c == 69

def next (s : JString) : Option (UInt16 × JString) :=
  match s.dropWhile isSpace with
  | [] => none
  | c :: rest => some (c, rest)

def expect (c : UInt16) (s : JString) : Option JString := do
  let (d, rest) ← next s
  if d = c then some rest else none

def hexDigit (c : UInt16) : Option UInt16 :=
  if isDigit c then some (c - 48)
  else if 97 ≤ c ∧ c ≤ 102 then some (c - 87)
  else if 65 ≤ c ∧ c ≤ 70 then some (c - 55)
  else none

def hexUnit (a b c d : UInt16) : Option UInt16 := do
  some ((← hexDigit a) * 4096 + (← hexDigit b) * 256 + (← hexDigit c) * 16 + (← hexDigit d))

def unescape (c : UInt16) : Option UInt16 :=
  if c = 34 ∨ c = 92 ∨ c = 47 then some c
  else if c = 98 then some 8
  else if c = 102 then some 12
  else if c = 110 then some 10
  else if c = 114 then some 13
  else if c = 116 then some 9
  else none

def push (c : UInt16) : JString × JString → JString × JString := Prod.map (c :: ·) id

/-- A string after its opening quote: the string it stands for, and the text
after the closing quote. -/
def stringBody : JString → Option (JString × JString)
  | [] => none
  | c :: s =>
      if c = 34 then some ([], s)
      else if c = 92 then
        match s with
        | [] => none
        | e :: s =>
            if e = 117 then
              match s with
              | a :: b :: c :: d :: s => (hexUnit a b c d).bind fun u => (stringBody s).map (push u)
              | _ => none
            else (unescape e).bind fun u => (stringBody s).map (push u)
      else if c < 32 then none
      else (stringBody s).map (push c)

def isExponent : JString → Bool
  | [] => true
  | e :: s =>
      (e == 101 || e == 69) &&
        (let digits := match s with
          | c :: rest => if c = 45 ∨ c = 43 then rest else s
          | [] => []
        digits ≠ [] && digits.all isDigit)

def isFraction : JString → Bool
  | [] => true
  | c :: s =>
      if c = 46 then s.takeWhile isDigit ≠ [] && isExponent (s.dropWhile isDigit) else isExponent (c :: s)

def isNumber (token : JString) : Bool :=
  let s := if token.head? = some 45 then token.tail else token
  let int := s.takeWhile isDigit
  int ≠ [] && (int.head? ≠ some 48 || int.length = 1) && isFraction (s.dropWhile isDigit)

theorem next_append {s rest : JString} {c : UInt16} (h : next s = some (c, rest)) (t : JString) :
    next (s ++ t) = some (c, rest ++ t) := by
  induction s with
  | nil => cases h
  | cons d s ih =>
      by_cases hd : isSpace d
      · rw [next, List.dropWhile_cons_of_pos hd] at h
        rw [List.cons_append, next, List.dropWhile_cons_of_pos hd]
        exact ih h
      · rw [next, List.dropWhile_cons_of_neg hd] at h
        rw [List.cons_append, next, List.dropWhile_cons_of_neg hd]
        cases h
        rfl

theorem expect_append {c : UInt16} {s rest : JString} (h : expect c s = some rest) (t : JString) :
    expect c (s ++ t) = some (rest ++ t) := by
  obtain ⟨⟨d, rest'⟩, hn, h⟩ := Option.bind_eq_some_iff.1 h
  rw [expect, next_append hn]
  by_cases hd : d = c
  · simp_all
  · simp_all

section Strings

@[simp] theorem stringBody_quote (s : JString) : stringBody (34 :: s) = some ([], s) := by
  rw [stringBody.eq_def]
  rfl

theorem stringBody_unicode (a b c d : UInt16) (s : JString) :
    stringBody (92 :: 117 :: a :: b :: c :: d :: s) =
      (hexUnit a b c d).bind fun u => (stringBody s).map (push u) := by
  simp [stringBody]

theorem stringBody_escape {e : UInt16} (he : e ≠ 117) (s : JString) :
    stringBody (92 :: e :: s) = (unescape e).bind fun u => (stringBody s).map (push u) := by
  rw [stringBody.eq_def]
  simp [he]

theorem stringBody_unit {c : UInt16} (hquote : c ≠ 34) (hescape : c ≠ 92) (hcontrol : ¬ c < 32)
    (s : JString) :
    stringBody (c :: s) = (stringBody s).map (push c) := by
  rw [stringBody.eq_def]
  simp [hquote, hescape, hcontrol]

theorem stringBody_control {c : UInt16} (hquote : c ≠ 34) (hescape : c ≠ 92) (hcontrol : c < 32)
    (s : JString) :
    stringBody (c :: s) = none := by
  rw [stringBody.eq_def]
  simp [hquote, hescape, hcontrol]

theorem map_push {c : UInt16} {o : Option (JString × JString)} {d rest : JString}
    (h : o.map (push c) = some (d, rest)) : ∃ d', o = some (d', rest) ∧ d = c :: d' := by
  obtain ⟨⟨d', rest'⟩, ho, he⟩ := Option.map_eq_some_iff.1 h
  cases he
  exact ⟨d', ho, rfl⟩

theorem stringBody_append {s d rest : JString} (h : stringBody s = some (d, rest)) (t : JString) :
    stringBody (s ++ t) = some (d, rest ++ t) := by
  fun_induction stringBody s generalizing d rest with
  | case1 | case3 | case5 | case7 => cases h
  | case2 s =>
      cases h
      exact stringBody_quote _
  | case4 a b c e s _ ih =>
      obtain ⟨u, hu, h⟩ := Option.bind_eq_some_iff.1 h
      obtain ⟨d', hd, rfl⟩ := map_push h
      simp only [List.cons_append, stringBody_unicode, hu, ih hd]
      rfl
  | case6 e s he _ ih =>
      obtain ⟨u, hu, h⟩ := Option.bind_eq_some_iff.1 h
      obtain ⟨d', hd, rfl⟩ := map_push h
      simp only [List.cons_append, stringBody_escape he, hu, ih hd]
      rfl
  | case8 c s hquote hescape hcontrol ih =>
      obtain ⟨d', hd, rfl⟩ := map_push h
      simp only [List.cons_append, stringBody_unit hquote hescape hcontrol, ih hd]
      rfl

def Plain (s : JString) : Prop := ∀ c ∈ s, c ≠ 34 ∧ c ≠ 92 ∧ ¬ c < 32

instance : DecidablePred Plain := fun s => List.decidableBAll _ s

theorem stringBody_plain {s : JString} (hs : Plain s) (t : JString) :
    stringBody (s ++ 34 :: t) = some (s, t) := by
  induction s with
  | nil => exact stringBody_quote t
  | cons c s ih =>
      have hc := hs c List.mem_cons_self
      rw [List.cons_append, stringBody_unit hc.1 hc.2.1 hc.2.2,
        ih fun e he => hs e (List.mem_cons_of_mem c he)]
      rfl

theorem hexUnit_quote {a b c d : UInt16} (h : 34 ∈ [a, b, c, d]) : hexUnit a b c d = none := by
  have hquote : hexDigit 34 = none := by decide
  simp only [List.mem_cons, List.not_mem_nil, or_false] at h
  unfold hexUnit
  rcases h with rfl | rfl | rfl | rfl
  · simp [hquote]
  · cases hexDigit a <;> simp [hquote]
  · cases hexDigit a <;> cases hexDigit b <;> simp [hquote]
  · cases hexDigit a <;> cases hexDigit b <;> cases hexDigit c <;> simp [hquote]

theorem stringBody_unicode_quote {s : JString} (h : 34 ∈ s.take 4) : stringBody (92 :: 117 :: s) = none := by
  match s with
  | a :: b :: c :: d :: s => rw [stringBody_unicode, hexUnit_quote (by simpa using h), Option.bind_none]
  | [] | [_] | [_, _] | [_, _, _] => simp [stringBody]

/-- Where a quote follows a text `s`, a string is either `s` itself, or shorter
than `s`, or it goes on past the quote because `s` ends with a backslash. -/
theorem stringBody_before_quote {s x d rest : JString} (h : stringBody (s ++ 34 :: x) = some (d, rest)) :
    (d = s ∧ rest = x) ∨ d.length < s.length ∨
      (s.getLast? = some 92 ∧ ∃ d₁ d₂, d = d₁ ++ d₂ ∧ stringBody x = some (d₂, rest)) := by
  induction s using stringBody.induct generalizing d with
  | case1 =>
      rw [List.nil_append, stringBody_quote] at h
      cases h
      exact .inl ⟨rfl, rfl⟩
  | case2 s =>
      rw [List.cons_append, stringBody_quote] at h
      cases h
      exact .inr (.inl (Nat.succ_pos _))
  | case3 _ =>
      rw [List.cons_append, List.nil_append, stringBody_escape (by decide)] at h
      obtain ⟨u, _, h⟩ := Option.bind_eq_some_iff.1 h
      obtain ⟨d', hd, rfl⟩ := map_push h
      exact .inr (.inr ⟨rfl, [u], d', rfl, hd⟩)
  | case4 a b c e s _ ih =>
      simp only [List.cons_append, stringBody_unicode] at h
      obtain ⟨u, _, h⟩ := Option.bind_eq_some_iff.1 h
      obtain ⟨d', hd, rfl⟩ := map_push h
      rcases ih hd with ⟨rfl, _⟩ | hlt | ⟨hlast, d₁, d₂, rfl, hx⟩
      · exact .inr (.inl (by simp only [List.length_cons]; omega))
      · exact .inr (.inl (by simp only [List.length_cons]; omega))
      · exact .inr (.inr ⟨by simp [List.getLast?_cons, hlast], u :: d₁, d₂, rfl, hx⟩)
  | case5 s hshort _ =>
      have hquote : 34 ∈ (s ++ 34 :: x).take 4 := by
        match s with
        | [] | [_] | [_, _] | [_, _, _] => simp
        | a :: b :: c :: e :: s => exact (hshort a b c e s rfl).elim
      rw [List.cons_append, List.cons_append, stringBody_unicode_quote hquote] at h
      cases h
  | case6 e s he _ ih =>
      simp only [List.cons_append, stringBody_escape he] at h
      obtain ⟨u, _, h⟩ := Option.bind_eq_some_iff.1 h
      obtain ⟨d', hd, rfl⟩ := map_push h
      rcases ih hd with ⟨rfl, _⟩ | hlt | ⟨hlast, d₁, d₂, rfl, hx⟩
      · exact .inr (.inl (by simp only [List.length_cons]; omega))
      · exact .inr (.inl (by simp only [List.length_cons]; omega))
      · exact .inr (.inr ⟨by simp [List.getLast?_cons, hlast], u :: d₁, d₂, rfl, hx⟩)
  | case7 c s hquote hescape hcontrol =>
      rw [List.cons_append, stringBody_control hquote hescape hcontrol] at h
      cases h
  | case8 c s hquote hescape hcontrol ih =>
      rw [List.cons_append, stringBody_unit hquote hescape hcontrol] at h
      obtain ⟨d', hd, rfl⟩ := map_push h
      rcases ih hd with ⟨rfl, hrest⟩ | hlt | ⟨hlast, d₁, d₂, rfl, hx⟩
      · exact .inl ⟨rfl, hrest⟩
      · exact .inr (.inl (by simp only [List.length_cons]; omega))
      · exact .inr (.inr ⟨by simp [List.getLast?_cons, hlast], c :: d₁, d₂, rfl, hx⟩)

/-- A text put between quotes without escapes, with a plain piece before the
next quote, is read back only when it ends where its closing quote was put. -/
theorem stringBody_self {s mid t rest : JString} (hmid : Plain mid) (hne : mid ≠ [])
    (h : stringBody (s ++ 34 :: (mid ++ 34 :: t)) = some (s, rest)) : rest = mid ++ 34 :: t := by
  rcases stringBody_before_quote h with ⟨_, hrest⟩ | hlt | ⟨hlast, d₁, d₂, hs, hx⟩
  · exact hrest
  · exact absurd hlt (Nat.lt_irrefl _)
  · rw [stringBody_plain hmid] at hx
    cases hx
    rw [hs, List.getLast?_append_of_ne_nil _ hne, List.getLast?_eq_some_getLast hne, Option.some_inj] at hlast
    exact absurd hlast (hmid _ (List.getLast_mem hne)).2.1

end Strings

theorem next_unit {c : UInt16} (hc : ¬ isSpace c) (t : JString) : next (c :: t) = some (c, t) := by
  rw [next, List.dropWhile_cons_of_neg hc]

theorem next_of_space {rest : JString} (h : rest.all isSpace) {c : UInt16} (hc : ¬ isSpace c) (t : JString) :
    next (rest ++ c :: t) = some (c, t) := by
  induction rest with
  | nil => exact next_unit hc t
  | cons d rest ih =>
      rw [List.all_cons, Bool.and_eq_true] at h
      have htail := ih h.2
      rw [next] at htail ⊢
      rwa [List.cons_append, List.dropWhile_cons_of_pos h.1]

theorem expect_unit {c : UInt16} (hc : ¬ isSpace c) (t : JString) : expect c (c :: t) = some t := by
  rw [expect, next_unit hc]
  simp

theorem expect_of_space {rest : JString} (h : rest.all isSpace) {c : UInt16} (hc : ¬ isSpace c)
    (t : JString) :
    expect c (rest ++ c :: t) = some t := by
  rw [expect, next_of_space h hc]
  simp

theorem next_length {s rest : JString} {c : UInt16} (h : next s = some (c, rest)) :
    rest.length < s.length := by
  rw [next] at h
  split at h
  · cases h
  · next d r hd =>
      cases h
      have hle := (s.dropWhile_sublist isSpace).length_le
      rw [hd, List.length_cons] at hle
      omega

theorem expect_length {c : UInt16} {s rest : JString} (h : expect c s = some rest) :
    rest.length < s.length := by
  obtain ⟨⟨d, rest'⟩, hn, h⟩ := Option.bind_eq_some_iff.1 h
  dsimp only at h
  split at h
  · cases h
    exact next_length hn
  · cases h

theorem stringBody_length {s d rest : JString} (h : stringBody s = some (d, rest)) :
    rest.length < s.length := by
  fun_induction stringBody s generalizing d rest with
  | case1 | case3 | case5 | case7 => cases h
  | case2 s =>
      cases h
      exact Nat.lt_succ_self _
  | case4 a b c e s _ ih =>
      obtain ⟨u, _, h⟩ := Option.bind_eq_some_iff.1 h
      obtain ⟨d', hd, _⟩ := map_push h
      have hlt := ih hd
      simp only [List.length_cons]
      omega
  | case6 e s _ _ ih =>
      obtain ⟨u, _, h⟩ := Option.bind_eq_some_iff.1 h
      obtain ⟨d', hd, _⟩ := map_push h
      have hlt := ih hd
      simp only [List.length_cons]
      omega
  | case8 c s _ _ _ ih =>
      obtain ⟨d', hd, _⟩ := map_push h
      have hlt := ih hd
      simp only [List.length_cons]
      omega

end SberWifi.JsonTokens
