import SberWifi.JsonTokens

namespace SberWifi.JsonText

open JavaString JsonTokens

/-- A JSON tree. A number is kept as its token. -/
inductive Json
  | null
  | bool (b : Bool)
  | number (token : JString)
  | string (s : JString)
  | array (items : List Json)
  | object (members : List (JString × Json))

def number (s : JString) : Option (Json × JString) :=
  let token := s.takeWhile isNumberUnit
  if isNumber token then some (.number token, s.dropWhile isNumberUnit) else none

def literal (word : JString) (v : Json) (s : JString) : Option (Json × JString) :=
  if word <+: s then some (v, s.drop word.length) else none

mutual

/-- One value and the text after it. The fuel bounds the depth of the recursion. -/
def value : Nat → JString → Option (Json × JString)
  | 0, _ => none
  | n + 1, s => do
      let (c, rest) ← next s
      if c = 34 then
        let (s, rest) ← stringBody rest
        some (.string s, rest)
      else if c = 91 then
        let (d, rest') ← next rest
        if d = 93 then some (.array [], rest')
        else
          let (items, rest) ← elements n rest
          some (.array items, rest)
      else if c = 123 then
        let (d, rest') ← next rest
        if d = 125 then some (.object [], rest')
        else
          let (members, rest) ← members n rest
          some (.object members, rest)
      else if isNumberUnit c then number (c :: rest)
      else if c = 110 then literal (str "null") .null (c :: rest)
      else if c = 116 then literal (str "true") (.bool true) (c :: rest)
      else literal (str "false") (.bool false) (c :: rest)

def elements : Nat → JString → Option (List Json × JString)
  | 0, _ => none
  | n + 1, s => do
      let (item, rest) ← value n s
      let (c, rest) ← next rest
      if c = 93 then some ([item], rest)
      else if c = 44 then
        let (items, rest) ← elements n rest
        some (item :: items, rest)
      else none

def members : Nat → JString → Option (List (JString × Json) × JString)
  | 0, _ => none
  | n + 1, s => do
      let rest ← expect 34 s
      let (key, rest) ← stringBody rest
      let rest ← expect 58 rest
      let (v, rest) ← value n rest
      let (c, rest) ← next rest
      if c = 125 then some ([(key, v)], rest)
      else if c = 44 then
        let (tail, rest) ← members n rest
        some ((key, v) :: tail, rest)
      else none

end

def parse (s : JString) : Option Json := do
  let (v, rest) ← value (s.length + 1) s
  if rest.all isSpace then some v else none

def Member (members : List (JString × Json)) (key : JString) (v : Json) : Prop :=
  (key, v) ∈ members ∧ ∀ v', (key, v') ∈ members → v' = v

theorem literal_append {word s rest : JString} {v v' : Json} (h : literal word v s = some (v', rest))
    (t : JString) : literal word v (s ++ t) = some (v', rest ++ t) := by
  rw [literal] at h
  by_cases hw : word <+: s
  · obtain ⟨r, rfl⟩ := hw
    simp_all [literal]
  · rw [if_neg hw] at h
    cases h

theorem literal_length {word s rest : JString} {v v' : Json} (hword : word ≠ [])
    (h : literal word v s = some (v', rest)) : rest.length < s.length := by
  rw [literal] at h
  by_cases hw : word <+: s
  · rw [if_pos hw] at h
    cases h
    have hpos := List.length_pos_iff.2 hword
    have hle := hw.length_le
    rw [List.length_drop]
    omega
  · rw [if_neg hw] at h
    cases h

/-- A text that a number before it does not reach into. -/
def Stops (t : JString) : Prop := ∀ c ∈ t.head?, isNumberUnit c = false

theorem takeWhile_append_stops {t : JString} (ht : Stops t) (s : JString) :
    (s ++ t).takeWhile isNumberUnit = s.takeWhile isNumberUnit ∧
      (s ++ t).dropWhile isNumberUnit = s.dropWhile isNumberUnit ++ t := by
  induction s with
  | nil =>
      cases t with
      | nil => simp
      | cons c t =>
          have hc := ht c rfl
          simp [hc]
  | cons d s ih => by_cases hd : isNumberUnit d <;> simp [hd, ih]

theorem number_append {s rest t : JString} {v : Json} (ht : Stops t) (h : number s = some (v, rest)) :
    number (s ++ t) = some (v, rest ++ t) := by
  obtain ⟨htake, hdrop⟩ := takeWhile_append_stops ht s
  rw [number, htake, hdrop]
  rw [number] at h
  by_cases hn : isNumber (s.takeWhile isNumberUnit) <;> simp_all

theorem number_length {s rest : JString} {v : Json} (h : number s = some (v, rest)) :
    rest.length < s.length := by
  rw [number] at h
  by_cases hn : isNumber (s.takeWhile isNumberUnit)
  · rw [if_pos hn] at h
    cases h
    have hsplit := congrArg List.length (@List.takeWhile_append_dropWhile _ isNumberUnit s)
    have hpos : (s.takeWhile isNumberUnit).length ≠ 0 := by
      intro hzero
      rw [List.length_eq_zero_iff.1 hzero] at hn
      exact absurd hn (by decide)
    rw [List.length_append] at hsplit
    omega
  · rw [if_neg hn] at h
    cases h

/-- What was read from `s` is read in the same way in a longer text, and with any
fuel that covers the part that was read. -/
def ReadsOn {α : Type} (read : Nat → JString → Option (α × JString)) (s : JString) (a : α)
    (rest : JString) : Prop :=
  rest.length < s.length ∧
    ∀ m t, s.length ≤ m + rest.length → Stops t → read m (s ++ t) = some (a, rest ++ t)

def Robust {α : Type} (read : Nat → JString → Option (α × JString)) (n : Nat) : Prop :=
  ∀ s a rest, read n s = some (a, rest) → ReadsOn read s a rest

theorem readsOn_of_succ {α : Type} {read : Nat → JString → Option (α × JString)} {s rest : JString} {a : α}
    (hlt : rest.length < s.length)
    (h : ∀ m t, s.length ≤ m + 1 + rest.length → Stops t → read (m + 1) (s ++ t) = some (a, rest ++ t)) :
    ReadsOn read s a rest := by
  refine ⟨hlt, ?_⟩
  intro m t hm ht
  obtain ⟨k, rfl⟩ : ∃ k, m = k + 1 := ⟨m - 1, by omega⟩
  exact h k t hm ht

variable {n : Nat}

theorem value_of_next {s r : JString} {c : UInt16} (hnext : next s = some (c, r)) : value (n + 1) s =
    if c = 34 then (stringBody r).bind fun p => some (.string p.1, p.2)
    else if c = 91 then
      (next r).bind fun p => if p.1 = 93 then some (.array [], p.2)
        else (elements n r).bind fun q => some (.array q.1, q.2)
    else if c = 123 then
      (next r).bind fun p => if p.1 = 125 then some (.object [], p.2)
        else (members n r).bind fun q => some (.object q.1, q.2)
    else if isNumberUnit c then number (c :: r)
    else if c = 110 then literal (str "null") .null (c :: r)
    else if c = 116 then literal (str "true") (.bool true) (c :: r)
    else literal (str "false") (.bool false) (c :: r) := by
  rw [value, hnext, Option.bind_eq_bind, Option.bind_some]
  rfl

theorem readsOn_string {s r rest : JString} {v : Json} (hnext : next s = some (34, r))
    (h : value (n + 1) s = some (v, rest)) : ReadsOn value s v rest := by
  have hc := next_length hnext
  rw [value_of_next hnext, if_pos rfl] at h
  obtain ⟨⟨d, r'⟩, hbody, h⟩ := Option.bind_eq_some_iff.1 h
  dsimp only at h
  cases h
  have hlt := Nat.lt_trans (stringBody_length hbody) hc
  apply readsOn_of_succ hlt
  intro m t _ _
  rw [value_of_next (next_append hnext t), if_pos rfl, stringBody_append hbody]
  rfl

theorem readsOn_array (helements : Robust elements n) {s r rest : JString} {v : Json}
    (hnext : next s = some (91, r)) (h : value (n + 1) s = some (v, rest)) : ReadsOn value s v rest := by
  have hc := next_length hnext
  rw [value_of_next hnext, if_neg (by decide), if_pos rfl] at h
  obtain ⟨⟨d, r'⟩, hd, h⟩ := Option.bind_eq_some_iff.1 h
  have hd' := next_length hd
  have harray (m : Nat) (t : JString) : value (m + 1) (s ++ t) =
      if d = 93 then some (.array [], r' ++ t)
      else (elements m (r ++ t)).bind fun q => some (.array q.1, q.2) := by
    rw [value_of_next (next_append hnext t), if_neg (by decide), if_pos rfl, next_append hd]
    rfl
  dsimp only at h
  by_cases hempty : d = 93
  · rw [if_pos hempty] at h
    cases h
    apply readsOn_of_succ (Nat.lt_trans hd' hc)
    intro m t _ _
    rw [harray, if_pos hempty]
  · rw [if_neg hempty] at h
    obtain ⟨⟨items, r''⟩, hitems, h⟩ := Option.bind_eq_some_iff.1 h
    dsimp only at h
    cases h
    obtain ⟨hlt, hread⟩ := helements _ _ _ hitems
    apply readsOn_of_succ (Nat.lt_trans hlt hc)
    intro m t hm ht
    rw [harray, if_neg hempty, hread m t (by omega) ht]
    rfl

theorem readsOn_object (hmembers : Robust members n) {s r rest : JString} {v : Json}
    (hnext : next s = some (123, r)) (h : value (n + 1) s = some (v, rest)) : ReadsOn value s v rest := by
  have hc := next_length hnext
  rw [value_of_next hnext, if_neg (by decide), if_neg (by decide), if_pos rfl] at h
  obtain ⟨⟨d, r'⟩, hd, h⟩ := Option.bind_eq_some_iff.1 h
  have hd' := next_length hd
  have hobject (m : Nat) (t : JString) : value (m + 1) (s ++ t) =
      if d = 125 then some (.object [], r' ++ t)
      else (members m (r ++ t)).bind fun q => some (.object q.1, q.2) := by
    rw [value_of_next (next_append hnext t), if_neg (by decide), if_neg (by decide), if_pos rfl,
      next_append hd]
    rfl
  dsimp only at h
  by_cases hempty : d = 125
  · rw [if_pos hempty] at h
    cases h
    apply readsOn_of_succ (Nat.lt_trans hd' hc)
    intro m t _ _
    rw [hobject, if_pos hempty]
  · rw [if_neg hempty] at h
    obtain ⟨⟨ms, r''⟩, hms, h⟩ := Option.bind_eq_some_iff.1 h
    dsimp only at h
    cases h
    obtain ⟨hlt, hread⟩ := hmembers _ _ _ hms
    apply readsOn_of_succ (Nat.lt_trans hlt hc)
    intro m t hm ht
    rw [hobject, if_neg hempty, hread m t (by omega) ht]
    rfl

/-- A number or a word is read at once, whatever the fuel. -/
theorem readsOn_scalar {s r rest : JString} {c : UInt16} {v : Json} (hnext : next s = some (c, r))
    (hstring : c ≠ 34) (harray : c ≠ 91) (hobject : c ≠ 123) (h : value (n + 1) s = some (v, rest)) :
    ReadsOn value s v rest := by
  have hc := next_length hnext
  have hscalar (m : Nat) (t : JString) : value (m + 1) (s ++ t) =
      if isNumberUnit c then number (c :: r ++ t)
      else if c = 110 then literal (str "null") .null (c :: r ++ t)
      else if c = 116 then literal (str "true") (.bool true) (c :: r ++ t)
      else literal (str "false") (.bool false) (c :: r ++ t) := by
    rw [value_of_next (next_append hnext t), if_neg hstring, if_neg harray, if_neg hobject]
    rfl
  rw [value_of_next hnext, if_neg hstring, if_neg harray, if_neg hobject] at h
  by_cases hnumber : isNumberUnit c
  · rw [if_pos hnumber] at h
    have hlt := number_length h
    apply readsOn_of_succ (Nat.lt_of_lt_of_le hlt hc)
    intro m t _ ht
    rw [hscalar, if_pos hnumber]
    exact number_append ht h
  rw [if_neg hnumber] at h
  by_cases hnull : c = 110
  · rw [if_pos hnull] at h
    have hlt := literal_length (by decide) h
    apply readsOn_of_succ (Nat.lt_of_lt_of_le hlt hc)
    intro m t _ _
    rw [hscalar, if_neg hnumber, if_pos hnull]
    exact literal_append h t
  rw [if_neg hnull] at h
  by_cases htrue : c = 116
  · rw [if_pos htrue] at h
    have hlt := literal_length (by decide) h
    apply readsOn_of_succ (Nat.lt_of_lt_of_le hlt hc)
    intro m t _ _
    rw [hscalar, if_neg hnumber, if_neg hnull, if_pos htrue]
    exact literal_append h t
  · rw [if_neg htrue] at h
    have hlt := literal_length (by decide) h
    apply readsOn_of_succ (Nat.lt_of_lt_of_le hlt hc)
    intro m t _ _
    rw [hscalar, if_neg hnumber, if_neg hnull, if_neg htrue]
    exact literal_append h t

theorem value_robust (helements : Robust elements n) (hmembers : Robust members n) :
    Robust value (n + 1) := by
  intro s v rest h
  obtain ⟨⟨c, r⟩, hnext, -⟩ := Option.bind_eq_some_iff.1 h
  by_cases hstring : c = 34
  · subst hstring
    exact readsOn_string hnext h
  by_cases harray : c = 91
  · subst harray
    exact readsOn_array helements hnext h
  by_cases hobject : c = 123
  · subst hobject
    exact readsOn_object hmembers hnext h
  · exact readsOn_scalar hnext hstring harray hobject h

theorem elements_robust (hvalue : Robust value n) (helements : Robust elements n) :
    Robust elements (n + 1) := by
  intro s items rest h
  rw [elements] at h
  obtain ⟨⟨item, r⟩, hitem, h⟩ := Option.bind_eq_some_iff.1 h
  obtain ⟨⟨c, r'⟩, hnext, h⟩ := Option.bind_eq_some_iff.1 h
  obtain ⟨hlt, hread⟩ := hvalue _ _ _ hitem
  have hc := next_length hnext
  dsimp only at h hc
  by_cases hclose : c = 93
  · rw [if_pos hclose] at h
    cases h
    apply readsOn_of_succ (Nat.lt_trans hc hlt)
    intro m t hm ht
    rw [elements, hread m t (by omega) ht, Option.bind_eq_bind, Option.bind_some]
    dsimp only
    rw [next_append hnext, Option.bind_eq_bind, Option.bind_some]
    exact if_pos hclose
  rw [if_neg hclose] at h
  by_cases hcomma : c = 44
  · rw [if_pos hcomma] at h
    obtain ⟨⟨items', r''⟩, hitems, h⟩ := Option.bind_eq_some_iff.1 h
    dsimp only at h
    cases h
    obtain ⟨hlt', hread'⟩ := helements _ _ _ hitems
    apply readsOn_of_succ (Nat.lt_trans (Nat.lt_trans hlt' hc) hlt)
    intro m t hm ht
    rw [elements, hread m t (by omega) ht, Option.bind_eq_bind, Option.bind_some]
    dsimp only
    rw [next_append hnext, Option.bind_eq_bind, Option.bind_some]
    dsimp only
    rw [if_neg hclose, if_pos hcomma, hread' m t (by omega) ht]
    rfl
  · rw [if_neg hcomma] at h
    cases h

theorem members_robust (hvalue : Robust value n) (hmembers : Robust members n) : Robust members (n + 1) := by
  intro s ms rest h
  rw [members] at h
  obtain ⟨r₁, hquote, h⟩ := Option.bind_eq_some_iff.1 h
  obtain ⟨⟨key, r₂⟩, hkey, h⟩ := Option.bind_eq_some_iff.1 h
  obtain ⟨r₃, hcolon, h⟩ := Option.bind_eq_some_iff.1 h
  obtain ⟨⟨v, r₄⟩, hv, h⟩ := Option.bind_eq_some_iff.1 h
  obtain ⟨⟨c, r₅⟩, hnext, h⟩ := Option.bind_eq_some_iff.1 h
  dsimp only at hcolon hv hnext h
  have h₁ := expect_length hquote
  have h₂ := stringBody_length hkey
  have h₃ := expect_length hcolon
  obtain ⟨h₄, hread⟩ := hvalue _ _ _ hv
  have h₅ := next_length hnext
  have hfields (m : Nat) (t : JString) (hm : r₃.length ≤ m + r₄.length) (ht : Stops t) :
      members (m + 1) (s ++ t) =
        if c = 125 then some ([(key, v)], r₅ ++ t)
        else if c = 44 then (members m (r₅ ++ t)).bind fun p => some ((key, v) :: p.1, p.2)
        else none := by
    rw [members, expect_append hquote, Option.bind_eq_bind, Option.bind_some, stringBody_append hkey,
      Option.bind_eq_bind, Option.bind_some]
    dsimp only
    rw [expect_append hcolon, Option.bind_eq_bind, Option.bind_some, hread m t hm ht, Option.bind_eq_bind,
      Option.bind_some]
    dsimp only
    rw [next_append hnext, Option.bind_eq_bind, Option.bind_some]
  by_cases hclose : c = 125
  · rw [if_pos hclose] at h
    cases h
    have hlt : rest.length < s.length := by omega
    apply readsOn_of_succ hlt
    intro m t hm ht
    rw [hfields m t (by omega) ht, if_pos hclose]
  rw [if_neg hclose] at h
  by_cases hcomma : c = 44
  · rw [if_pos hcomma] at h
    obtain ⟨⟨tail, r₆⟩, htail, h⟩ := Option.bind_eq_some_iff.1 h
    dsimp only at h
    cases h
    obtain ⟨h₆, hread'⟩ := hmembers _ _ _ htail
    have hlt : rest.length < s.length := by omega
    apply readsOn_of_succ hlt
    intro m t hm ht
    rw [hfields m t (by omega) ht, if_neg hclose, if_pos hcomma, hread' m t (by omega) ht, Option.bind_some]
  · rw [if_neg hcomma] at h
    cases h

theorem read_robust (n : Nat) : Robust value n ∧ Robust elements n ∧ Robust members n := by
  induction n with
  | zero => refine ⟨?_, ?_, ?_⟩ <;> intro s v rest h <;> cases h
  | succ n ih =>
      obtain ⟨hvalue, helements, hmembers⟩ := ih
      exact ⟨value_robust helements hmembers, elements_robust hvalue helements,
        members_robust hvalue hmembers⟩

theorem parse_read {s : JString} {v : Json} (h : parse s = some v) :
    ∃ rest, value (s.length + 1) s = some (v, rest) ∧ rest.all isSpace := by
  obtain ⟨⟨v', rest⟩, hv, h⟩ := Option.bind_eq_some_iff.1 h
  dsimp only at h
  by_cases hspace : rest.all isSpace
  · rw [if_pos hspace] at h
    cases h
    exact ⟨rest, hv, hspace⟩
  · rw [if_neg hspace] at h
    cases h

/-- The fuel of `parse` suffices: any reading of the whole text is its value. -/
theorem parse_iff (s : JString) (v : Json) :
    parse s = some v ↔ ∃ n rest, value n s = some (v, rest) ∧ rest.all isSpace := by
  constructor
  · intro h
    exact ⟨_, parse_read h⟩
  · rintro ⟨n, rest, hv, hspace⟩
    have hread := ((read_robust n).1 s v rest hv).2 (s.length + 1) [] (by omega) (by simp [Stops])
    rw [List.append_nil, List.append_nil] at hread
    rw [parse, hread, Option.bind_eq_bind, Option.bind_some]
    exact if_pos hspace

theorem value_of_parse {r t : JString} {v : Json} (h : parse r = some v) (ht : Stops t) {fuel : Nat}
    (hfuel : r.length ≤ fuel) : ∃ rest, rest.all isSpace ∧ value fuel (r ++ t) = some (v, rest ++ t) := by
  obtain ⟨n, rest, hv, hspace⟩ := (parse_iff r v).1 h
  exact ⟨rest, hspace, ((read_robust n).1 r v rest hv).2 fuel t (by omega) ht⟩

theorem value_string {n : Nat} {s rest : JString} {v : Json} (h : value (n + 1) (34 :: s) = some (v, rest)) :
    ∃ d, v = .string d ∧ stringBody s = some (d, rest) := by
  obtain ⟨⟨d, r⟩, hbody, h⟩ := Option.bind_eq_some_iff.1 h
  cases h
  exact ⟨d, rfl, hbody⟩

theorem value_object {n : Nat} {s rest : JString} {v : Json}
    (h : value (n + 1) (123 :: 34 :: s) = some (v, rest)) :
    ∃ ms, v = .object ms ∧ members n (34 :: s) = some (ms, rest) := by
  obtain ⟨⟨ms, r⟩, hms, h⟩ := Option.bind_eq_some_iff.1 h
  cases h
  exact ⟨ms, rfl, hms⟩

theorem members_key {n : Nat} {s rest : JString} {ms : List (JString × Json)} (key t : JString)
    (hkey : Plain key)
    (hquote : expect 34 s = some (key ++ 34 :: 58 :: t)) (h : members (n + 1) s = some (ms, rest)) :
    ∃ v r, value n t = some (v, r) ∧ (key, v) ∈ ms ∧
      ((∃ r', next r = some (125, r') ∧ rest = r') ∨
        ∃ r' tail, next r = some (44, r') ∧ members n r' = some (tail, rest) ∧ tail ⊆ ms) := by
  have hcolon : expect 58 (58 :: t) = some t := rfl
  rw [members, hquote, Option.bind_eq_bind, Option.bind_some, stringBody_plain hkey, Option.bind_eq_bind,
    Option.bind_some] at h
  dsimp only at h
  rw [hcolon, Option.bind_some] at h
  obtain ⟨⟨v, r⟩, hv, h⟩ := Option.bind_eq_some_iff.1 h
  obtain ⟨⟨c, r'⟩, hnext, h⟩ := Option.bind_eq_some_iff.1 h
  dsimp only at h
  by_cases hclose : c = 125
  · rw [if_pos hclose] at h
    cases h
    exact ⟨v, r, hv, List.mem_cons_self, .inl ⟨_, hclose ▸ hnext, rfl⟩⟩
  rw [if_neg hclose] at h
  by_cases hcomma : c = 44
  · rw [if_pos hcomma] at h
    obtain ⟨⟨tail, r''⟩, htail, h⟩ := Option.bind_eq_some_iff.1 h
    cases h
    exact ⟨v, r, hv, List.mem_cons_self, .inr ⟨r', tail, hcomma ▸ hnext, htail, List.subset_cons_self _ _⟩⟩
  · rw [if_neg hcomma] at h
    cases h

/-- A member whose text was put between quotes as it is, and is read back. -/
theorem members_raw {n : Nat} {s rest : JString} {ms : List (JString × Json)} (key text mid t : JString)
    (hkey : Plain key) (hmid : Plain mid) (hne : mid ≠ [])
    (hquote : expect 34 s = some (key ++ 34 :: 58 :: 34 :: (text ++ 34 :: (mid ++ 34 :: t))))
    (h : members (n + 2) s = some (ms, rest)) (htext : ∀ v, (key, v) ∈ ms → v = .string text) :
    next (mid ++ 34 :: t) = some (125, rest) ∨
      ∃ r tail, next (mid ++ 34 :: t) = some (44, r) ∧ members (n + 1) r = some (tail, rest) ∧ tail ⊆ ms := by
  obtain ⟨v, r, hv, hmem, hend⟩ := members_key _ _ hkey hquote h
  obtain ⟨d, rfl, hbody⟩ := value_string hv
  cases htext _ hmem
  rw [stringBody_self hmid hne hbody] at hend
  rcases hend with ⟨r', hnext, rfl⟩ | ⟨r', tail, hnext, htail, hsub⟩
  · exact .inl hnext
  · exact .inr ⟨r', tail, hnext, htail, hsub⟩

end SberWifi.JsonText
