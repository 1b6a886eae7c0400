import SberWifi.CJsonParse

namespace SberWifi.CJsonRoundTrip

open CJsonPrint CJsonParse JavaString JsonRules JsonTokens

section Spaces

theorem skip_spaces {w : Bytes} (hw : ∀ c ∈ w, c ≤ 32) (s : Bytes) :
    bufferSkipWhitespace (w ++ s) = bufferSkipWhitespace s := by
  have hdrop : (w ++ s).dropWhile (· ≤ 32) = s.dropWhile (· ≤ 32) := by
    rw [List.dropWhile_append_of_pos]
    simpa using hw
  rw [bufferSkipWhitespace, hdrop, bufferSkipWhitespace]

theorem tabs_le (format : Bool) (depth : Nat) : ∀ c ∈ tabs format depth, c ≤ 32 := by
  intro c hc
  rw [tabs] at hc
  split at hc
  · rw [List.eq_of_mem_replicate hc]
    decide
  · cases hc

theorem newline_le (format : Bool) : ∀ c ∈ newline format, c ≤ 32 := by
  intro c hc
  cases format with
  | false => cases hc
  | true =>
      rw [List.mem_singleton.1 hc]
      decide

end Spaces

section Strings

theorem closingQuote_quote (s : Bytes) : closingQuote (34 :: s) = some ([], s) := by
  rw [closingQuote.eq_def]
  exact if_pos rfl

theorem closingQuote_plain {c : UInt8} (hquote : c ≠ 34) (hslash : c ≠ 92) (s : Bytes) :
    closingQuote (c :: s) = (closingQuote s).map (Prod.map (c :: ·) id) := by
  rw [closingQuote.eq_def]
  dsimp only
  rw [if_neg hquote, if_neg hslash]

theorem closingQuote_pair (e : UInt8) (s : Bytes) :
    closingQuote (92 :: e :: s) = (closingQuote s).map (Prod.map (fun literal => 92 :: e :: literal) id) := rfl

theorem unescapeLiteral_plain {c : UInt8} (hslash : c ≠ 92) (s : Bytes) :
    unescapeLiteral (c :: s) = (unescapeLiteral s).map (c :: ·) := by
  rw [unescapeLiteral.eq_def]
  dsimp only
  rw [if_pos hslash]

theorem unescapeLiteral_byte {e c : UInt8} (hu : e ≠ 117) (he : unescapeByte e = some c) (s : Bytes) :
    unescapeLiteral (92 :: e :: s) = (unescapeLiteral s).map (c :: ·) := by
  rw [unescapeLiteral.eq_def]
  dsimp only
  rw [if_neg (by decide), if_neg hu, he]
  rfl

theorem unescapeLiteral_ascii {hi lo c : UInt8} (hhex : parseHex4 48 48 hi lo = c.toNat) (hc : c.toNat < 32)
    (s : Bytes) : unescapeLiteral (92 :: 117 :: 48 :: 48 :: hi :: lo :: s) = (unescapeLiteral s).map (c :: ·) := by
  have hencode : encodeUtf8 c.toNat = [c] := by
    rw [encodeUtf8]
    dsimp only
    rw [if_pos (by omega), Nat.toUInt8, UInt8.ofNat_toNat]
  rw [unescapeLiteral.eq_def]
  dsimp only
  rw [if_neg (by decide), if_pos rfl, hhex, if_neg (by omega), if_neg (by omega), hencode]
  rfl

theorem escape_control : ∀ n < 32, n ≠ 0 →
    (escape (UInt8.ofNat n) = [92, (escape (UInt8.ofNat n)).getD 1 0] ∧ (escape (UInt8.ofNat n)).getD 1 0 ≠ 117 ∧
      unescapeByte ((escape (UInt8.ofNat n)).getD 1 0) = some (UInt8.ofNat n)) ∨
    (escape (UInt8.ofNat n) = [92, 117, 48, 48, hexByte (UInt8.ofNat n / 16), hexByte (UInt8.ofNat n % 16)] ∧
      parseHex4 48 48 (hexByte (UInt8.ofNat n / 16)) (hexByte (UInt8.ofNat n % 16)) = n ∧
      hexByte (UInt8.ofNat n / 16) ≠ 34 ∧ hexByte (UInt8.ofNat n / 16) ≠ 92 ∧
      hexByte (UInt8.ofNat n % 16) ≠ 34 ∧ hexByte (UInt8.ofNat n % 16) ≠ 92) := by
  decide

theorem escape_read {c : UInt8} (hc : c ≠ 0) :
    (escape c = [c] ∧ c ≠ 34 ∧ c ≠ 92) ∨
    (∃ e, escape c = [92, e] ∧ e ≠ 117 ∧ unescapeByte e = some c) ∨
    (∃ hi lo, escape c = [92, 117, 48, 48, hi, lo] ∧ parseHex4 48 48 hi lo = c.toNat ∧ c.toNat < 32 ∧
      hi ≠ 34 ∧ hi ≠ 92 ∧ lo ≠ 34 ∧ lo ≠ 92) := by
  by_cases hplain : 31 < c ∧ c ≠ 34 ∧ c ≠ 92
  · exact .inl ⟨if_pos hplain, hplain.2⟩
  right
  by_cases hquote : c = 34
  · subst hquote
    exact .inl ⟨34, rfl, by decide, rfl⟩
  by_cases hslash : c = 92
  · subst hslash
    exact .inl ⟨92, rfl, by decide, rfl⟩
  have hcontrol : c.toNat < 32 := by
    by_contra hge
    exact hplain ⟨UInt8.lt_iff_toNat_lt.2 (Nat.not_lt.1 hge), hquote, hslash⟩
  have hne : c.toNat ≠ 0 := fun h => hc (UInt8.toNat_inj.1 h)
  have htable := escape_control _ hcontrol hne
  rw [UInt8.ofNat_toNat] at htable
  rcases htable with ⟨h, hu, he⟩ | ⟨h, hhex, hbytes⟩
  · exact .inl ⟨_, h, hu, he⟩
  · exact .inr ⟨_, _, h, hhex, hcontrol, hbytes⟩

theorem closingQuote_escape {c : UInt8} (hc : c ≠ 0) (s : Bytes) :
    closingQuote (escape c ++ s) = (closingQuote s).map (Prod.map (escape c ++ ·) id) := by
  rcases escape_read hc with ⟨h, hquote, hslash⟩ | ⟨e, h, -⟩ | ⟨hi, lo, h, -, -, hhi, hhi', hlo, hlo'⟩
  · rw [h, List.singleton_append, closingQuote_plain hquote hslash]
    rfl
  · rw [h, List.cons_append, List.singleton_append, closingQuote_pair]
    rfl
  · rw [h]
    simp only [List.cons_append, List.nil_append]
    rw [closingQuote_pair, closingQuote_plain (by decide) (by decide), closingQuote_plain (by decide) (by decide),
      closingQuote_plain hhi hhi', closingQuote_plain hlo hlo']
    simp only [Option.map_map]
    rfl

theorem unescapeLiteral_escape {c : UInt8} (hc : c ≠ 0) (s : Bytes) :
    unescapeLiteral (escape c ++ s) = (unescapeLiteral s).map (c :: ·) := by
  rcases escape_read hc with ⟨h, -, hslash⟩ | ⟨e, h, hu, he⟩ | ⟨hi, lo, h, hhex, hcontrol, -⟩
  · rw [h, List.singleton_append, unescapeLiteral_plain hslash]
  · rw [h, List.cons_append, List.singleton_append, unescapeLiteral_byte hu he]
  · rw [h]
    exact unescapeLiteral_ascii hhex hcontrol s

theorem closingQuote_flatMap {s : Bytes} (hs : 0 ∉ s) (rest : Bytes) :
    closingQuote (s.flatMap escape ++ 34 :: rest) = some (s.flatMap escape, rest) := by
  induction s with
  | nil => exact closingQuote_quote rest
  | cons c s ih =>
      rw [List.mem_cons, not_or] at hs
      rw [List.flatMap_cons, List.append_assoc, closingQuote_escape (Ne.symm hs.1), ih hs.2]
      rfl

theorem unescapeLiteral_flatMap {s : Bytes} (hs : 0 ∉ s) : unescapeLiteral (s.flatMap escape) = some s := by
  induction s with
  | nil => rfl
  | cons c s ih =>
      rw [List.mem_cons, not_or] at hs
      rw [List.flatMap_cons, unescapeLiteral_escape (Ne.symm hs.1), ih hs.2]
      rfl

theorem stringBytes_nul (s : Option CString) : 0 ∉ stringBytes s := by
  cases s with
  | none => simp [stringBytes]
  | some s => exact s.nul_free

def rereadString (s : Option CString) : CString := ⟨stringBytes s, stringBytes_nul s⟩

theorem CString.ext_bytes {s t : CString} (h : s.bytes = t.bytes) : s = t := by
  cases s
  cases t
  cases h
  rfl

theorem terminated_eq (s : CString) : terminated s.bytes = s := by
  obtain ⟨s, hs⟩ := s
  apply CString.ext_bytes
  have hself : s.takeWhile (· ≠ 0) = s := by
    rw [List.takeWhile_eq_self_iff]
    intro c hc
    have hne : c ≠ 0 := fun h => hs (h ▸ hc)
    simpa using hne
  exact hself

theorem parseString_print (s : Option CString) (rest : Bytes) :
    parseString (printStringPtr s ++ rest) = some (rereadString s, rest) := by
  have hnul := stringBytes_nul s
  have hterminated := terminated_eq (rereadString s)
  rw [printStringPtr_eq, List.cons_append, List.append_assoc, List.singleton_append, parseString,
    closingQuote_flatMap hnul, Option.bind_eq_bind, Option.bind_some]
  dsimp only
  rw [unescapeLiteral_flatMap hnul, Option.bind_eq_bind, Option.bind_some]
  exact congrArg (fun string => some (string, rest)) hterminated

end Strings

variable {Double : Type} {lib : CLib Double} (clib : Strtod lib)

section Numbers

/-- What follows is not taken for a part of a number. -/
def Stops (s : Bytes) : Prop := ∀ c ∈ s.head?, c ∉ bytes "0123456789+-eE."

theorem printed_bytes (p : UInt8) (x : Decimal) : ∀ c ∈ printed p x, c = p ∨ c ∈ bytes "0123456789+-e" := by
  have hdigits (ds : List (Fin 10)) : ∀ c ∈ ds.map digitByte, c ∈ bytes "0123456789+-e" := by
    have hdigit : ∀ d, digitByte d ∈ bytes "0123456789+-e" := by decide
    intro c hc
    obtain ⟨d, -, rfl⟩ := List.mem_map.1 hc
    exact hdigit d
  intro c hc
  rw [printed, List.mem_append, List.mem_append, List.mem_append] at hc
  rcases hc with hc | hc | hc | hc
  · rw [signBytes] at hc
    split at hc
    · rw [List.mem_singleton.1 hc]
      exact .inr (by decide)
    · cases hc
  · exact .inr (hdigits _ c hc)
  · rw [fractionBytes] at hc
    split at hc
    · cases hc
    · rcases List.mem_cons.1 hc with rfl | hc
      · exact .inl rfl
      · exact .inr (hdigits _ c hc)
  · right
    rw [exponentBytes] at hc
    split at hc
    · cases hc
    · rcases List.mem_cons.1 hc with rfl | hc
      · decide
      rcases List.mem_cons.1 hc with rfl | hc
      · split <;> decide
      · exact hdigits _ c hc

theorem takeWhile_stops {q : UInt8 → Bool} {s rest : Bytes} (hs : ∀ c ∈ s, q c) (hrest : ∀ c ∈ rest.head?, ¬ q c)
    {n : Nat} (hn : s.length ≤ n) : ((s ++ rest).take n).takeWhile q = s := by
  rw [List.take_append, List.take_of_length_le hn, List.takeWhile_append_of_pos hs]
  cases rest with
  | nil => simp
  | cons c rest =>
      have hstop : ¬ q c := hrest c rfl
      cases n - s.length with
      | zero => simp
      | succ m => simp [List.takeWhile_cons_of_neg hstop]

/-- What is copied for `strtod` is what `sprintf` wrote, with the decimal point of the locale. -/
theorem numberString_print {d : Double} (hfinite : lib.finite d) {s : Bytes} (h : printNumber lib d = some s)
    {rest : Bytes} (hrest : Stops rest) :
    numberString lib (s ++ rest) = numberBuffer lib d ∧ s.length = (numberBuffer lib d).length := by
  rw [printNumber] at h
  split at h
  · cases h
  · rename_i hlength
    obtain ⟨x, hx⟩ := numberBuffer_finite lib hfinite
    have hs := Option.some_inj.1 h
    subst hs
    rw [hx] at hlength ⊢
    have hreplaced : ∀ c ∈ replacePoint lib.decimalPoint (printed lib.decimalPoint x),
        decide (c ∈ bytes "0123456789+-eE.") = true := by
      have hsub : ∀ c ∈ bytes "0123456789+-e", c ∈ bytes "0123456789+-eE." := forall_mem_of_all (by decide)
      intro c hc
      obtain ⟨b, hb, rfl⟩ := List.mem_map.1 hc
      rw [decide_eq_true_iff]
      split
      · decide
      · rename_i hne
        exact hsub b ((printed_bytes _ x b hb).resolve_left hne)
    have hlen : (replacePoint lib.decimalPoint (printed lib.decimalPoint x)).length =
        (printed lib.decimalPoint x).length := List.length_map _
    refine ⟨?_, hlen⟩
    rw [numberString, takeWhile_stops hreplaced (fun c hc => by simpa using hrest c hc) (by omega), replacePoint,
      List.map_map]
    refine (List.map_congr_left fun c hc => ?_).trans (List.map_id _)
    dsimp only [Function.comp_apply, id]
    by_cases hpoint : c = lib.decimalPoint
    · rw [if_pos hpoint, if_pos rfl, hpoint]
    · have hother : c ≠ 46 := by
        rintro rfl
        exact absurd ((printed_bytes _ x 46 hc).resolve_left hpoint) (by decide)
      rw [if_neg hpoint, if_neg hother]

theorem strtod_numberBuffer {d : Double} (hfinite : lib.finite d) :
    ∃ d', clib.strtod (numberBuffer lib d) = some (d', (numberBuffer lib d).length) ∧ lib.same d' d := by
  obtain ⟨x, hx⟩ := numberBuffer_finite lib hfinite
  obtain ⟨d', hd'⟩ := clib.strtod_printed x
  rw [← hx] at hd'
  refine ⟨d', hd', ?_⟩
  by_cases hany : (lib.sscanf (lib.sprintf15 d)).any fun test => lib.same test d
  · obtain ⟨test, htest, hsame⟩ := (Option.any_eq_true _ _).1 hany
    obtain ⟨n, hn⟩ := clib.strtod_sscanf _ test htest
    have hbuffer : numberBuffer lib d = lib.sprintf15 d := by
      rw [numberBuffer, hfinite, if_neg (by decide), if_pos hany]
    rw [hbuffer, hn] at hd'
    cases hd'
    exact hsame
  · have hbuffer : numberBuffer lib d = lib.sprintf17 d := by
      rw [numberBuffer, hfinite, if_neg (by decide), if_neg hany]
    rw [hbuffer] at hd'
    exact clib.strtod_sprintf17 d hfinite _ hd'

end Numbers

mutual

def reread : CJSON Double → CJSON Double
  | .number d => if lib.finite d then ((clib.strtod (numberBuffer lib d)).map fun r => .number r.1).getD .null else .null
  | .string valuestring => .string (some (rereadString valuestring))
  | .array child => .array (rereadItems child)
  | .object child => .object (rereadMembers child)
  | item => item

def rereadItems : List (CJSON Double) → List (CJSON Double)
  | [] => []
  | item :: next => reread item :: rereadItems next

def rereadMembers : List (Option CString × CJSON Double) → List (Option CString × CJSON Double)
  | [] => []
  | (string, item) :: next => (some (rereadString string), reread item) :: rereadMembers next

end

mutual

def nesting : CJSON Double → Nat
  | .array child => nestingItems child + 1
  | .object child => nestingMembers child + 1
  | _ => 0

def nestingItems : List (CJSON Double) → Nat
  | [] => 0
  | item :: next => max (nesting item) (nestingItems next)

def nestingMembers : List (Option CString × CJSON Double) → Nat
  | [] => 0
  | (_, item) :: next => max (nesting item) (nestingMembers next)

end

section Values

/-- A value starts like no literal. -/
theorem parseValue_other {c : UInt8} (hnull : c ≠ 110) (hfalse : c ≠ 102) (htrue : c ≠ 116) (depth : Nat) (s : Bytes) :
    parseValue clib depth (c :: s) =
      if c = 34 then (parseString (c :: s)).map (Prod.map (fun string => .string (some string)) id)
      else if c = 45 ∨ 48 ≤ c ∧ c ≤ 57 then parseNumber clib (c :: s)
      else
        match depth with
        | 0 => none
        | depth + 1 =>
            if c = 91 then (parseChild (parseValue clib depth) 93 s).map (Prod.map .array id)
            else if c = 123 then
              (parseChild (parseMember (parseValue clib depth)) 125 s).map (Prod.map .object id)
            else none := by
  have hliteral {b : UInt8} (hb : c ≠ b) (t : Bytes) : ¬ b :: t <+: c :: s := fun h =>
    hb (List.cons_prefix_cons.1 h).1.symm
  rw [parseValue.eq_def]
  exact (if_neg (hliteral hnull _)).trans ((if_neg (hliteral hfalse _)).trans (if_neg (hliteral htrue _)))

theorem parseValue_literals (depth : Nat) (rest : Bytes) :
    parseValue clib depth (bytes "null" ++ rest) = some (.null, rest) ∧
    parseValue clib depth (bytes "false" ++ rest) = some (.false, rest) ∧
    parseValue clib depth (bytes "true" ++ rest) = some (.true, rest) := by
  have hother {b c : UInt8} (hb : c ≠ b) (s t : Bytes) : ¬ b :: t <+: c :: s := fun h =>
    hb (List.cons_prefix_cons.1 h).1.symm
  have hfalse : ¬ bytes "null" <+: bytes "false" ++ rest := hother (by decide) _ _
  have htrue : ¬ bytes "null" <+: bytes "true" ++ rest ∧ ¬ bytes "false" <+: bytes "true" ++ rest :=
    ⟨hother (by decide) _ _, hother (by decide) _ _⟩
  refine ⟨?_, ?_, ?_⟩
  · rw [parseValue.eq_def, if_pos (List.prefix_append _ _)]
    rfl
  · rw [parseValue.eq_def, if_neg hfalse, if_pos (List.prefix_append _ _)]
    rfl
  · rw [parseValue.eq_def, if_neg htrue.1, if_neg htrue.2, if_pos (List.prefix_append _ _)]
    rfl

theorem parseValue_string (depth : Nat) (s : Option CString) (rest : Bytes) :
    parseValue clib depth (printStringPtr s ++ rest) = some (.string (some (rereadString s)), rest) := by
  have hparse := parseString_print s rest
  rw [printStringPtr_eq, List.cons_append] at hparse ⊢
  rw [parseValue_other clib (by decide) (by decide) (by decide), if_pos rfl, hparse]
  rfl

theorem parseValue_array (depth : Nat) (s : Bytes) : parseValue clib (depth + 1) (91 :: s) =
    (parseChild (parseValue clib depth) 93 s).map (Prod.map .array id) := by
  rw [parseValue_other clib (by decide) (by decide) (by decide), if_neg (by decide), if_neg (by decide)]
  exact if_pos rfl

theorem parseValue_object (depth : Nat) (s : Bytes) : parseValue clib (depth + 1) (123 :: s) =
    (parseChild (parseMember (parseValue clib depth)) 125 s).map (Prod.map .object id) := by
  rw [parseValue_other clib (by decide) (by decide) (by decide), if_neg (by decide), if_neg (by decide)]
  exact (if_neg (by decide)).trans (if_pos rfl)

theorem parseValue_deep {c : UInt8} (hc : c = 91 ∨ c = 123) (s : Bytes) : parseValue clib 0 (c :: s) = none := by
  rcases hc with rfl | rfl
  · rw [parseValue_other clib (by decide) (by decide) (by decide), if_neg (by decide), if_neg (by decide)]
  · rw [parseValue_other clib (by decide) (by decide) (by decide), if_neg (by decide), if_neg (by decide)]

theorem number_head {d : Double} (hfinite : lib.finite d) {s : Bytes} (h : printNumber lib d = some s) :
    ∃ c t, s = c :: t ∧ (c = 45 ∨ 48 ≤ c ∧ c ≤ 57) := by
  have hdigit : ∀ n, 48 ≤ digitByte n ∧ digitByte n ≤ 57 := by decide
  have hmember : ∀ n, digitByte n ∈ bytes "+-0123456789enul" := by decide
  rw [printNumber] at h
  split at h
  · cases h
  · obtain ⟨x, hx⟩ := numberBuffer_finite lib hfinite
    obtain rfl := Option.some_inj.1 h
    rw [hx, printed, signBytes]
    split
    · exact ⟨45, _, replacePoint_cons lib.decimalPoint_free (by decide) _, .inl rfl⟩
    · obtain ⟨n, ds, hint⟩ := List.exists_cons_of_ne_nil x.int_ne
      rw [hint]
      exact ⟨digitByte n, _, replacePoint_cons lib.decimalPoint_free (hmember n) _, .inr (hdigit n)⟩

theorem parseValue_number (depth : Nat) {d : Double} {s : Bytes} (h : printNumber lib d = some s) {rest : Bytes}
    (hrest : Stops rest) : parseValue clib depth (s ++ rest) = some (reread clib (.number d), rest) := by
  by_cases hfinite : lib.finite d
  · obtain ⟨c, t, rfl, hc⟩ := number_head hfinite h
    obtain ⟨d', hd', -⟩ := strtod_numberBuffer clib hfinite
    obtain ⟨hstring, hlength⟩ := numberString_print hfinite h hrest
    have hcopy : parseNumber clib (c :: t ++ rest) = some (.number d', rest) := by
      rw [parseNumber, hstring, hd', Option.map_some]
      dsimp only
      rw [← hlength, List.drop_left]
    have hquote : c ≠ 34 ∧ c ≠ 110 ∧ c ≠ 102 ∧ c ≠ 116 := by
      refine ⟨?_, ?_, ?_, ?_⟩ <;> rintro rfl <;> exact absurd hc (by decide)
    rw [List.cons_append] at hcopy ⊢
    rw [parseValue_other clib hquote.2.1 hquote.2.2.1 hquote.2.2.2, if_neg hquote.1, if_pos hc, hcopy, reread,
      if_pos hfinite, hd']
    rfl
  · have hnull : s = bytes "null" := by
      rcases printNumber_cases lib h with ⟨-, hd⟩ | ⟨hs, -⟩
      · rw [denoteNumber, if_neg hfinite] at hd
        cases hd
      · exact hs
    rw [hnull, (parseValue_literals clib depth rest).1, reread, if_neg hfinite]

end Values

section Loops

variable {α : Type} {parse : Bytes → Option (α × Bytes)} {close : UInt8} {n : Nat} {s t s' rest : Bytes} {a : α}
  {p : Prop} [Decidable p]

theorem parseElements_last (hs : bufferSkipWhitespace s = t) (hp : parse t = if p then some (a, s') else none)
    (hclose : bufferSkipWhitespace s' = close :: rest) (hcomma : close ≠ 44) :
    parseElements parse close (n + 1) s = if p then some ([a], rest) else none := by
  rw [parseElements, hs, hp]
  split
  · rw [Option.bind_eq_bind, Option.bind_some]
    dsimp only
    rw [hclose]
    split
    · rename_i heq
      exact absurd (List.cons.inj heq).1 hcomma
    · rename_i heq
      obtain ⟨rfl, rfl⟩ := List.cons.inj heq
      exact if_pos rfl
    · rename_i heq
      cases heq
  · rfl

theorem parseElements_next {q r : Prop} [Decidable q] [Decidable r] {as : List α} {next : Bytes}
    (hs : bufferSkipWhitespace s = t) (hp : parse t = if p then some (a, s') else none)
    (hcomma : bufferSkipWhitespace s' = 44 :: next)
    (ih : parseElements parse close n next = if q then some (as, rest) else none) (hr : r ↔ p ∧ q) :
    parseElements parse close (n + 1) s = if r then some (a :: as, rest) else none := by
  rw [parseElements, hs, hp]
  by_cases hpos : p
  · rw [if_pos hpos, Option.bind_eq_bind, Option.bind_some]
    dsimp only
    rw [hcomma]
    change (parseElements parse close n next).map (Prod.map (a :: ·) id) = _
    rw [ih]
    by_cases hq : q
    · rw [if_pos hq, if_pos (hr.2 ⟨hpos, hq⟩)]
      rfl
    · rw [if_neg hq, if_neg fun h => hq (hr.1 h).2]
      rfl
  · rw [if_neg hpos, if_neg fun h => hpos (hr.1 h).1]
    rfl

theorem parseElements_spaces {w : Bytes} (hw : ∀ c ∈ w, c ≤ 32) :
    parseElements parse close n (w ++ s) = parseElements parse close n s := by
  cases n with
  | zero => rfl
  | succ n => rw [parseElements, parseElements, skip_spaces hw]

theorem parseElements_skip : parseElements parse close n (bufferSkipWhitespace s) = parseElements parse close n s := by
  cases n with
  | zero => rfl
  | succ n => rw [parseElements, parseElements, skip_idem]

theorem parseChild_elements {r : Option (List α × Bytes)} (hs : ∃ c t, bufferSkipWhitespace s = c :: t ∧ c ≠ close)
    (h : parseElements parse close (bufferSkipWhitespace s).length s = r) : parseChild parse close s = r := by
  obtain ⟨c, t, hs, hc⟩ := hs
  rw [hs] at h
  rw [parseChild, hs]
  dsimp only
  rw [if_neg hc, ← h, ← hs, parseElements_skip]

theorem parseChild_empty (hs : bufferSkipWhitespace s = close :: rest) :
    parseChild parse close s = some ([], rest) := by
  rw [parseChild, hs]
  exact if_pos rfl

end Loops

theorem stops_cons {c : UInt8} (hc : c ∉ bytes "0123456789+-eE.") (s : Bytes) : Stops (c :: s) := by
  rintro _ ⟨⟩
  exact hc

theorem stops_spaces {w : Bytes} (hw : ∀ c ∈ w, c ≤ 32) {s : Bytes} (hs : Stops s) : Stops (w ++ s) := by
  cases w with
  | nil => exact hs
  | cons c w =>
      refine stops_cons (fun hc => ?_) _
      have hle := hw c (by simp)
      have hvisible : ∀ c ∈ bytes "0123456789+-eE.", ¬ c ≤ 32 := forall_mem_of_all (by decide)
      exact hvisible c hc hle

/-- What is printed starts with a byte above a space that closes no array. -/
theorem printValue_head {format : Bool} {depth : Nat} {item : CJSON Double} {s : Bytes} (hraw : hasRaw item = false)
    (h : printValue lib format depth item = some s) : ∃ c t, s = c :: t ∧ 32 < c ∧ c ≠ 93 := by
  cases item with
  | invalid => cases h
  | null | false | true =>
      cases h
      exact ⟨_, _, rfl, by decide, by decide⟩
  | raw valuestring => cases hraw
  | number d =>
      by_cases hfinite : lib.finite d
      · obtain ⟨c, t, rfl, hc⟩ := number_head hfinite h
        refine ⟨c, t, rfl, ?_, ?_⟩
        · rcases hc with rfl | hc
          · decide
          · exact UInt8.lt_of_lt_of_le (by decide) hc.1
        · rintro rfl
          exact absurd hc (by decide)
      · rcases printNumber_cases lib h with ⟨-, hd⟩ | ⟨rfl, -⟩
        · rw [denoteNumber, if_neg hfinite] at hd
          cases hd
        · exact ⟨_, _, rfl, by decide, by decide⟩
  | string valuestring =>
      cases h
      rw [printStringPtr_eq]
      exact ⟨_, _, rfl, by decide, by decide⟩
  | array child =>
      obtain ⟨items, -, h⟩ := Option.bind_eq_some_iff.1 h
      cases h
      exact ⟨_, _, rfl, by decide, by decide⟩
  | object child =>
      obtain ⟨members, -, h⟩ := Option.bind_eq_some_iff.1 h
      cases h
      exact ⟨_, _, rfl, by decide, by decide⟩

theorem skip_printValue {format : Bool} {depth : Nat} {item : CJSON Double} {s : Bytes} (hraw : hasRaw item = false)
    (h : printValue lib format depth item = some s) (rest : Bytes) : bufferSkipWhitespace (s ++ rest) = s ++ rest := by
  obtain ⟨c, t, rfl, hc, -⟩ := printValue_head hraw h
  exact skip_visible hc _

theorem parseMember_print (format : Bool) (string : Option CString) {parse : Bytes → Option (CJSON Double × Bytes)}
    {value rest : Bytes} {item : CJSON Double} {p : Prop} [Decidable p]
    (hskip : bufferSkipWhitespace (value ++ rest) = value ++ rest)
    (hvalue : parse (value ++ rest) = if p then some (item, rest) else none) :
    parseMember parse (printStringPtr string ++ 58 :: (tabs format 1 ++ (value ++ rest))) =
      if p then some ((some (rereadString string), item), rest) else none := by
  rw [parseMember, parseString_print, Option.bind_eq_bind, Option.bind_some]
  dsimp only
  rw [skip_visible (by decide)]
  change ((parse (bufferSkipWhitespace (tabs format 1 ++ (value ++ rest)))).bind fun r =>
    some ((some (rereadString string), r.1), r.2)) = _
  rw [skip_spaces (tabs_le format 1), hskip, hvalue]
  split <;> rfl

theorem separator_eq (format : Bool) :
    (if format then [44, 32] else [44]) = (44 : UInt8) :: if format then [32] else [] := by
  cases format <;> rfl

theorem separator_le (format : Bool) : ∀ c ∈ if format then [32] else ([] : Bytes), c ≤ 32 := by
  cases format <;> exact forall_mem_of_all (by decide)

theorem skip_name (format : Bool) (depth : Nat) (string : Option CString) (rest : Bytes) :
    bufferSkipWhitespace (tabs format depth ++ (printStringPtr string ++ rest)) = printStringPtr string ++ rest := by
  rw [skip_spaces (tabs_le format depth), printStringPtr_eq]
  exact skip_visible (by decide) _

theorem bracket_read {α : Type} {loop : Option (List α × Bytes)} {as : List α} {rest : Bytes} {n limit : Nat}
    (f : List α → CJSON Double) (hloop : loop = if n ≤ limit then some (as, rest) else none) :
    loop.map (Prod.map f id) = if n + 1 ≤ limit + 1 then some (f as, rest) else none := by
  rw [hloop]
  by_cases hn : n ≤ limit
  · rw [if_pos hn, if_pos (by omega)]
    rfl
  · rw [if_neg hn, if_neg (by omega)]
    rfl

mutual

theorem parseValue_print (format : Bool) (depth : Nat) : ∀ (item : CJSON Double) (s : Bytes), hasRaw item = false →
    printValue lib format depth item = some s → ∀ (limit : Nat) (rest : Bytes), Stops rest →
    parseValue clib limit (s ++ rest) = if nesting item ≤ limit then some (reread clib item, rest) else none
  | .invalid, s, _, h, _, _, _ => by cases h
  | .raw _, s, hraw, _, _, _, _ => by cases hraw
  | .null, s, _, h, limit, rest, _ => by
      cases h
      exact (parseValue_literals clib limit rest).1
  | .false, s, _, h, limit, rest, _ => by
      cases h
      exact (parseValue_literals clib limit rest).2.1
  | .true, s, _, h, limit, rest, _ => by
      cases h
      exact (parseValue_literals clib limit rest).2.2
  | .number d, s, _, h, limit, rest, hrest => parseValue_number clib limit h hrest
  | .string valuestring, s, _, h, limit, rest, _ => by
      cases h
      exact parseValue_string clib limit valuestring rest
  | .array child, s, hraw, h, limit, rest, _ => by
      obtain ⟨items, hitems, h⟩ := Option.bind_eq_some_iff.1 h
      cases h
      rw [nesting, reread, List.cons_append, List.append_assoc, List.singleton_append]
      cases limit with
      | zero => exact parseValue_deep clib (.inl rfl) _
      | succ limit =>
          rw [parseValue_array]
          apply bracket_read
          cases child with
          | nil =>
              cases hitems
              exact parseChild_empty (skip_visible (by decide) _)
          | cons item next =>
              have hloop := parseItems_print format (depth + 1) (item :: next) items (by simp) hraw hitems limit rest
              obtain ⟨value, hvalue, hnext⟩ := Option.bind_eq_some_iff.1 hitems
              obtain ⟨rest', -, hnext⟩ := Option.bind_eq_some_iff.1 hnext
              cases hnext
              obtain ⟨c, t, rfl, hc, hclose⟩ := printValue_head (Bool.or_eq_false_iff.1 hraw).1 hvalue
              exact parseChild_elements ⟨c, _, skip_visible hc _, hclose⟩ (hloop _ le_rfl)
  | .object child, s, hraw, h, limit, rest, _ => by
      obtain ⟨members, hmembers, h⟩ := Option.bind_eq_some_iff.1 h
      cases h
      rw [nesting, reread, List.cons_append, List.append_assoc, List.append_assoc, List.append_assoc,
        List.singleton_append]
      cases limit with
      | zero => exact parseValue_deep clib (.inr rfl) _
      | succ limit =>
          rw [parseValue_object]
          apply bracket_read
          cases child with
          | nil =>
              cases hmembers
              refine parseChild_empty ?_
              rw [skip_spaces (newline_le format), List.nil_append, skip_spaces (tabs_le format depth)]
              exact skip_visible (by decide) _
          | cons member next =>
              have hloop := parseMembers_print format (depth + 1) (member :: next) members (by simp) hraw hmembers
                limit _ (tabs_le format depth) rest
              obtain ⟨value, -, hnext⟩ := Option.bind_eq_some_iff.1 hmembers
              obtain ⟨rest', -, hnext⟩ := Option.bind_eq_some_iff.1 hnext
              cases hnext
              have hhead := printStringPtr_eq member.1
              simp only [List.append_assoc, List.cons_append] at hloop ⊢
              have hskip := skip_name format (depth + 1) member.1
              refine parseChild_elements ?_ ?_
              · rw [skip_spaces (newline_le format), hskip, hhead]
                exact ⟨34, _, rfl, by decide⟩
              · rw [parseElements_spaces (newline_le format)]
                refine hloop _ ?_
                rw [skip_spaces (newline_le format)]

theorem parseItems_print (format : Bool) (depth : Nat) : ∀ (child : List (CJSON Double)) (s : Bytes), child ≠ [] →
    itemsRaw child = false → printArray lib format depth child = some s → ∀ (limit : Nat) (rest : Bytes) (n : Nat),
    (bufferSkipWhitespace (s ++ 93 :: rest)).length ≤ n →
    parseElements (parseValue clib limit) 93 n (s ++ 93 :: rest) =
      if nestingItems child ≤ limit then some (rereadItems clib child, rest) else none
  | [], _, hne, _, _, _, _, _, _ => (hne rfl).elim
  | item :: next, s, _, hraw, h, limit, rest, n, hn => by
      obtain ⟨value, hvalue, h⟩ := Option.bind_eq_some_iff.1 h
      obtain ⟨rest', hrest, h⟩ := Option.bind_eq_some_iff.1 h
      cases h
      rw [itemsRaw, Bool.or_eq_false_iff] at hraw
      have hskip := skip_printValue hraw.1 hvalue
      have hparse := parseValue_print format depth item value hraw.1 hvalue limit
      rw [List.append_assoc, hskip, List.length_append] at hn
      rw [List.append_assoc]
      obtain ⟨c, t, hhead, -⟩ := printValue_head hraw.1 hvalue
      obtain ⟨n, rfl⟩ : ∃ m, n = m + 1 := Nat.exists_eq_add_one.2 (by rw [hhead] at hn; simp at hn; omega)
      rw [nestingItems, rereadItems]
      cases next with
      | nil =>
          cases hrest
          rw [if_pos rfl, List.nil_append, List.nil_append, nestingItems, Nat.max_zero, rereadItems]
          exact parseElements_last (hskip _) (hparse _ (stops_cons (by decide) _)) (skip_visible (by decide) _) (by decide)
      | cons item' next =>
          rw [if_neg (by simp), separator_eq] at hn ⊢
          simp only [List.cons_append, List.append_assoc] at hn ⊢
          refine parseElements_next (hskip _) (hparse _ (stops_cons (by decide) _)) (skip_visible (by decide) _) ?_
            Nat.max_le
          rw [parseElements_spaces (separator_le format)]
          refine parseItems_print format depth (item' :: next) rest' (by simp) hraw.2 hrest limit rest n ?_
          have hle := skip_length (s := rest' ++ 93 :: rest) (by simp)
          simp only [List.length_cons, List.length_append] at hn hle
          omega

theorem parseMembers_print (format : Bool) (depth : Nat) : ∀ (child : List (Option CString × CJSON Double))
    (s : Bytes), child ≠ [] → membersRaw child = false → printObject lib format depth child = some s →
    ∀ (limit : Nat) (w : Bytes), (∀ c ∈ w, c ≤ 32) → ∀ (rest : Bytes) (n : Nat),
    (bufferSkipWhitespace (s ++ (w ++ 125 :: rest))).length ≤ n →
    parseElements (parseMember (parseValue clib limit)) 125 n (s ++ (w ++ 125 :: rest)) =
      if nestingMembers child ≤ limit then some (rereadMembers clib child, rest) else none
  | [], _, hne, _, _, _, _, _, _, _, _ => (hne rfl).elim
  | (string, item) :: next, s, _, hraw, h, limit, w, hw, rest, n, hn => by
      obtain ⟨value, hvalue, h⟩ := Option.bind_eq_some_iff.1 h
      obtain ⟨rest', hrest, h⟩ := Option.bind_eq_some_iff.1 h
      cases h
      rw [membersRaw, Bool.or_eq_false_iff] at hraw
      have hskip := skip_printValue hraw.1 hvalue
      have hparse := parseValue_print format depth item value hraw.1 hvalue limit
      simp only [List.append_assoc, List.cons_append] at hn ⊢
      rw [skip_name, printStringPtr_eq] at hn
      obtain ⟨n, rfl⟩ : ∃ m, n = m + 1 := Nat.exists_eq_add_one.2 (by simp at hn; omega)
      rw [nestingMembers, rereadMembers]
      cases next with
      | nil =>
          cases hrest
          rw [if_pos rfl, List.nil_append, List.nil_append, nestingMembers, Nat.max_zero, rereadMembers]
          have hstops : Stops (newline format ++ (w ++ 125 :: rest)) :=
            stops_spaces (newline_le format) (stops_spaces hw (stops_cons (by decide) _))
          refine parseElements_last (skip_name _ _ _ _) (parseMember_print format string (hskip _) (hparse _ hstops))
            ?_ (by decide)
          rw [skip_spaces (newline_le format), skip_spaces hw]
          exact skip_visible (by decide) _
      | cons member next =>
          rw [if_neg (by simp)] at hn ⊢
          simp only [List.cons_append, List.nil_append] at hn ⊢
          refine parseElements_next (skip_name _ _ _ _)
            (parseMember_print format string (hskip _) (hparse _ (stops_cons (by decide) _)))
            (skip_visible (by decide) _) ?_ Nat.max_le
          rw [parseElements_spaces (newline_le format)]
          refine parseMembers_print format depth (member :: next) rest' (by simp) hraw.2 hrest limit w hw rest n ?_
          have hle := skip_length (s := rest' ++ (w ++ 125 :: rest)) (by simp)
          simp only [List.length_cons, List.length_append] at hn hle
          omega

end

section Terminator

theorem printNumber_nul {d : Double} {s : Bytes} (h : printNumber lib d = some s) : 0 ∉ s := by
  intro hmem
  rcases printNumber_cases lib h with ⟨hs, -⟩ | ⟨rfl, -⟩
  · have hunit := List.all_eq_true.1 (isNumber_units hs) _ (List.mem_map_of_mem hmem)
    exact absurd hunit (by decide)
  · exact absurd hmem (by decide)

theorem printStringPtr_nul (s : Option CString) : 0 ∉ printStringPtr s := by
  rw [printStringPtr_eq]
  intro hmem
  rw [List.mem_cons, List.mem_append, List.mem_singleton] at hmem
  rcases hmem with h | h | h
  · exact absurd h (by decide)
  · obtain ⟨c, -, hc⟩ := List.mem_flatMap.1 h
    exact absurd (escape_visible c 0 hc) (by decide)
  · exact absurd h (by decide)

theorem spaces_nul (format : Bool) (depth : Nat) : 0 ∉ tabs format depth ∧ 0 ∉ newline format := by
  constructor
  · intro h
    rw [tabs] at h
    split at h
    · exact absurd (List.eq_of_mem_replicate h) (by decide)
    · cases h
  · cases format <;> decide

mutual

theorem printValue_nul (format : Bool) (depth : Nat) : ∀ (item : CJSON Double) (s : Bytes),
    printValue lib format depth item = some s → 0 ∉ s
  | .invalid, s, h => by cases h
  | .null, s, h | .false, s, h | .true, s, h => by
      cases h
      decide
  | .raw valuestring, s, h => by
      obtain ⟨raw, -, rfl⟩ := Option.map_eq_some_iff.1 h
      exact raw.nul_free
  | .number d, s, h => printNumber_nul h
  | .string valuestring, s, h => by
      cases h
      exact printStringPtr_nul valuestring
  | .array child, s, h => by
      obtain ⟨items, hitems, h⟩ := Option.bind_eq_some_iff.1 h
      cases h
      have hnul := printArray_nul format (depth + 1) child items hitems
      simp [hnul]
  | .object child, s, h => by
      obtain ⟨members, hmembers, h⟩ := Option.bind_eq_some_iff.1 h
      cases h
      have hnul := printObject_nul format (depth + 1) child members hmembers
      simp [hnul, spaces_nul format depth]

theorem printArray_nul (format : Bool) (depth : Nat) : ∀ (child : List (CJSON Double)) (s : Bytes),
    printArray lib format depth child = some s → 0 ∉ s
  | [], s, h => by
      cases h
      exact List.not_mem_nil
  | item :: next, s, h => by
      obtain ⟨value, hvalue, h⟩ := Option.bind_eq_some_iff.1 h
      obtain ⟨rest, hrest, h⟩ := Option.bind_eq_some_iff.1 h
      cases h
      have hitem := printValue_nul format depth item value hvalue
      have hnext := printArray_nul format depth next rest hrest
      have hseparator : (0 : UInt8) ∉ (if next = [] then [] else if format then [44, 32] else [44] : Bytes) := by
        split_ifs <;> decide
      simp only [List.mem_append, hitem, hnext, hseparator, or_self, not_false_eq_true]

theorem printObject_nul (format : Bool) (depth : Nat) : ∀ (child : List (Option CString × CJSON Double)) (s : Bytes),
    printObject lib format depth child = some s → 0 ∉ s
  | [], s, h => by
      cases h
      exact List.not_mem_nil
  | (string, item) :: next, s, h => by
      obtain ⟨value, hvalue, h⟩ := Option.bind_eq_some_iff.1 h
      obtain ⟨rest, hrest, h⟩ := Option.bind_eq_some_iff.1 h
      cases h
      have hname := printStringPtr_nul string
      have hitem := printValue_nul format depth item value hvalue
      have hnext := printObject_nul format depth next rest hrest
      have hseparator : (0 : UInt8) ∉ (if next = [] then [] else [44] : Bytes) := by
        split_ifs <;> decide
      have hcolon : (0 : UInt8) ≠ 58 := by decide
      simp only [List.mem_append, List.mem_cons, hname, hitem, hnext, hseparator, hcolon,
        (spaces_nul format depth).1, (spaces_nul format 1).1, (spaces_nul format depth).2, or_self, not_false_eq_true]

end

end Terminator

variable (lib) in
mutual

/-- What was read stands for what was printed: a number that is none was printed
as null, and a missing string as an empty one. -/
def Agrees : CJSON Double → CJSON Double → Prop
  | .null, .null | .false, .false | .true, .true => True
  | .number d, .number d' => lib.finite d ∧ lib.same d' d
  | .number d, .null => ¬ lib.finite d
  | .string s, .string s' => s' = some (rereadString s)
  | .array child, .array child' => AgreesItems child child'
  | .object child, .object child' => AgreesMembers child child'
  | _, _ => False

def AgreesItems : List (CJSON Double) → List (CJSON Double) → Prop
  | [], [] => True
  | item :: next, item' :: next' => Agrees item item' ∧ AgreesItems next next'
  | _, _ => False

def AgreesMembers : List (Option CString × CJSON Double) → List (Option CString × CJSON Double) → Prop
  | [], [] => True
  | (string, item) :: next, (string', item') :: next' =>
      string' = some (rereadString string) ∧ Agrees item item' ∧ AgreesMembers next next'
  | _, _ => False

end

mutual

theorem agrees_reread (format : Bool) (depth : Nat) : ∀ (item : CJSON Double) (s : Bytes), hasRaw item = false →
    printValue lib format depth item = some s → Agrees lib item (reread clib item)
  | .invalid, s, _, h => by cases h
  | .raw _, s, hraw, _ => by cases hraw
  | .null, _, _, _ | .false, _, _, _ | .true, _, _, _ => trivial
  | .number d, s, _, h => by
      rw [reread]
      by_cases hfinite : lib.finite d
      · obtain ⟨d', hd', hsame⟩ := strtod_numberBuffer clib hfinite
        rw [if_pos hfinite, hd']
        exact ⟨hfinite, hsame⟩
      · rw [if_neg hfinite]
        exact hfinite
  | .string valuestring, s, _, h => rfl
  | .array child, s, hraw, h => by
      obtain ⟨items, hitems, -⟩ := Option.bind_eq_some_iff.1 h
      exact agreesItems_reread format (depth + 1) child items hraw hitems
  | .object child, s, hraw, h => by
      obtain ⟨members, hmembers, -⟩ := Option.bind_eq_some_iff.1 h
      exact agreesMembers_reread format (depth + 1) child members hraw hmembers

theorem agreesItems_reread (format : Bool) (depth : Nat) : ∀ (child : List (CJSON Double)) (s : Bytes),
    itemsRaw child = false → printArray lib format depth child = some s →
    AgreesItems lib child (rereadItems clib child)
  | [], _, _, _ => trivial
  | item :: next, s, hraw, h => by
      obtain ⟨value, hvalue, h⟩ := Option.bind_eq_some_iff.1 h
      obtain ⟨rest, hrest, -⟩ := Option.bind_eq_some_iff.1 h
      rw [itemsRaw, Bool.or_eq_false_iff] at hraw
      exact ⟨agrees_reread format depth item value hraw.1 hvalue,
        agreesItems_reread format depth next rest hraw.2 hrest⟩

theorem agreesMembers_reread (format : Bool) (depth : Nat) : ∀ (child : List (Option CString × CJSON Double))
    (s : Bytes), membersRaw child = false → printObject lib format depth child = some s →
    AgreesMembers lib child (rereadMembers clib child)
  | [], _, _, _ => trivial
  | (string, item) :: next, s, hraw, h => by
      obtain ⟨value, hvalue, h⟩ := Option.bind_eq_some_iff.1 h
      obtain ⟨rest, hrest, -⟩ := Option.bind_eq_some_iff.1 h
      rw [membersRaw, Bool.or_eq_false_iff] at hraw
      exact ⟨rfl, agrees_reread format depth item value hraw.1 hvalue,
        agreesMembers_reread format depth next rest hraw.2 hrest⟩

end

theorem cJSON_Parse_eq {format : Bool} {item : CJSON Double} (hraw : hasRaw item = false) {output : Bytes}
    (h : printValue lib format 0 item = some output) :
    cJSON_Parse clib output = if nesting item ≤ nestingLimit then some (reread clib item) else none := by
  have hnul := printValue_nul format 0 item output h
  have hwhole : output.takeWhile (· ≠ 0) = output := by
    rw [List.takeWhile_eq_self_iff]
    intro c hc
    have hne : c ≠ 0 := fun h => hnul (h ▸ hc)
    simpa using hne
  rw [cJSON_Parse, hwhole, skip_printValue hraw h,
    parseValue_print clib format 0 item output hraw h nestingLimit [0] (stops_cons (by decide) _)]
  split <;> rfl

theorem cJSON_Parse_agrees {format : Bool} {item : CJSON Double} (hraw : hasRaw item = false) {output : Bytes}
    (h : printValue lib format 0 item = some output) :
    (nesting item ≤ nestingLimit → ∃ item', cJSON_Parse clib output = some item' ∧ Agrees lib item item') ∧
      (nestingLimit < nesting item → cJSON_Parse clib output = none) := by
  rw [cJSON_Parse_eq clib hraw h]
  constructor
  · intro hle
    exact ⟨_, if_pos hle, agrees_reread clib format 0 item output hraw h⟩
  · intro hlt
    exact if_neg (Nat.not_le.2 hlt)

/-- What was printed is read back as deep as the parser goes, and the format it was
printed in does not matter. -/
theorem printed_read {format : Bool} {item : CJSON Double} (hraw : hasRaw item = false) {output : Bytes}
    (h : printValue lib format 0 item = some output) :
    (nesting item ≤ nestingLimit → ∃ item', Agrees lib item item' ∧
        ∀ format' output', printValue lib format' 0 item = some output' → cJSON_Parse clib output' = some item') ∧
      (nestingLimit < nesting item → cJSON_Parse clib output = none) := by
  refine ⟨fun hle => ?_, (cJSON_Parse_agrees clib hraw h).2⟩
  refine ⟨reread clib item, agrees_reread clib format 0 item output hraw h, fun format' output' h' => ?_⟩
  rw [cJSON_Parse_eq clib hraw h', if_pos hle]

mutual

/-- There is nothing that is not printed, and nothing that is printed as it is. -/
def plain : CJSON Double → Bool
  | .invalid | .raw _ => Bool.false
  | .array child => plainItems child
  | .object child => plainMembers child
  | _ => Bool.true

def plainItems : List (CJSON Double) → Bool
  | [] => Bool.true
  | item :: next => plain item && plainItems next

def plainMembers : List (Option CString × CJSON Double) → Bool
  | [] => Bool.true
  | (_, item) :: next => plain item && plainMembers next

end

mutual

theorem hasRaw_of_plain : ∀ (item : CJSON Double), plain item → hasRaw item = false
  | .invalid, h | .raw _, h => by cases h
  | .null, _ | .false, _ | .true, _ | .number _, _ | .string _, _ => rfl
  | .array child, h => itemsRaw_of_plain child h
  | .object child, h => membersRaw_of_plain child h

theorem itemsRaw_of_plain : ∀ (child : List (CJSON Double)), plainItems child → itemsRaw child = false
  | [], _ => rfl
  | item :: next, h => by
      obtain ⟨hitem, hnext⟩ := Bool.and_eq_true_iff.1 h
      exact Bool.or_eq_false_iff.2 ⟨hasRaw_of_plain item hitem, itemsRaw_of_plain next hnext⟩

theorem membersRaw_of_plain : ∀ (child : List (Option CString × CJSON Double)), plainMembers child →
    membersRaw child = false
  | [], _ => rfl
  | (_, item) :: next, h => by
      obtain ⟨hitem, hnext⟩ := Bool.and_eq_true_iff.1 h
      exact Bool.or_eq_false_iff.2 ⟨hasRaw_of_plain item hitem, membersRaw_of_plain next hnext⟩

end

variable (lib) in
def ShortNumbers : Prop := ∀ d, (numberBuffer lib d).length ≤ 25

mutual

theorem printValue_plain (hshort : ShortNumbers lib) (format : Bool) (depth : Nat) :
    ∀ (item : CJSON Double), plain item → ∃ s, printValue lib format depth item = some s
  | .invalid, h | .raw _, h => by cases h
  | .null, _ | .false, _ | .true, _ | .string _, _ => ⟨_, rfl⟩
  | .number d, _ => ⟨_, if_neg (Nat.not_lt.2 (hshort d))⟩
  | .array child, h => by
      obtain ⟨items, hitems⟩ := printArray_plain hshort format (depth + 1) child h
      exact ⟨_, by rw [printValue, hitems]; rfl⟩
  | .object child, h => by
      obtain ⟨members, hmembers⟩ := printObject_plain hshort format (depth + 1) child h
      exact ⟨_, by rw [printValue, hmembers]; rfl⟩

theorem printArray_plain (hshort : ShortNumbers lib) (format : Bool) (depth : Nat) :
    ∀ (child : List (CJSON Double)), plainItems child → ∃ s, printArray lib format depth child = some s
  | [], _ => ⟨_, rfl⟩
  | item :: next, h => by
      obtain ⟨hitem, hnext⟩ := Bool.and_eq_true_iff.1 h
      obtain ⟨value, hvalue⟩ := printValue_plain hshort format depth item hitem
      obtain ⟨rest, hrest⟩ := printArray_plain hshort format depth next hnext
      exact ⟨_, by rw [printArray, hvalue, hrest]; rfl⟩

theorem printObject_plain (hshort : ShortNumbers lib) (format : Bool) (depth : Nat) :
    ∀ (child : List (Option CString × CJSON Double)), plainMembers child → ∃ s, printObject lib format depth child = some s
  | [], _ => ⟨_, rfl⟩
  | (_, item) :: next, h => by
      obtain ⟨hitem, hnext⟩ := Bool.and_eq_true_iff.1 h
      obtain ⟨value, hvalue⟩ := printValue_plain hshort format depth item hitem
      obtain ⟨rest, hrest⟩ := printObject_plain hshort format depth next hnext
      exact ⟨_, by rw [printObject, hvalue, hrest]; rfl⟩

end

structure Plain (n : Nat) (item : CJSON Double) : Prop where
  plain : plain item
  nesting : nesting item ≤ n

theorem Plain.mono {m n : Nat} {item : CJSON Double} (h : Plain m item) (hmn : m ≤ n) : Plain n item :=
  ⟨h.plain, h.nesting.trans hmn⟩

theorem Plain.array {n : Nat} {child : List (CJSON Double)} (h : ∀ item ∈ child, Plain n item) :
    Plain (n + 1) (.array child) := by
  suffices hall : plainItems child ∧ nestingItems child ≤ n from ⟨hall.1, Nat.succ_le_succ hall.2⟩
  induction child with
  | nil => exact ⟨rfl, Nat.zero_le n⟩
  | cons item next ih =>
      have hitem := h item (by simp)
      obtain ⟨hplain, hnesting⟩ := ih fun item hmem => h item (by simp [hmem])
      exact ⟨Bool.and_eq_true_iff.2 ⟨hitem.plain, hplain⟩, Nat.max_le.2 ⟨hitem.nesting, hnesting⟩⟩

theorem Plain.object {n : Nat} {child : List (Option CString × CJSON Double)} (h : ∀ m ∈ child, Plain n m.2) :
    Plain (n + 1) (.object child) := by
  suffices hall : plainMembers child ∧ nestingMembers child ≤ n from ⟨hall.1, Nat.succ_le_succ hall.2⟩
  induction child with
  | nil => exact ⟨rfl, Nat.zero_le n⟩
  | cons m next ih =>
      have hitem := h m (by simp)
      obtain ⟨hplain, hnesting⟩ := ih fun m hmem => h m (by simp [hmem])
      exact ⟨Bool.and_eq_true_iff.2 ⟨hitem.plain, hplain⟩, Nat.max_le.2 ⟨hitem.nesting, hnesting⟩⟩

def readOneDigit (s : Bytes) : Option (Option (Fin 10) × Nat) :=
  if s.any fun c => 48 ≤ c && c ≤ 57 then some ((oneDigit.sscanf s).getD none, s.length) else none

theorem readOneDigit_le (s : Bytes) (r : Option (Fin 10) × Nat) (h : readOneDigit s = some r) :
    0 < r.2 ∧ r.2 ≤ s.length := by
  rw [readOneDigit] at h
  split at h
  · rename_i hany
    cases h
    refine ⟨List.length_pos_iff.2 ?_, le_rfl⟩
    rintro rfl
    cases hany
  · cases h

theorem readOneDigit_printed (x : Decimal) :
    ∃ d, readOneDigit (printed oneDigit.decimalPoint x) = some (d, (printed oneDigit.decimalPoint x).length) := by
  have hdigit : ∀ n, (48 ≤ digitByte n && digitByte n ≤ 57) = true := by decide
  obtain ⟨n, ds, hint⟩ := List.exists_cons_of_ne_nil x.int_ne
  refine ⟨_, if_pos (List.any_eq_true.2 ⟨digitByte n, ?_, hdigit n⟩)⟩
  rw [printed, hint]
  simp

theorem readOneDigit_digit : ∀ n, readOneDigit [digitByte n] = some (some n, 1) := by decide

theorem readOneDigit_sscanf (s : Bytes) (d : Option (Fin 10)) (h : oneDigit.sscanf s = some d) :
    ∃ n, readOneDigit s = some (d, n) := by
  obtain ⟨n, hn, rfl⟩ := Option.map_eq_some_iff.1 h
  have hs : [digitByte n] = s := of_decide_eq_true (List.find?_some (p := fun n => decide ([digitByte n] = s)) hn)
  rw [← hs, readOneDigit_digit]
  exact ⟨1, rfl⟩

theorem readOneDigit_sprintf17 (d : Option (Fin 10)) (h : oneDigit.finite d) :
    ∀ r ∈ readOneDigit (oneDigit.sprintf17 d), oneDigit.same r.1 d := by
  have hsame : ∀ n, oneDigit.same (some n) (some n) := by decide
  obtain ⟨n, rfl⟩ := Option.isSome_iff_exists.1 h
  intro r hr
  rw [show oneDigit.sprintf17 (some n) = [digitByte n] from rfl, readOneDigit_digit] at hr
  cases hr
  exact hsame n

def oneDigitStrtod : Strtod oneDigit where
  strtod := readOneDigit
  strtod_le := readOneDigit_le
  strtod_printed := readOneDigit_printed
  strtod_sscanf := readOneDigit_sscanf
  strtod_sprintf17 := readOneDigit_sprintf17

def sampleText : Bytes :=
  bytes "\x7b\"end\\n\":[7,null,\x7b\x7d],\"\":\"\\t\\\"\\u0001a" ++ [200, 34, 125]

theorem sampleText_eq : printValue oneDigit false 0 sampleReport = some sampleText := by decide

theorem printed_read_sample :
    ∃ item', Agrees oneDigit sampleReport item' ∧
      ∀ format' output', printValue oneDigit format' 0 sampleReport = some output' →
        cJSON_Parse oneDigitStrtod output' = some item' :=
  (printed_read oneDigitStrtod rfl sampleText_eq).1 (by decide)

end SberWifi.CJsonRoundTrip
