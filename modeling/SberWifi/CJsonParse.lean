import Mathlib.Data.List.TakeWhile
import SberWifi.CJsonPrint

namespace SberWifi.CJsonParse

open CJsonPrint JsonRules

/-- What the parser uses of the C library besides. `strtod` gives the number and
how many bytes it took. It takes a printed number whole, and reads what `sscanf`
reads; 17 digits fix a double. -/
structure Strtod {Double : Type} (lib : CLib Double) where
  strtod : Bytes → Option (Double × Nat)
  strtod_le : ∀ s r, strtod s = some r → 0 < r.2 ∧ r.2 ≤ s.length
  strtod_printed : ∀ x, ∃ d,
    strtod (printed lib.decimalPoint x) = some (d, (printed lib.decimalPoint x).length)
  strtod_sscanf : ∀ s d, lib.sscanf s = some d → ∃ n, strtod s = some (d, n)
  strtod_sprintf17 : ∀ d, lib.finite d → ∀ r ∈ strtod (lib.sprintf17 d), lib.same r.1 d

def bufferSkipWhitespace (s : Bytes) : Bytes :=
  match s.dropWhile (· ≤ 32) with
  | [] => [0]
  | s => s

section Strings

def hexValue (c : UInt8) : Option Nat :=
  if 48 ≤ c ∧ c ≤ 57 then some (c.toNat - 48)
  else if 65 ≤ c ∧ c ≤ 70 then some (10 + c.toNat - 65)
  else if 97 ≤ c ∧ c ≤ 102 then some (10 + c.toNat - 97)
  else none

/-- A digit that is none makes the whole number 0. -/
def parseHex4 (a b c d : UInt8) : Nat :=
  match hexValue a, hexValue b, hexValue c, hexValue d with
  | some a, some b, some c, some d => ((a * 16 + b) * 16 + c) * 16 + d
  | _, _, _, _ => 0

/-- The end of `utf16_literal_to_utf8`. -/
def encodeUtf8 (codepoint : Nat) : Bytes :=
  let continuation (n : Nat) : UInt8 := 128 + (n % 64).toUInt8
  if codepoint < 0x80 then [codepoint.toUInt8]
  else if codepoint < 0x800 then [192 + (codepoint / 64).toUInt8, continuation codepoint]
  else if codepoint < 0x10000 then
    [224 + (codepoint / 4096).toUInt8, continuation (codepoint / 64), continuation codepoint]
  else
    [240 + (codepoint / 262144).toUInt8, continuation (codepoint / 4096), continuation (codepoint / 64),
      continuation codepoint]

def unescapeByte (c : UInt8) : Option UInt8 :=
  if c = 98 then some 8
  else if c = 102 then some 12
  else if c = 110 then some 10
  else if c = 114 then some 13
  else if c = 116 then some 9
  else if c = 34 ∨ c = 92 ∨ c = 47 then some c
  else none

/-- The first loop of `parse_string`, from the byte after the opening quote: what
stands before the closing quote, and behind it. -/
def closingQuote : Bytes → Option (Bytes × Bytes)
  | [] => none
  | c :: s =>
      if c = 34 then some ([], s)
      else if c = 92 then
        match s with
        | [] => none
        | e :: s => (closingQuote s).map (Prod.map (fun literal => 92 :: e :: literal) id)
      else (closingQuote s).map (Prod.map (c :: ·) id)

/-- The second loop of `parse_string`. A literal may only end in a backslash when
an invalid UTF-16 literal has taken the one before it; the closing quote is then
read as the escaped byte. -/
def unescapeLiteral : Bytes → Option Bytes
  | [] => some []
  | c :: s =>
      if c ≠ 92 then (unescapeLiteral s).map (c :: ·)
      else
        match s with
        | [] => some [34]
        | e :: s =>
            if e = 117 then
              match s with
              | a :: b :: c :: d :: s =>
                  let firstCode := parseHex4 a b c d
                  if 0xDC00 ≤ firstCode ∧ firstCode ≤ 0xDFFF then none
                  else if 0xD800 ≤ firstCode ∧ firstCode ≤ 0xDBFF then
                    match s with
                    | 92 :: 117 :: a :: b :: c :: d :: s =>
                        let secondCode := parseHex4 a b c d
                        if secondCode < 0xDC00 ∨ secondCode > 0xDFFF then none
                        else (unescapeLiteral s).map
                          (encodeUtf8 (0x10000 + (firstCode % 1024 * 1024 + secondCode % 1024)) ++ ·)
                    | _ => none
                  else (unescapeLiteral s).map (encodeUtf8 firstCode ++ ·)
              | _ => none
            else (unescapeByte e).bind fun b => (unescapeLiteral s).map (b :: ·)

theorem zero_notMem_takeWhile (output : Bytes) : 0 ∉ output.takeWhile (· ≠ 0) := by
  intro h
  simpa using List.mem_takeWhile_imp h

def terminated (output : Bytes) : CString := ⟨output.takeWhile (· ≠ 0), zero_notMem_takeWhile output⟩

def parseString : Bytes → Option (CString × Bytes)
  | 34 :: s => do
      let (literal, rest) ← closingQuote s
      let output ← unescapeLiteral literal
      some (terminated output, rest)
  | _ => none

end Strings

variable {Double : Type} {lib : CLib Double} (clib : Strtod lib)

variable (lib) in
/-- The start of `parse_number`: the bytes that are copied for `strtod`. -/
def numberString (s : Bytes) : Bytes :=
  ((s.take 63).takeWhile (· ∈ bytes "0123456789+-eE.")).map fun c => if c = 46 then lib.decimalPoint else c

def parseNumber (s : Bytes) : Option (CJSON Double × Bytes) :=
  (clib.strtod (numberString lib s)).map fun (number, length) => (.number number, s.drop length)

/-- The loops of `parse_array` and `parse_object`, from before an element on. -/
def parseElements {α : Type} (parse : Bytes → Option (α × Bytes)) (close : UInt8) :
    Nat → Bytes → Option (List α × Bytes)
  | 0, _ => none
  | n + 1, s => do
      let (element, s) ← parse (bufferSkipWhitespace s)
      match bufferSkipWhitespace s with
      | 44 :: s => (parseElements parse close n s).map (Prod.map (element :: ·) id)
      | c :: s => if c = close then some ([element], s) else none
      | [] => none

/-- What `parse_array` and `parse_object` do behind the opening bracket. -/
def parseChild {α : Type} (parse : Bytes → Option (α × Bytes)) (close : UInt8) (s : Bytes) :
    Option (List α × Bytes) :=
  match bufferSkipWhitespace s with
  | [] => none
  | c :: rest => if c = close then some ([], rest) else parseElements parse close (c :: rest).length (c :: rest)

def parseMember (parse : Bytes → Option (CJSON Double × Bytes)) (s : Bytes) :
    Option ((Option CString × CJSON Double) × Bytes) := do
  let (string, s) ← parseString s
  match bufferSkipWhitespace s with
  | 58 :: s => do
      let (item, s) ← parse (bufferSkipWhitespace s)
      some ((some string, item), s)
  | _ => none

/-- The number says how many brackets may still be opened. -/
def parseValue (depth : Nat) (s : Bytes) : Option (CJSON Double × Bytes) :=
  if bytes "null" <+: s then some (.null, s.drop 4)
  else if bytes "false" <+: s then some (.false, s.drop 5)
  else if bytes "true" <+: s then some (.true, s.drop 4)
  else
    match s with
    | [] => none
    | c :: rest =>
        if c = 34 then (parseString s).map (Prod.map (fun string => .string (some string)) id)
        else if c = 45 ∨ 48 ≤ c ∧ c ≤ 57 then parseNumber clib s
        else
          match depth with
          | 0 => none
          | depth + 1 =>
              if c = 91 then (parseChild (parseValue depth) 93 rest).map (Prod.map .array id)
              else if c = 123 then
                (parseChild (parseMember (parseValue depth)) 125 rest).map (Prod.map .object id)
              else none

def nestingLimit : Nat := 1000

def cJSON_Parse (value : Bytes) : Option (CJSON Double) :=
  (parseValue clib nestingLimit (bufferSkipWhitespace (value.takeWhile (· ≠ 0) ++ [0]))).map Prod.fst

section Fuel

theorem skip_length {s : Bytes} (hs : s ≠ []) : (bufferSkipWhitespace s).length ≤ s.length := by
  rw [bufferSkipWhitespace]
  cases hdrop : s.dropWhile (· ≤ 32) with
  | nil => exact List.length_pos_iff.2 hs
  | cons c t =>
      dsimp only
      rw [← hdrop]
      exact (List.dropWhile_sublist _).length_le

theorem skip_length_succ (s : Bytes) : (bufferSkipWhitespace s).length ≤ s.length + 1 := by
  by_cases hs : s = []
  · rw [hs]
    rfl
  · exact (skip_length hs).trans (Nat.le_succ _)

theorem skip_pos (s : Bytes) : 0 < (bufferSkipWhitespace s).length := by
  rw [bufferSkipWhitespace]
  split
  · exact Nat.one_pos
  · rename_i hne
    exact List.length_pos_iff.2 hne

theorem skip_visible {c : UInt8} (hc : 32 < c) (s : Bytes) : bufferSkipWhitespace (c :: s) = c :: s := by
  have hstop : ¬ c ≤ 32 := UInt8.not_le.2 hc
  rw [bufferSkipWhitespace, List.dropWhile_cons_of_neg (by simpa using hstop)]

theorem skip_idem (s : Bytes) : bufferSkipWhitespace (bufferSkipWhitespace s) = bufferSkipWhitespace s := by
  have hcases : bufferSkipWhitespace s = [0] ∨ ∃ c t, bufferSkipWhitespace s = c :: t ∧ 32 < c := by
    rw [bufferSkipWhitespace]
    cases hdrop : s.dropWhile (· ≤ 32) with
    | nil => exact .inl rfl
    | cons c t =>
        have hc := List.head?_dropWhile_not (fun b : UInt8 => decide (b ≤ 32)) s
        rw [hdrop] at hc
        exact .inr ⟨c, t, rfl, by simpa using hc⟩
  rcases hcases with h | ⟨c, t, h, hc⟩
  · rw [h]
    rfl
  · rw [h, skip_visible hc]

theorem skip_cons_length {s t : Bytes} {c : UInt8} (h : bufferSkipWhitespace s = c :: t) (hc : c ≠ 0) :
    t.length < s.length := by
  by_cases hs : s = []
  · rw [hs] at h
    cases h
    exact (hc rfl).elim
  · have hle := skip_length hs
    rw [h] at hle
    exact hle

theorem closingQuote_shrinks {s : Bytes} {r : Bytes × Bytes} (h : closingQuote s = some r) :
    r.2.length < s.length := by
  induction s using closingQuote.induct generalizing r with
  | case1 => cases h
  | case2 s =>
      rw [closingQuote.eq_def] at h
      cases (if_pos rfl).symm.trans h
      exact Nat.lt_succ_self _
  | case3 => cases h
  | case4 e s _ ih =>
      obtain ⟨r', hr', rfl⟩ := Option.map_eq_some_iff.1 h
      have hlt := ih hr'
      simp only [Prod.map_snd, id_eq, List.length_cons]
      omega
  | case5 c s hquote hslash ih =>
      rw [closingQuote.eq_def] at h
      dsimp only at h
      rw [if_neg hquote, if_neg hslash] at h
      obtain ⟨r', hr', rfl⟩ := Option.map_eq_some_iff.1 h
      have hlt := ih hr'
      simp only [Prod.map_snd, id_eq, List.length_cons]
      omega

theorem parseString_shrinks {s : Bytes} {r : CString × Bytes} (h : parseString s = some r) :
    r.2.length < s.length := by
  rw [parseString.eq_def] at h
  split at h
  · obtain ⟨⟨literal, rest⟩, hquote, h⟩ := Option.bind_eq_some_iff.1 h
    obtain ⟨output, -, h⟩ := Option.bind_eq_some_iff.1 h
    cases h
    exact (closingQuote_shrinks hquote).trans (Nat.lt_succ_self _)
  · cases h

theorem parseNumber_shrinks {s : Bytes} {r : CJSON Double × Bytes} (h : parseNumber clib s = some r) :
    r.2.length < s.length := by
  obtain ⟨⟨number, length⟩, hstrtod, rfl⟩ := Option.map_eq_some_iff.1 h
  obtain ⟨hpos, hle⟩ := clib.strtod_le _ _ hstrtod
  have hcopied : (numberString lib s).length ≤ s.length := by
    rw [numberString, List.length_map]
    exact (List.takeWhile_sublist _).length_le.trans (List.length_take_le' _ _)
  simp only [List.length_drop]
  omega

section Loops

variable {α : Type} {parse : Bytes → Option (α × Bytes)} (hparse : ∀ s r, parse s = some r → r.2.length < s.length)
include hparse

theorem parseElements_shrinks {close : UInt8} (hclose : close ≠ 0) {n : Nat} {s : Bytes} {r : List α × Bytes}
    (h : parseElements parse close n s = some r) : r.2.length < (bufferSkipWhitespace s).length := by
  induction n generalizing s r with
  | zero => cases h
  | succ n ih =>
      rw [parseElements] at h
      obtain ⟨⟨element, s'⟩, helement, h⟩ := Option.bind_eq_some_iff.1 h
      have hlt := hparse _ _ helement
      dsimp only at h hlt
      split at h
      · rename_i t hcomma
        obtain ⟨r', hr', rfl⟩ := Option.map_eq_some_iff.1 h
        have hrest := ih hr'
        have ht := skip_cons_length hcomma (by decide)
        have hle := skip_length_succ t
        simp only [Prod.map_snd, id_eq]
        omega
      · rename_i c t _ hskip
        split at h
        · rename_i hc
          cases h
          exact (skip_cons_length hskip (hc ▸ hclose)).trans hlt
        · cases h
      · cases h

/-- The loops never run out of fuel: they take at least one byte a round. -/
theorem parseElements_enough {close : UInt8} {n m : Nat} {s : Bytes} (hn : (bufferSkipWhitespace s).length ≤ n)
    (hm : (bufferSkipWhitespace s).length ≤ m) : parseElements parse close n s = parseElements parse close m s := by
  induction n generalizing m s with
  | zero => exact absurd hn (Nat.not_le.2 (skip_pos s))
  | succ n ih =>
      obtain ⟨m, rfl⟩ := Nat.exists_eq_add_one.2 ((skip_pos s).trans_le hm)
      rw [parseElements, parseElements]
      cases helement : parse (bufferSkipWhitespace s) with
      | none => rfl
      | some r =>
          obtain ⟨element, s'⟩ := r
          have hlt := hparse _ _ helement
          simp only [Option.bind_eq_bind, Option.bind_some]
          dsimp only at hlt
          split
          · rename_i t hcomma
            have ht := skip_cons_length hcomma (by decide)
            have hle := skip_length_succ t
            rw [ih (m := m) (by omega) (by omega)]
          · rfl
          · rfl

end Loops

theorem parseChild_shrinks {α : Type} {parse : Bytes → Option (α × Bytes)}
    (hparse : ∀ s r, parse s = some r → r.2.length < s.length) {close : UInt8} (hclose : close ≠ 0) {s : Bytes}
    {r : List α × Bytes} (h : parseChild parse close s = some r) : r.2.length < s.length + 1 := by
  rw [parseChild] at h
  cases hskip : bufferSkipWhitespace s with
  | nil =>
      rw [hskip] at h
      cases h
  | cons c t =>
      rw [hskip] at h
      dsimp only at h
      split at h
      · rename_i hc
        cases h
        exact (skip_cons_length hskip (hc ▸ hclose)).trans (Nat.lt_succ_self _)
      · rw [← hskip] at h
        exact (parseElements_shrinks hparse hclose h).trans_le
          ((congrArg List.length (skip_idem s)).le.trans (skip_length_succ s))

theorem parseMember_shrinks {parse : Bytes → Option (CJSON Double × Bytes)}
    (hparse : ∀ s r, parse s = some r → r.2.length < s.length) (s : Bytes)
    (r : (Option CString × CJSON Double) × Bytes) (h : parseMember parse s = some r) : r.2.length < s.length := by
  obtain ⟨⟨string, s'⟩, hname, h⟩ := Option.bind_eq_some_iff.1 h
  have hlt := parseString_shrinks hname
  dsimp only at h hlt
  split at h
  · rename_i t hcolon
    obtain ⟨⟨item, rest⟩, hitem, h⟩ := Option.bind_eq_some_iff.1 h
    cases h
    have hrest := hparse _ _ hitem
    have ht := skip_cons_length hcolon (by decide)
    have hle := skip_length_succ t
    dsimp only at hrest ⊢
    omega
  · cases h

theorem literal_shrinks {s t : Bytes} (hpos : 0 < t.length) (hstart : t <+: s) :
    (s.drop t.length).length < s.length := by
  have hle := hstart.length_le
  rw [List.length_drop]
  omega

theorem parseValue_shrinks (depth : Nat) (s : Bytes) (r : CJSON Double × Bytes)
    (h : parseValue clib depth s = some r) : r.2.length < s.length := by
  induction depth using Nat.strong_induction_on generalizing s r with
  | h depth ih =>
      rw [parseValue.eq_def] at h
      split at h
      · rename_i hstart
        cases h
        exact literal_shrinks (t := bytes "null") (by decide) hstart
      split at h
      · rename_i hstart
        cases h
        exact literal_shrinks (t := bytes "false") (by decide) hstart
      split at h
      · rename_i hstart
        cases h
        exact literal_shrinks (t := bytes "true") (by decide) hstart
      split at h
      · cases h
      split at h
      · obtain ⟨r', hstring, rfl⟩ := Option.map_eq_some_iff.1 h
        exact parseString_shrinks hstring
      split at h
      · exact parseNumber_shrinks clib h
      split at h
      · cases h
      · rename_i depth
        have hvalue := ih depth (Nat.lt_succ_self depth)
        split at h
        · obtain ⟨r', hchild, rfl⟩ := Option.map_eq_some_iff.1 h
          exact parseChild_shrinks hvalue (by decide) hchild
        split at h
        · obtain ⟨r', hchild, rfl⟩ := Option.map_eq_some_iff.1 h
          exact parseChild_shrinks (parseMember_shrinks hvalue) (by decide) hchild
        · cases h

/-- More fuel changes nothing that an array or an object is read as. -/
theorem parse_enough (depth : Nat) {n m : Nat} {s : Bytes} (hn : (bufferSkipWhitespace s).length ≤ n)
    (hm : (bufferSkipWhitespace s).length ≤ m) :
    parseElements (parseValue clib depth) 93 n s = parseElements (parseValue clib depth) 93 m s ∧
      parseElements (parseMember (parseValue clib depth)) 125 n s =
        parseElements (parseMember (parseValue clib depth)) 125 m s :=
  ⟨parseElements_enough (parseValue_shrinks clib depth) hn hm,
    parseElements_enough (parseMember_shrinks (parseValue_shrinks clib depth)) hn hm⟩

end Fuel

end SberWifi.CJsonParse
