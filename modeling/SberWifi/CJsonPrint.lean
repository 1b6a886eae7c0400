import SberWifi.JsonRules

namespace SberWifi.CJsonPrint

open JavaString JsonTokens JsonText JsonRules

abbrev Bytes := List UInt8

/-- A string literal of the C source. All of them are ASCII. -/
def bytes (s : String) : Bytes := s.toList.map fun c => c.val.toUInt8

/-- A text that is read byte by byte. The bytes of a longer UTF-8 sequence only
stand in strings, which keep them. -/
def units (s : Bytes) : JString := s.map UInt8.toUInt16

@[simp] theorem units_cons (c : UInt8) (s : Bytes) : units (c :: s) = c.toUInt16 :: units s := rfl

@[simp] theorem units_append (s t : Bytes) : units (s ++ t) = units s ++ units t := List.map_append

/-- A `char *` up to its terminator. -/
structure CString where
  bytes : Bytes
  nul_free : 0 ∉ bytes

def digitByte (d : Fin 10) : UInt8 := 48 + d.val.toUInt8

section Printf

variable (decimalPoint : UInt8) (x : Decimal)

def signBytes : Bytes := if x.negative then [45] else []

def fractionBytes : Bytes := if x.fraction = [] then [] else decimalPoint :: x.fraction.map digitByte

def exponentBytes : Bytes :=
  match x.exponent with
  | none => []
  | some (negative, digits) => 101 :: (if negative then 45 else 43) :: digits.map digitByte

def printed : Bytes :=
  signBytes x ++ (x.int.map digitByte ++ (fractionBytes decimalPoint x ++ exponentBytes x))

end Printf

/-- What the printer uses of the C library: doubles, the formats `%1.15g`,
`%1.17g` and `%lg`, and the decimal point of the locale. Only for doubles that
are neither NaN nor infinite is it fixed that a decimal number is printed. The
decimal point is no other character of a number, and none of null. -/
structure CLib (Double : Type) where
  finite : Double → Bool
  same : Double → Double → Bool
  decimalPoint : UInt8
  sprintf15 : Double → Bytes
  sprintf17 : Double → Bytes
  sscanf : Bytes → Option Double
  decimalPoint_free : decimalPoint ∉ bytes "+-0123456789enul"
  sprintf15_finite : ∀ d, finite d → ∃ x, sprintf15 d = printed decimalPoint x
  sprintf17_finite : ∀ d, finite d → ∃ x, sprintf17 d = printed decimalPoint x

/-- The items that `print_value` tells apart. A string may be missing. -/
inductive CJSON (Double : Type)
  | invalid
  | null
  | false
  | true
  | number (valuedouble : Double)
  | raw (valuestring : Option CString)
  | string (valuestring : Option CString)
  | array (child : List (CJSON Double))
  | object (child : List (Option CString × CJSON Double))

section Strings

def escapeLength (c : UInt8) : Nat :=
  if c = 34 ∨ c = 92 ∨ c = 8 ∨ c = 12 ∨ c = 10 ∨ c = 13 ∨ c = 9 then 1
  else if c < 32 then 5
  else 0

def escapeCharacters : Bytes → Nat
  | [] => 0
  | c :: input => escapeLength c + escapeCharacters input

def hexByte (n : UInt8) : UInt8 := if n < 10 then 48 + n else 87 + n

def escape (c : UInt8) : Bytes :=
  if 31 < c ∧ c ≠ 34 ∧ c ≠ 92 then [c]
  else 92 ::
    if c = 92 then [92]
    else if c = 34 then [34]
    else if c = 8 then [98]
    else if c = 12 then [102]
    else if c = 10 then [110]
    else if c = 13 then [114]
    else if c = 9 then [116]
    else [117, 48, 48, hexByte (c / 16), hexByte (c % 16)]

def stringBytes (s : Option CString) : Bytes := s.elim [] CString.bytes

theorem hexByte_control : ∀ n < 32, 31 < hexByte (UInt8.ofNat n / 16) ∧ 31 < hexByte (UInt8.ofNat n % 16) ∧
    hexUnit 48 48 (hexByte (UInt8.ofNat n / 16)).toUInt16 (hexByte (UInt8.ofNat n % 16)).toUInt16 =
      some (UInt8.ofNat n).toUInt16 := by decide

/-- A byte is copied, or gets an escape of one character, or one of four digits. -/
theorem escape_cases (c : UInt8) :
    (escape c = [c] ∧ escapeLength c = 0 ∧ 31 < c ∧ c ≠ 34 ∧ c ≠ 92) ∨
    (∃ e, escape c = [92, e] ∧ escapeLength c = 1 ∧ 31 < e ∧ e.toUInt16 ≠ 117 ∧
      unescape e.toUInt16 = some c.toUInt16) ∨
    (∃ hi lo, escape c = [92, 117, 48, 48, hi, lo] ∧ escapeLength c = 5 ∧ 31 < hi ∧ 31 < lo ∧
      hexUnit 48 48 hi.toUInt16 lo.toUInt16 = some c.toUInt16) := by
  by_cases hplain : 31 < c ∧ c ≠ 34 ∧ c ≠ 92
  · left
    refine ⟨if_pos hplain, ?_, hplain⟩
    rw [escapeLength, if_neg, if_neg]
    · have hc := UInt8.lt_iff_toNat_lt.1 hplain.1
      rw [UInt8.lt_iff_toNat_lt]
      exact Nat.not_lt.2 hc
    · rintro (rfl | rfl | rfl | rfl | rfl | rfl | rfl)
      · exact hplain.2.1 rfl
      · exact hplain.2.2 rfl
      all_goals exact absurd hplain.1 (by decide)
  right
  by_cases hescape : c = 34 ∨ c = 92 ∨ c = 8 ∨ c = 12 ∨ c = 10 ∨ c = 13 ∨ c = 9
  · left
    rcases hescape with rfl | rfl | rfl | rfl | rfl | rfl | rfl <;>
      exact ⟨_, rfl, rfl, by decide, by decide, rfl⟩
  · right
    have hcontrol : c.toNat < 32 := by
      by_contra hge
      apply hplain
      refine ⟨UInt8.lt_iff_toNat_lt.2 (Nat.not_lt.1 hge), ?_, ?_⟩
      · exact fun h => hescape (.inl h)
      · exact fun h => hescape (.inr (.inl h))
    have hhex := hexByte_control _ hcontrol
    rw [UInt8.ofNat_toNat] at hhex
    refine ⟨_, _, ?_, ?_, hhex⟩
    · simp only [not_or] at hescape
      obtain ⟨h34, h92, h8, h12, h10, h13, h9⟩ := hescape
      rw [escape, if_neg hplain, if_neg h92, if_neg h34, if_neg h8, if_neg h12, if_neg h10, if_neg h13,
        if_neg h9]
    · rw [escapeLength, if_neg hescape, if_pos (UInt8.lt_iff_toNat_lt.2 hcontrol)]

theorem escape_length (c : UInt8) : (escape c).length = 1 + escapeLength c := by
  rcases escape_cases c with ⟨h, hcount, -⟩ | ⟨_, h, hcount, -⟩ | ⟨_, _, h, hcount, -⟩ <;>
    rw [h, hcount] <;> rfl

theorem escape_visible (c : UInt8) : ∀ b ∈ escape c, 31 < b := by
  intro b hb
  rcases escape_cases c with ⟨h, -, hc, -⟩ | ⟨e, h, -, he, -⟩ | ⟨hi, lo, h, -, hhi, hlo, -⟩
  · rw [h, List.mem_singleton] at hb
    rwa [hb]
  · rw [h, List.mem_cons, List.mem_singleton] at hb
    rcases hb with rfl | rfl
    · decide
    · exact he
  · rw [h] at hb
    simp only [List.mem_cons, List.not_mem_nil, or_false] at hb
    rcases hb with rfl | rfl | rfl | rfl | rfl | rfl
    any_goals decide
    · exact hhi
    · exact hlo

/-- The closing quote is put where the counted escapes say that the string ends. -/
def printStringPtr : Option CString → Bytes
  | none => [34, 34]
  | some ⟨input, _⟩ =>
      if escapeCharacters input = 0 then 34 :: (input ++ [34])
      else (34 :: input.flatMap escape).take (input.length + escapeCharacters input + 1) ++ [34]

theorem flatMap_escape_length (input : Bytes) :
    (input.flatMap escape).length = input.length + escapeCharacters input := by
  induction input with
  | nil => rfl
  | cons c input ih =>
      rw [List.flatMap_cons, List.length_append, escape_length, ih, escapeCharacters, List.length_cons]
      omega

theorem flatMap_escape_self {input : Bytes} (h : escapeCharacters input = 0) :
    input.flatMap escape = input := by
  induction input with
  | nil => rfl
  | cons c input ih =>
      rw [escapeCharacters, Nat.add_eq_zero_iff] at h
      rcases escape_cases c with ⟨hc, -⟩ | ⟨_, -, hcount, -⟩ | ⟨_, _, -, hcount, -⟩
      · rw [List.flatMap_cons, hc, ih h.2]
        rfl
      · rw [hcount] at h
        cases h.1
      · rw [hcount] at h
        cases h.1

/-- The counted escapes leave room for exactly the escaped text. -/
theorem printStringPtr_eq (s : Option CString) :
    printStringPtr s = 34 :: ((stringBytes s).flatMap escape ++ [34]) := by
  match s with
  | none => rfl
  | some ⟨input, _⟩ =>
      rw [printStringPtr]
      by_cases hnone : escapeCharacters input = 0
      · rw [if_pos hnone, stringBytes, Option.elim_some, flatMap_escape_self hnone]
      · have hlength : (34 :: input.flatMap escape).length =
            input.length + escapeCharacters input + 1 := by
          rw [List.length_cons, flatMap_escape_length]
        rw [if_neg hnone, ← hlength, List.take_length]
        rfl

theorem toUInt16_ne {c d : UInt8} (h : c ≠ d) : c.toUInt16 ≠ d.toUInt16 := by
  intro he
  apply h
  rw [← UInt8.toUInt8_toUInt16 c, he, UInt8.toUInt8_toUInt16]

/-- Every byte of a string, however it was printed, is read back as itself. -/
theorem encodes_escape (s : Bytes) : Encodes (units (s.flatMap escape)) (units s) := by
  induction s with
  | nil => exact encodes_nil
  | cons c s ih =>
      rw [List.flatMap_cons]
      rcases escape_cases c with ⟨h, -, hc, hquote, hescape⟩ | ⟨e, h, -, -, he, hu⟩ | ⟨hi, lo, h, -, -, -, hu⟩
      · rw [h]
        refine ih.unit (toUInt16_ne hquote) (toUInt16_ne hescape) ?_
        rw [UInt16.lt_iff_toNat_lt, UInt8.toNat_toUInt16]
        exact Nat.not_lt.2 (UInt8.lt_iff_toNat_lt.1 hc)
      · rw [h]
        exact ih.escape he hu
      · rw [h]
        exact ih.unicode hu

end Strings

variable {Double : Type} (lib : CLib Double)

def replacePoint (decimalPoint : UInt8) (s : Bytes) : Bytes :=
  s.map fun c => if c = decimalPoint then 46 else c

def numberBuffer (d : Double) : Bytes :=
  if !lib.finite d then bytes "null"
  else if (lib.sscanf (lib.sprintf15 d)).any fun test => lib.same test d then lib.sprintf15 d
  else lib.sprintf17 d

/-- The number buffer has room for 25 characters. -/
def printNumber (d : Double) : Option Bytes :=
  if (numberBuffer lib d).length > 25 then none
  else some (replacePoint lib.decimalPoint (numberBuffer lib d))

section Numbers

def denoteNumber (d : Double) : Json :=
  if lib.finite d then .number (units ((printNumber lib d).getD [])) else .null

variable {p : UInt8} (hp : p ∉ bytes "+-0123456789enul")
include hp

theorem replacePoint_cons {c : UInt8} (hc : c ∈ bytes "+-0123456789enul") (s : Bytes) :
    replacePoint p (c :: s) = c :: replacePoint p s := by
  have hne : c ≠ p := fun h => hp (h ▸ hc)
  rw [replacePoint, List.map_cons, if_neg hne, replacePoint]

theorem replacePoint_digits (ds : List (Fin 10)) :
    units (replacePoint p (ds.map digitByte)) = ds.map digit := by
  have hdigit : ∀ d, digitByte d ∈ bytes "+-0123456789enul" := by decide
  have hunit : ∀ d, (digitByte d).toUInt16 = digit d := by decide
  induction ds with
  | nil => rfl
  | cons d ds ih => rw [List.map_cons, replacePoint_cons hp (hdigit d), units_cons, ih, hunit, List.map_cons]

theorem units_sign (x : Decimal) : units (replacePoint p (signBytes x)) = x.signToken := by
  rw [signBytes, Decimal.signToken]
  cases x.negative with
  | false => rfl
  | true => exact congrArg units (replacePoint_cons hp (by decide) [])

theorem units_fraction (x : Decimal) : units (replacePoint p (fractionBytes p x)) = x.fractionToken := by
  rw [fractionBytes, Decimal.fractionToken]
  by_cases hf : x.fraction = []
  · rw [if_pos hf, if_pos hf]
    rfl
  · have hdigits := replacePoint_digits hp x.fraction
    rw [if_neg hf, if_neg hf, ← hdigits, replacePoint, List.map_cons, if_pos rfl]
    rfl

theorem units_exponent (x : Decimal) : units (replacePoint p (exponentBytes x)) = x.exponentToken := by
  rw [exponentBytes, Decimal.exponentToken]
  cases x.exponent with
  | none => rfl
  | some e =>
      obtain ⟨negative, digits⟩ := e
      dsimp only
      rw [← replacePoint_digits hp digits, replacePoint_cons hp (by decide), replacePoint_cons hp]
      · cases negative <;> rfl
      · cases negative <;> decide

theorem units_printed (x : Decimal) : units (replacePoint p (printed p x)) = x.token := by
  have happend (s t : Bytes) : units (replacePoint p (s ++ t)) =
      units (replacePoint p s) ++ units (replacePoint p t) := by
    rw [replacePoint, List.map_append, units_append]
    rfl
  rw [printed, happend, happend, happend, units_sign hp, replacePoint_digits hp, units_fraction hp,
    units_exponent hp, Decimal.token]

theorem replacePoint_null : replacePoint p (bytes "null") = bytes "null" := by
  have hnull : bytes "null" = [110, 117, 108, 108] := rfl
  rw [hnull, replacePoint_cons hp (by decide), replacePoint_cons hp (by decide),
    replacePoint_cons hp (by decide), replacePoint_cons hp (by decide)]
  rfl

omit hp

theorem numberBuffer_finite {d : Double} (h : lib.finite d) :
    ∃ x, numberBuffer lib d = printed lib.decimalPoint x := by
  rw [numberBuffer, h, if_neg (by decide)]
  by_cases hprecise : (lib.sscanf (lib.sprintf15 d)).any fun test => lib.same test d
  · rw [if_pos hprecise]
    exact lib.sprintf15_finite d h
  · rw [if_neg hprecise]
    exact lib.sprintf17_finite d h

/-- A number is printed as one JSON number, and what is not a number as null. -/
theorem printNumber_cases {d : Double} {s : Bytes} (h : printNumber lib d = some s) :
    (isNumber (units s) ∧ denoteNumber lib d = .number (units s)) ∨
      (s = bytes "null" ∧ denoteNumber lib d = .null) := by
  have hs : s = replacePoint lib.decimalPoint (numberBuffer lib d) := by
    rw [printNumber] at h
    split at h
    · cases h
    · exact (Option.some_inj.1 h).symm
  rw [denoteNumber, h]
  by_cases hfinite : lib.finite d
  · left
    obtain ⟨x, hx⟩ := numberBuffer_finite lib hfinite
    refine ⟨?_, if_pos hfinite⟩
    rw [hs, hx, units_printed lib.decimalPoint_free]
    exact isNumber_token x
  · right
    refine ⟨?_, if_neg hfinite⟩
    rw [Bool.not_eq_true] at hfinite
    rw [hs, numberBuffer, hfinite, Bool.not_false, if_pos rfl, replacePoint_null lib.decimalPoint_free]

end Numbers

variable (format : Bool)

def tabs (depth : Nat) : Bytes := if format then List.replicate depth 9 else []

def newline : Bytes := if format then [10] else []

mutual

/-- `print_value`, with what `print_array` and `print_object` put around their
loops. The result is `none` when the printer gives up. -/
def printValue (depth : Nat) : CJSON Double → Option Bytes
  | .invalid => none
  | .null => some (bytes "null")
  | .false => some (bytes "false")
  | .true => some (bytes "true")
  | .number d => printNumber lib d
  | .raw valuestring => valuestring.map CString.bytes
  | .string valuestring => some (printStringPtr valuestring)
  | .array child => do
      let items ← printArray (depth + 1) child
      some (91 :: (items ++ [93]))
  | .object child => do
      let members ← printObject (depth + 1) child
      some (123 :: (newline format ++ (members ++ (tabs format depth ++ [125]))))

def printArray (depth : Nat) : List (CJSON Double) → Option Bytes
  | [] => some []
  | item :: next => do
      let value ← printValue depth item
      let rest ← printArray depth next
      some (value ++ ((if next = [] then [] else if format then [44, 32] else [44]) ++ rest))

def printObject (depth : Nat) : List (Option CString × CJSON Double) → Option Bytes
  | [] => some []
  | (string, item) :: next => do
      let value ← printValue depth item
      let rest ← printObject depth next
      some (tabs format depth ++ (printStringPtr string ++ (58 :: (tabs format 1 ++ (value ++
        ((if next = [] then [] else [44]) ++ (newline format ++ rest)))))))

end

def cJSON_Print (item : CJSON Double) : Option Bytes := printValue lib true 0 item

structure Test (Double : Type) where
  title : Option CString
  extraData : Option CString
  jsonServerOutput : Option (CJSON Double)
  serverOutputText : Option CString
  jsonTop : List (Option CString × CJSON Double)

def Test.added (test : Test Double) : List (Option CString × CJSON Double) :=
  (test.title.map fun s => (some ⟨bytes "title", by decide⟩, .string s)).toList ++
  (test.extraData.map fun s => (some ⟨bytes "extra_data", by decide⟩, .string s)).toList ++
  (test.jsonServerOutput.map fun item => (some ⟨bytes "server_output_json", by decide⟩, item)).toList ++
  (test.serverOutputText.map fun s => (some ⟨bytes "server_output_text", by decide⟩, .string s)).toList

def iperfJsonFinish (test : Test Double) : Option Bytes :=
  cJSON_Print lib (.object (test.jsonTop ++ test.added))

def printStatistics (jsonOutputString : Option Bytes) : Option Bytes :=
  jsonOutputString.map fun output => (output.filter (· ≠ 10)).filter (· ≠ 9)

mutual

/-- The tree that an item stands for. An item that is invalid or raw stands for none. -/
def denote : CJSON Double → Json
  | .invalid | .raw _ | .null => .null
  | .false => .bool Bool.false
  | .true => .bool Bool.true
  | .number d => denoteNumber lib d
  | .string valuestring => .string (units (stringBytes valuestring))
  | .array child => .array (denoteItems child)
  | .object child => .object (denoteMembers child)

def denoteItems : List (CJSON Double) → List Json
  | [] => []
  | item :: next => denote item :: denoteItems next

def denoteMembers : List (Option CString × CJSON Double) → List (JString × Json)
  | [] => []
  | (string, item) :: next => (units (stringBytes string), denote item) :: denoteMembers next

end

mutual

def hasRaw : CJSON Double → Bool
  | .raw _ => Bool.true
  | .array child => itemsRaw child
  | .object child => membersRaw child
  | _ => Bool.false

def itemsRaw : List (CJSON Double) → Bool
  | [] => Bool.false
  | item :: next => hasRaw item || itemsRaw next

def membersRaw : List (Option CString × CJSON Double) → Bool
  | [] => Bool.false
  | (_, item) :: next => hasRaw item || membersRaw next

end

section Keeping

/-- What is read of a text once some of its tabs and line feeds are deleted. -/
def kept (keep : UInt8 → Bool) (s : Bytes) : JString := units (s.filter keep)

variable {keep : UInt8 → Bool} (hkeep : ∀ c, c ≠ 9 → c ≠ 10 → keep c)

theorem kept_append (s t : Bytes) : kept keep (s ++ t) = kept keep s ++ kept keep t := by
  rw [kept, List.filter_append, units_append]
  rfl

include hkeep

theorem kept_of_visible {s : Bytes} (hs : ∀ c ∈ s, c ≠ 9 ∧ c ≠ 10) : kept keep s = units s := by
  rw [kept, List.filter_eq_self.2 fun c hc => hkeep c (hs c hc).1 (hs c hc).2]

theorem kept_cons {c : UInt8} (htab : c ≠ 9) (hfeed : c ≠ 10) (s : Bytes) :
    kept keep (c :: s) = c.toUInt16 :: kept keep s := by
  rw [kept, List.filter_cons_of_pos (hkeep c htab hfeed)]
  rfl

theorem kept_singleton {c : UInt8} (htab : c ≠ 9) (hfeed : c ≠ 10) : kept keep [c] = [c.toUInt16] :=
  kept_cons hkeep htab hfeed []

omit hkeep

theorem kept_spaces {s : Bytes} (hs : ∀ c ∈ s, isSpace c.toUInt16) : (kept keep s).all isSpace := by
  apply List.all_eq_true.2
  intro u hu
  obtain ⟨c, hc, rfl⟩ := List.mem_map.1 hu
  exact hs c (List.mem_filter.1 hc).1

theorem tabs_spaces (keep : UInt8 → Bool) (format : Bool) (depth : Nat) :
    (kept keep (tabs format depth)).all isSpace := by
  apply kept_spaces
  intro c hc
  rw [tabs] at hc
  split at hc
  · rw [List.eq_of_mem_replicate hc]
    rfl
  · cases hc

theorem newline_spaces (keep : UInt8 → Bool) (format : Bool) : (kept keep (newline format)).all isSpace := by
  apply kept_spaces
  intro c hc
  cases format with
  | false => cases hc
  | true =>
      rw [List.mem_singleton.1 hc]
      rfl

include hkeep

theorem kept_string (s : Option CString) :
    kept keep (printStringPtr s) = 34 :: (units ((stringBytes s).flatMap escape) ++ [34]) := by
  rw [kept_of_visible hkeep, printStringPtr_eq, units_cons, units_append]
  · rfl
  · intro c hc
    have hvisible : 31 < c := by
      rw [printStringPtr_eq, List.mem_cons, List.mem_append, List.mem_singleton] at hc
      rcases hc with rfl | hc | rfl
      · decide
      · obtain ⟨d, _, hd⟩ := List.mem_flatMap.1 hc
        exact escape_visible d c hd
      · decide
    constructor <;> rintro rfl <;> exact absurd hvisible (by decide)

theorem kept_number {s : Bytes} (hs : isNumber (units s)) : kept keep s = units s := by
  apply kept_of_visible hkeep
  intro c hc
  have hunit := List.all_eq_true.1 (isNumber_units hs) _ (List.mem_map_of_mem hc)
  constructor <;> rintro rfl <;> cases hunit

theorem parse_printNumber {d : Double} {s : Bytes} (h : printNumber lib d = some s) :
    parse (kept keep s) = some (denoteNumber lib d) := by
  rcases printNumber_cases lib h with ⟨hs, hd⟩ | ⟨rfl, hd⟩
  · rw [kept_number hkeep hs, hd, parse_number hs]
  · rw [kept_of_visible hkeep (forall_mem_of_all (by decide)), hd]
    exact parse_null

theorem parse_printString (s : Option CString) :
    parse (kept keep (printStringPtr s)) = some (.string (units (stringBytes s))) := by
  rw [kept_string hkeep]
  exact parse_string (encodes_escape _)

theorem parse_brackets {s : Bytes} {items : List Json}
    (h : s = [] ∧ items = [] ∨ ReadsItems (kept keep s) items) :
    parse (kept keep (91 :: (s ++ [93]))) = some (.array items) := by
  have hclose : ([] : JString).all isSpace := rfl
  rw [kept_cons hkeep (by decide) (by decide), kept_append, kept_singleton hkeep (by decide) (by decide)]
  rcases h with ⟨rfl, rfl⟩ | hitems
  · exact parse_array_nil hclose
  · exact parse_array hclose hitems

theorem parse_braces {format : Bool} {depth : Nat} {s : Bytes} {ms : List (JString × Json)}
    (h : s = [] ∧ ms = [] ∨ ReadsMembers (kept keep s) ms) :
    parse (kept keep (123 :: (newline format ++ (s ++ (tabs format depth ++ [125]))))) = some (.object ms) := by
  have hopen := newline_spaces keep format
  have hclose := tabs_spaces keep format depth
  rw [kept_cons hkeep (by decide) (by decide), kept_append, kept_append, kept_append,
    kept_singleton hkeep (by decide) (by decide)]
  rcases h with ⟨rfl, rfl⟩ | hms
  · have hinner : (kept keep (newline format) ++ kept keep (tabs format depth)).all isSpace := by
      rw [List.all_append, hopen, hclose]
      rfl
    have hempty := parse_object_nil hinner
    rw [List.append_assoc] at hempty
    exact hempty
  · have hobject := parse_object hclose (readsMembers_spaces hopen hms)
    rw [List.append_assoc] at hobject
    exact hobject

section Loops

variable (format : Bool) {value : Bytes} {v : Json} (hv : parse (kept keep value) = some v)
include hv

theorem readsItems_printArray {rest : Bytes} {items : List Json}
    (hitems : ReadsItems (kept keep rest) items) :
    ReadsItems (kept keep (value ++ ((if format then [44, 32] else [44]) ++ rest))) (v :: items) := by
  have hspace : (kept keep (if format then [32] else [])).all isSpace := by
    apply kept_spaces
    intro c hc
    cases format with
    | false => cases hc
    | true =>
        rw [List.mem_singleton.1 hc]
        rfl
  have hcomma : (if format then [44, 32] else [44]) = (44 : UInt8) :: if format then [32] else [] := by
    cases format <;> rfl
  rw [hcomma, kept_append, List.cons_append, kept_cons hkeep (by decide) (by decide), kept_append]
  exact readsItems_cons hv (readsItems_spaces hspace hitems)

variable (depth : Nat) (string : Option CString)

omit hv in
theorem kept_member (s : Bytes) :
    kept keep (tabs format depth ++ (printStringPtr string ++ 58 :: s)) =
      member (kept keep (tabs format depth)) (units ((stringBytes string).flatMap escape)) (kept keep s) := by
  rw [kept_append, kept_append, kept_string hkeep, kept_cons hkeep (by decide) (by decide), member,
    List.cons_append, List.append_assoc]
  rfl

theorem readsMembers_printObject_last :
    ReadsMembers (kept keep (tabs format depth ++ (printStringPtr string ++
      58 :: (tabs format 1 ++ (value ++ newline format))))) [(units (stringBytes string), v)] := by
  have hvalue := parse_spaces_left (tabs_spaces keep format 1)
    (parse_spaces_right (newline_spaces keep format) hv)
  rw [kept_member hkeep, kept_append, kept_append]
  exact readsMembers_last (tabs_spaces keep format depth) (encodes_escape (stringBytes string)) hvalue

theorem readsMembers_printObject {rest : Bytes} {ms : List (JString × Json)}
    (hms : ReadsMembers (kept keep rest) ms) :
    ReadsMembers (kept keep (tabs format depth ++ (printStringPtr string ++
      58 :: (tabs format 1 ++ (value ++ 44 :: (newline format ++ rest))))))
      ((units (stringBytes string), v) :: ms) := by
  have hvalue := parse_spaces_left (tabs_spaces keep format 1) hv
  have hcons := readsMembers_cons (tabs_spaces keep format depth) (encodes_escape (stringBytes string)) hvalue
    (readsMembers_spaces (newline_spaces keep format) hms)
  rw [member_append, List.append_assoc] at hcons
  rw [kept_member hkeep, kept_append, kept_append, kept_cons hkeep (by decide) (by decide), kept_append]
  exact hcons

end Loops

mutual

theorem parse_printValue (format : Bool) (depth : Nat) : ∀ (item : CJSON Double) (s : Bytes),
    hasRaw item = false → printValue lib format depth item = some s →
    parse (kept keep s) = some (denote lib item)
  | .invalid, s, _, h => by cases h
  | .raw _, s, hraw, _ => by cases hraw
  | .null, s, _, h => by
      cases h
      rw [kept_of_visible hkeep (forall_mem_of_all (by decide))]
      exact parse_null
  | .false, s, _, h => by
      cases h
      rw [kept_of_visible hkeep (forall_mem_of_all (by decide))]
      exact parse_bool false
  | .true, s, _, h => by
      cases h
      rw [kept_of_visible hkeep (forall_mem_of_all (by decide))]
      exact parse_bool true
  | .number d, s, _, h => parse_printNumber lib hkeep h
  | .string valuestring, s, _, h => by
      cases h
      exact parse_printString hkeep valuestring
  | .array child, s, hraw, h => by
      obtain ⟨items, hitems, h⟩ := Option.bind_eq_some_iff.1 h
      cases h
      rw [denote]
      apply parse_brackets hkeep
      cases child with
      | nil =>
          cases hitems
          exact .inl ⟨rfl, rfl⟩
      | cons item next =>
          exact .inr (readsItems_print format (depth + 1) (item :: next) items (by simp) hraw hitems)
  | .object child, s, hraw, h => by
      obtain ⟨members, hmembers, h⟩ := Option.bind_eq_some_iff.1 h
      cases h
      rw [denote]
      apply parse_braces hkeep
      cases child with
      | nil =>
          cases hmembers
          exact .inl ⟨rfl, rfl⟩
      | cons member next =>
          exact .inr (readsMembers_print format (depth + 1) (member :: next) members (by simp) hraw hmembers)

theorem readsItems_print (format : Bool) (depth : Nat) : ∀ (child : List (CJSON Double)) (s : Bytes),
    child ≠ [] → itemsRaw child = false → printArray lib format depth child = some s →
    ReadsItems (kept keep s) (denoteItems lib child)
  | [], _, hne, _, _ => (hne rfl).elim
  | item :: next, s, _, hraw, h => by
      obtain ⟨value, hvalue, h⟩ := Option.bind_eq_some_iff.1 h
      obtain ⟨rest, hrest, h⟩ := Option.bind_eq_some_iff.1 h
      cases h
      rw [itemsRaw, Bool.or_eq_false_iff] at hraw
      have hv := parse_printValue format depth item value hraw.1 hvalue
      cases next with
      | nil =>
          cases hrest
          rw [if_pos rfl, List.append_nil, List.append_nil]
          exact readsItems_last hv
      | cons item' next =>
          have hreads := readsItems_print format depth (item' :: next) rest (by simp) hraw.2 hrest
          rw [if_neg (by simp)]
          exact readsItems_printArray hkeep format hv hreads

theorem readsMembers_print (format : Bool) (depth : Nat) :
    ∀ (child : List (Option CString × CJSON Double)) (s : Bytes),
    child ≠ [] → membersRaw child = false → printObject lib format depth child = some s →
    ReadsMembers (kept keep s) (denoteMembers lib child)
  | [], _, hne, _, _ => (hne rfl).elim
  | (string, item) :: next, s, _, hraw, h => by
      obtain ⟨value, hvalue, h⟩ := Option.bind_eq_some_iff.1 h
      obtain ⟨rest, hrest, h⟩ := Option.bind_eq_some_iff.1 h
      cases h
      rw [membersRaw, Bool.or_eq_false_iff] at hraw
      have hv := parse_printValue format depth item value hraw.1 hvalue
      cases next with
      | nil =>
          cases hrest
          rw [if_pos rfl, List.nil_append, List.append_nil]
          exact readsMembers_printObject_last hkeep format hv depth string
      | cons member next =>
          have hreads := readsMembers_print format depth (member :: next) rest (by simp) hraw.2 hrest
          rw [if_neg (by simp)]
          exact readsMembers_printObject hkeep format hv depth string hreads

end

end Keeping

section Reports

theorem printStatistics_kept {output stripped : Bytes} (h : printStatistics (some output) = some stripped) :
    units stripped = kept (fun c => c ≠ 9 && c ≠ 10) output := by
  cases h
  dsimp only
  rw [List.filter_filter]
  rfl

theorem parse_printStatistics {item : CJSON Double} (hraw : hasRaw item = false) {stripped : Bytes}
    (h : printStatistics (cJSON_Print lib item) = some stripped) :
    parse (units stripped) = some (denote lib item) := by
  obtain ⟨output, hprint, _⟩ := Option.map_eq_some_iff.1 h
  rw [hprint] at h
  rw [printStatistics_kept h]
  refine parse_printValue lib (fun c htab hfeed => ?_) true 0 item output hraw hprint
  simp [htab, hfeed]

theorem parse_cJSON_Print {item : CJSON Double} (hraw : hasRaw item = false) {output : Bytes}
    (h : cJSON_Print lib item = some output) : parse (units output) = some (denote lib item) := by
  have hall : kept (fun _ => true) output = units output := by rw [kept, List.filter_true]
  rw [← hall]
  exact parse_printValue lib (fun _ _ _ => rfl) true 0 item output hraw h

theorem membersRaw_append (ms ms' : List (Option CString × CJSON Double)) :
    membersRaw (ms ++ ms') = (membersRaw ms || membersRaw ms') := by
  induction ms with
  | nil => rfl
  | cons m ms ih => rw [List.cons_append, membersRaw, ih, membersRaw, Bool.or_assoc]

theorem membersRaw_toList {α : Type} {o : Option α} {f : α → Option CString × CJSON Double}
    (h : ∀ a ∈ o, hasRaw (f a).2 = false) : membersRaw (o.map f).toList = false := by
  cases o with
  | none => rfl
  | some a => rw [Option.map_some, Option.toList_some, membersRaw, h a rfl, membersRaw, Bool.false_or]

theorem denoteMembers_append (ms ms' : List (Option CString × CJSON Double)) :
    denoteMembers lib (ms ++ ms') = denoteMembers lib ms ++ denoteMembers lib ms' := by
  induction ms with
  | nil => rfl
  | cons m ms ih => rw [List.cons_append, denoteMembers, ih, denoteMembers, List.cons_append]

/-- The report of a finished test is read back as what was collected, with the
parts that finishing adds behind it. -/
theorem finished_report {test : Test Double} (htop : membersRaw test.jsonTop = false)
    (hserver : ∀ item ∈ test.jsonServerOutput, hasRaw item = false) {stripped : Bytes}
    (h : printStatistics (iperfJsonFinish lib test) = some stripped) :
    parse (units stripped) =
      some (.object (denoteMembers lib test.jsonTop ++ denoteMembers lib test.added)) := by
  have hadded : membersRaw test.added = false := by
    rw [Test.added, membersRaw_append, membersRaw_append, membersRaw_append, membersRaw_toList,
      membersRaw_toList, membersRaw_toList hserver, membersRaw_toList]
    · rfl
    all_goals exact fun _ _ => rfl
  have hraw : hasRaw (.object (test.jsonTop ++ test.added)) = false := by
    rw [hasRaw, membersRaw_append, htop, hadded]
    rfl
  rw [parse_printStatistics lib hraw h, denote, denoteMembers_append]

/-- Deleting the line feeds and tabs of a printed tree leaves a text of the same tree. -/
theorem stripping_preserves (item : CJSON Double) (hraw : hasRaw item = false) {output : Bytes}
    (h : cJSON_Print lib item = some output) :
    ∃ stripped, printStatistics (some output) = some stripped ∧ 10 ∉ stripped ∧ 9 ∉ stripped ∧
      parse (units stripped) = some (denote lib item) ∧ parse (units output) = some (denote lib item) := by
  obtain ⟨stripped, hstripped⟩ : ∃ stripped, printStatistics (some output) = some stripped := ⟨_, rfl⟩
  have hparse := parse_printStatistics lib hraw (h ▸ hstripped)
  refine ⟨stripped, hstripped, ?_, ?_, hparse, parse_cJSON_Print lib hraw h⟩
  · cases hstripped
    simp
  · cases hstripped
    simp

def single (n : Fin 10) : Decimal where
  negative := false
  int := [n]
  fraction := []
  exponent := none
  int_ne := List.cons_ne_nil _ _
  int_head := .inr rfl
  exponent_ne := by simp

def oneDigit : CLib (Option (Fin 10)) where
  finite := Option.isSome
  same d e := d.isSome && d == e
  decimalPoint := 46
  sprintf15 d := d.elim (bytes "nan") fun n => [digitByte n]
  sprintf17 d := d.elim (bytes "nan") fun n => [digitByte n]
  sscanf s := ((List.finRange 10).find? fun n => [digitByte n] = s).map some
  decimalPoint_free := by decide
  sprintf15_finite d h := by
    obtain ⟨n, rfl⟩ := Option.isSome_iff_exists.1 h
    exact ⟨single n, rfl⟩
  sprintf17_finite d h := by
    obtain ⟨n, rfl⟩ := Option.isSome_iff_exists.1 h
    exact ⟨single n, rfl⟩

def sampleReport : CJSON (Option (Fin 10)) :=
  .object [(some ⟨bytes "end\n", by decide⟩, .array [.number (some 7), .number none, .object []]),
    (none, .string (some ⟨[9, 34, 1, 97, 200], by decide⟩))]

theorem stripping_preserves_sample : ∃ output, cJSON_Print oneDigit sampleReport = some output ∧
    ∃ stripped, printStatistics (some output) = some stripped ∧ 10 ∉ stripped ∧ 9 ∉ stripped ∧
      parse (units stripped) = some (denote oneDigit sampleReport) ∧
      parse (units output) = some (denote oneDigit sampleReport) := by
  have hprint : cJSON_Print oneDigit sampleReport = some (bytes
      "\x7b\n\t\"end\\n\":\t[7, null, \x7b\n\t\t\x7d],\n\t\"\":\t\"\\t\\\"\\u0001a" ++ [200, 34, 10, 125]) := by
    decide
  exact ⟨_, hprint, stripping_preserves oneDigit sampleReport rfl hprint⟩

end Reports

end SberWifi.CJsonPrint
