import Mathlib.Data.List.Basic

namespace SberWifi.JavaString

/-- A Java string is the sequence of its UTF-16 code units. `compare` on it is
`String.compareTo`. -/
abbrev JString := List UInt16

/-- A string literal of the source. All of them stay inside the basic plane. -/
def str (s : String) : JString := s.toList.map fun c => c.val.toUInt16

def asciiUpper (c : UInt16) : UInt16 := if 97 ≤ c ∧ c ≤ 122 then c - 32 else c

def asciiLower (c : UInt16) : UInt16 := if 65 ≤ c ∧ c ≤ 90 then c + 32 else c

/-- `Character.toUpperCase` and `Character.toLowerCase` on code units. Only
their ASCII part is fixed here. -/
structure CaseTable where
  toUpperCase : UInt16 → UInt16
  toLowerCase : UInt16 → UInt16
  toUpperCase_ascii : ∀ c < 128, toUpperCase c = asciiUpper c
  toLowerCase_ascii : ∀ c < 128, toLowerCase c = asciiLower c

/-- The part of a `java.util.Locale` that the program uses. Every locale
upper-cases ASCII text letter by letter, and only the letter i has a capital
that depends on the locale. -/
structure JLocale where
  toUpperCase : JString → JString
  capitalI : UInt16
  toUpperCase_ascii : ∀ s : JString, (∀ c ∈ s, c < 128) →
    toUpperCase s = s.map fun c => if c = 105 then capitalI else asciiUpper c

def CaseTable.ascii : CaseTable := ⟨asciiUpper, asciiLower, fun _ _ => rfl, fun _ _ => rfl⟩

def JLocale.root : JLocale where
  toUpperCase := List.map asciiUpper
  capitalI := 73
  toUpperCase_ascii s _ := List.map_congr_left fun c _ => by
    by_cases h : c = 105
    · subst h
      decide
    · rw [if_neg h]

def CaseTable.fold (chars : CaseTable) (c : UInt16) : UInt16 := chars.toLowerCase (chars.toUpperCase c)

def CaseTable.equalChar (chars : CaseTable) (c d : UInt16) : Bool :=
  c == d || chars.toUpperCase c == chars.toUpperCase d || chars.fold c == chars.fold d

def equalsIgnoreCase (chars : CaseTable) (lhs rhs : JString) : Bool :=
  lhs.length == rhs.length && (lhs.zip rhs).all fun p => chars.equalChar p.1 p.2

/-- The code units from `beginIndex` to `endIndex`, for bounds that are in range. -/
def slice (s : JString) (beginIndex endIndex : Nat) : JString := (s.take endIndex).drop beginIndex

/-- `String.substring`; `none` is the StringIndexOutOfBoundsException. -/
def substring (s : JString) (beginIndex endIndex : Nat) : Option JString :=
  if beginIndex ≤ endIndex ∧ endIndex ≤ s.length then some (slice s beginIndex endIndex) else none

/-- `Character.isWhitespace`: the space, line and paragraph separators that may
be broken, and the ASCII control separators. -/
def isWhitespace (c : UInt16) : Bool :=
  (9 ≤ c && c ≤ 13) || (28 ≤ c && c ≤ 32) || c == 0x1680 ||
    (0x2000 ≤ c && c ≤ 0x200A && c != 0x2007) || c == 0x2028 || c == 0x2029 || c == 0x205F || c == 0x3000

def isBlank (s : JString) : Bool := s.all isWhitespace

theorem equalChar_iff (chars : CaseTable) (c d : UInt16) :
    chars.equalChar c d ↔ chars.fold c = chars.fold d := by
  simp only [CaseTable.equalChar, Bool.or_eq_true, beq_iff_eq]
  constructor
  · rintro ((rfl | h) | h)
    · rfl
    · simp only [CaseTable.fold, h]
    · exact h
  · exact .inr

theorem equalsIgnoreCase_iff (chars : CaseTable) (lhs rhs : JString) :
    equalsIgnoreCase chars lhs rhs ↔ lhs.map chars.fold = rhs.map chars.fold := by
  induction lhs generalizing rhs with
  | nil => cases rhs <;> simp [equalsIgnoreCase]
  | cons c lhs ih =>
      cases rhs with
      | nil => simp [equalsIgnoreCase]
      | cons d rhs =>
          have h := ih rhs
          simp only [equalsIgnoreCase, Bool.and_eq_true, beq_iff_eq, List.all_eq_true] at h
          simp only [equalsIgnoreCase, List.length_cons, Bool.and_eq_true, beq_iff_eq,
            Nat.add_right_cancel_iff, List.zip_cons_cons, List.all_cons, equalChar_iff,
            List.map_cons, List.cons.injEq, ← h, List.all_eq_true]
          tauto

theorem forall_mem_of_all {α : Type} {s : List α} {p : α → Prop} [DecidablePred p]
    (h : s.all fun c => p c) : ∀ c ∈ s, p c := by
  simpa using h

theorem length_slice {s : JString} {i j : Nat} (h : j ≤ s.length) : (slice s i j).length = j - i := by
  simp [slice, h]

end SberWifi.JavaString
