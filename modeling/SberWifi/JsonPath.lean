import SberWifi.DecimalNumbers
import SberWifi.IperfMachine

namespace SberWifi.JsonPath

open JavaString JsonTokens JsonRules DecimalNumbers IperfMachine
open JsonText (Json parse)

/-- A member that is put later replaces one of its name. -/
def child (key : JString) : Json → Option Json
  | .object ms => (ms.reverse.find? fun m => m.1 = key).map Prod.snd
  | _ => none

def find : List JString → Json → Option Json
  | [], v => some v
  | key :: path, v => (child key v).bind (find path)

def pathText (path : List JString) : JString := 36 :: path.flatMap (46 :: ·)

/-- Letters and underscores have no meaning of their own in a path. -/
def plainKey (key : JString) : Bool :=
  key ≠ [] && key.all fun c => 97 ≤ c && c ≤ 122 || 65 ≤ c && c ≤ 90 || c == 95

def natural (s : JString) : Nat := s.foldl (fun v c => 10 * v + (c.toNat - 48)) 0

def integer (token : JString) : Int :=
  if token.head? = some 45 then -natural token.tail else natural token

variable {D : Type}

/-- An integer gets the smallest type that holds it. -/
def boxInteger (v : Int) : Number D :=
  if -2 ^ 31 ≤ v ∧ v < 2 ^ 31 then .integer (Int32.ofInt v)
  else if -2 ^ 63 ≤ v ∧ v < 2 ^ 63 then .long (Int64.ofInt v)
  else .bigInteger v

/-- A token with a fraction or an exponent is a double. -/
def box (parseDouble : JString → D) (token : JString) : Number D :=
  if 46 ∈ token ∨ 101 ∈ token ∨ 69 ∈ token then .double (parseDouble token)
  else boxInteger (integer token)

def boxed (parseDouble : JString → D) : Json → Option (Number D)
  | .number token => some (box parseDouble token)
  | _ => none

/-- What the fragment relies on: `read` finds a value by its path, and doubles
hold the integers up to 2^53, when they are parsed and when they are narrowed. -/
structure Reads (lib : Libraries D) (parseDouble : JString → D) : Prop where
  read_found : ∀ {report : JString} {tree v : Json} {path : List JString}, parse report = some tree →
    path ≠ [] → path.all plainKey → find path tree = some v →
    lib.read report (pathText path) = some (boxed parseDouble v)
  parseDouble_exact : ∀ {x : Decimal} {n : Nat}, Equals x n → n ≤ 2 ^ 53 → parseDouble x.token = lib.ofInt n
  toInt_exact : ∀ n : Nat, n ≤ 2 ^ 53 → lib.toInt (lib.ofInt n) = Int32.ofNat (min n (2 ^ 31 - 1))

theorem child_last {before after : List (JString × Json)} {key : JString} (v : Json)
    (hafter : key ∉ after.map Prod.fst) : child key (.object (before ++ (key, v) :: after)) = some v := by
  have hnone : after.reverse.find? (fun m => decide (m.1 = key)) = none := by
    rw [List.find?_eq_none]
    intro m hm heq
    apply hafter
    rw [← of_decide_eq_true heq]
    exact List.mem_map_of_mem (List.mem_reverse.1 hm)
  rw [child, List.reverse_append, List.reverse_cons, List.find?_append, List.find?_append, hnone]
  simp

theorem natural_digits (ds : List (Fin 10)) : natural (ds.map digit) = number ds := by
  have hdigit : ∀ d, (digit d).toNat - 48 = d.val := by decide
  rw [natural, number, List.foldl_map]
  congr
  funext v d
  rw [hdigit]

theorem token_plain (n : Nat) : (plain n).token = (digits n).map digit := by
  simp [Decimal.token, Decimal.signToken, Decimal.fractionToken, Decimal.exponentToken, plain]

theorem box_plain (parseDouble : JString → D) (n : Nat) :
    box parseDouble (plain n).token = boxInteger n := by
  have hdigit : ∀ d, digit d ≠ 46 ∧ digit d ≠ 101 ∧ digit d ≠ 69 ∧ digit d ≠ 45 := by decide
  have hinteger : ¬ (46 ∈ (plain n).token ∨ 101 ∈ (plain n).token ∨ 69 ∈ (plain n).token) := by
    rw [token_plain]
    simp only [List.mem_map]
    rintro (⟨d, -, h⟩ | ⟨d, -, h⟩ | ⟨d, -, h⟩)
    · exact (hdigit d).1 h
    · exact (hdigit d).2.1 h
    · exact (hdigit d).2.2.1 h
  have hsign : ((digits n).map digit).head? ≠ some 45 := by
    rw [List.head?_map]
    intro h
    obtain ⟨d, -, hd⟩ := Option.map_eq_some_iff.1 h
    exact (hdigit d).2.2.2 hd
  rw [box, if_neg hinteger, token_plain, integer, if_neg hsign, natural_digits, number_digits]

theorem box_exponent (parseDouble : JString → D) {x : Decimal} (h : x.exponent ≠ none) :
    box parseDouble x.token = .double (parseDouble x.token) := by
  obtain ⟨⟨negative, ds⟩, he⟩ := Option.ne_none_iff_exists'.1 h
  have hmem : 101 ∈ x.token := by
    rw [Decimal.token, Decimal.exponentToken, he]
    simp
  rw [box, if_pos (.inr (.inl hmem))]

section Values

def fractionOf (rest : JString) : JString × JString :=
  if rest.head? = some 46 then (rest.tail.takeWhile isDigit, rest.tail.dropWhile isDigit) else ([], rest)

def exponentOf (rest : JString) : Nat × Nat :=
  if rest.head? = some 101 then
    if rest.tail.head? = some 45 then (0, natural rest.tail.tail) else (natural rest.tail.tail, 0)
  else (0, 0)

def wholePart (token : JString) : Nat :=
  let (fraction, rest) := fractionOf (token.dropWhile isDigit)
  natural (token.takeWhile isDigit ++ fraction) * 10 ^ (exponentOf rest).1 /
    10 ^ (fraction.length + (exponentOf rest).2)

theorem fractionOf_token (x : Decimal) :
    fractionOf (x.fractionToken ++ x.exponentToken) = (x.fraction.map digit, x.exponentToken) := by
  rw [Decimal.fractionToken]
  by_cases hf : x.fraction = []
  · rw [if_pos hf, List.nil_append, fractionOf, hf, if_neg]
    · rfl
    · exact fun h => (exponent_head x 46 h).2 rfl
  · obtain ⟨htake, hdrop⟩ := digits_append (fun c hc => (exponent_head x c hc).1) x.fraction
    rw [if_neg hf, List.cons_append, fractionOf, List.head?_cons, if_pos rfl, List.tail_cons, htake, hdrop]

theorem exponentOf_token (x : Decimal) : exponentOf x.exponentToken = scale x.exponent := by
  rw [Decimal.exponentToken]
  cases x.exponent with
  | none => rfl
  | some e =>
      obtain ⟨negative, ds⟩ := e
      cases negative <;> simp [exponentOf, scale, natural_digits]

theorem wholePart_token {x : Decimal} {n : Nat} (h : Equals x n) : wholePart x.token = n := by
  obtain ⟨hsign, hvalue⟩ := h
  have htoken : x.token = x.int.map digit ++ (x.fractionToken ++ x.exponentToken) := by
    rw [Decimal.token, Decimal.signToken, hsign]
    rfl
  obtain ⟨htake, hdrop⟩ := digits_append (fraction_head x) x.int
  rw [wholePart, htoken, htake, hdrop, fractionOf_token]
  dsimp only
  rw [← List.map_append, natural_digits, exponentOf_token, List.length_map, hvalue]
  exact Nat.mul_div_cancel _ (Nat.pow_pos (by decide))

end Values

theorem pathText_eq {path : List JString} (hpath : path ≠ []) :
    pathText path = 36 :: 46 :: List.intercalate [46] path := by
  rw [pathText]
  congr 1
  induction path with
  | nil => exact absurd rfl hpath
  | cons key path ih =>
      cases path with
      | nil => simp
      | cons key' path =>
          rw [List.flatMap_cons, ih (List.cons_ne_nil _ _), List.intercalate_cons_cons]
          simp

def keys (text : JString) : List JString := (text.drop 2).splitOn 46

theorem keys_pathText {path : List JString} (hpath : path ≠ []) (hplain : path.all plainKey) :
    keys (pathText path) = path := by
  rw [keys, pathText_eq hpath]
  refine List.splitOn_intercalate 46 (fun key hkey hdot => ?_) hpath
  have hkey := List.all_eq_true.1 hplain key hkey
  rw [plainKey, Bool.and_eq_true] at hkey
  exact absurd (List.all_eq_true.1 hkey.2 46 hdot) (by decide)

def readNaturals (report text : JString) : Option (Option (Number Nat)) := do
  let tree ← parse report
  let v ← find (keys text) tree
  return boxed wholePart v

end SberWifi.JsonPath
