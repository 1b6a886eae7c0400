import SberWifi.Runs
import SberWifi.VendorLookup

namespace SberWifi.VendorLoading

open JavaString TextFields Vendors VendorLookup Runs

def wellFormed (data : JString) : Bool :=
  match split 124 data with
  | [_, part] => part.length % 6 == 0
  | _ => false

def Parses (text : JString) : Prop :=
  ∀ data ∈ split 10 text, ∀ name part, split 124 data = [name, part] → part.length % 6 = 0

/-- A blank name is answered without a look at the table. -/
def consults : Lookup → Bool
  | .findVendorName _ => true
  | .findMacAddresses vendorName => !isBlank vendorName
  | .findVendors _ => true

def settled : Except VendorDB VendorDB → VendorDB
  | .ok db => db
  | .error db => db

theorem foldlM_ok_iff {σ α ε : Type} {f : σ → α → Except ε σ} {P : α → Prop}
    (h : ∀ s a, (∃ s', f s a = .ok s') ↔ P a) (l : List α) (s : σ) :
    (∃ s', l.foldlM f s = .ok s') ↔ ∀ a ∈ l, P a := by
  induction l generalizing s with
  | nil => exact ⟨fun _ _ ha => absurd ha List.not_mem_nil, fun _ => ⟨s, rfl⟩⟩
  | cons a l ih =>
      have hstep := h s a
      rw [List.foldlM_cons, List.forall_mem_cons, ← hstep]
      cases hfa : f s a with
      | ok s' => exact (ih s').trans (and_iff_right ⟨s', rfl⟩).symm
      | error e =>
          constructor
          · rintro ⟨_, heq⟩
            cases heq
          · rintro ⟨⟨_, heq⟩, -⟩
            cases heq

/-- Elements that change nothing may be left out. -/
theorem foldlM_filter {σ α ε : Type} {f : σ → α → Except ε σ} {p : α → Bool} {l : List α}
    (h : ∀ a ∈ l, ¬ p a → ∀ s, f s a = .ok s) (s : σ) : (l.filter p).foldlM f s = l.foldlM f s := by
  induction l generalizing s with
  | nil => rfl
  | cons a l ih =>
      have htail := ih fun b hb => h b (List.mem_cons_of_mem a hb)
      by_cases ha : p a
      · rw [List.filter_cons_of_pos ha, List.foldlM_cons, List.foldlM_cons]
        cases f s a with
        | ok s' => exact htail s'
        | error e => rfl
      · rw [List.filter_cons_of_neg ha, List.foldlM_cons, h a List.mem_cons_self ha s]
        exact htail s

theorem loadMac_ok_iff (name part : JString) (db : VendorDB) (i : Nat) :
    (∃ db', loadMac name part db i = .ok db') ↔ i + 6 ≤ part.length := by
  have hrange : i ≤ i + maxSize ∧ i + maxSize ≤ part.length ↔ i + 6 ≤ part.length :=
    and_iff_right (Nat.le_add_right _ _)
  by_cases h : i + 6 ≤ part.length
  · have hmac : substring part i (i + maxSize) = some (slice part i (i + maxSize)) := if_pos (hrange.2 h)
    rw [loadMac, hmac]
    exact ⟨fun _ => h, fun _ => ⟨_, rfl⟩⟩
  · have hmac : substring part i (i + maxSize) = none := if_neg (mt hrange.1 h)
    rw [loadMac, hmac]
    refine ⟨fun hok => ?_, fun hle => absurd hle h⟩
    obtain ⟨_, heq⟩ := hok
    cases heq

/-- The loop stays inside the field exactly when it holds whole OUIs. -/
theorem offsets_fit_iff (length : Nat) : (∀ i ∈ offsets 6 length, i + 6 ≤ length) ↔ length % 6 = 0 := by
  simp only [mem_offsets (show 0 < 6 by decide)]
  constructor
  · intro h
    by_contra hrest
    have hlast := h (6 * (length / 6)) ⟨length / 6, rfl, by omega⟩
    omega
  · rintro h i ⟨k, rfl, hk⟩
    omega

theorem loadLine_ok_iff (db : VendorDB) (data : JString) : (∃ db', loadLine db data = .ok db') ↔
    ∀ name part, split 124 data = [name, part] → part.length % 6 = 0 := by
  rw [loadLine]
  split
  · next name part hsplit =>
    rw [foldlM_ok_iff (loadMac_ok_iff name part), hsplit]
    refine (offsets_fit_iff part.length).trans ?_
    constructor
    · rintro h _ _ ⟨⟩
      exact h
    · intro h
      exact h name part rfl
  · next hother =>
    refine ⟨fun _ name part hsplit => absurd hsplit (hother name part), fun _ => ⟨db, rfl⟩⟩

theorem load_new_ok_iff (text : JString) : (∃ db, load text VendorDB.new = .ok db) ↔ Parses text := by
  rw [load, if_neg (by decide)]
  exact foldlM_ok_iff loadLine_ok_iff _ _

theorem loadLine_other {data : JString} (h : ∀ name part, split 124 data ≠ [name, part]) (db : VendorDB) :
    loadLine db data = .ok db := by
  rw [loadLine]
  split
  · next name part hsplit => exact absurd hsplit (h name part)
  · rfl

section Lookups

variable (locale : JLocale) {text : JString} {db : VendorDB}

def Answers (text : JString) (db : VendorDB) : Lookup → Prop
  | .findVendorName address => ∃ answer, findVendorName locale text db address = .ok answer
  | .findMacAddresses vendorName => ∃ answer, findMacAddresses locale text db vendorName = .ok answer
  | .findVendors filter => ∃ answer, findVendors locale text db filter = .ok answer

theorem after_of_consults {lookup : Lookup} (h : consults lookup) :
    after locale text db lookup = settled (load text db) := by
  cases hload : load text db with
  | ok loaded =>
      cases lookup with
      | findVendorName address =>
          rw [after, findVendorName_of_load locale hload]
          rfl
      | findMacAddresses vendorName =>
          rw [consults, Bool.not_eq_true', ← Bool.not_eq_true] at h
          rw [after, findMacAddresses, if_neg h, hload]
          rfl
      | findVendors filter =>
          rw [after, findVendors_of_load locale hload]
          rfl
  | error broken =>
      cases lookup with
      | findVendorName address =>
          rw [after, findVendorName_of_error locale hload]
          rfl
      | findMacAddresses vendorName =>
          rw [consults, Bool.not_eq_true', ← Bool.not_eq_true] at h
          rw [after, findMacAddresses, if_neg h, hload]
          rfl
      | findVendors filter =>
          rw [after, findVendors, hload]
          rfl

theorem after_of_not_consults {lookup : Lookup} (h : ¬ consults lookup) :
    after locale text db lookup = db := by
  cases lookup with
  | findVendorName address => exact absurd rfl h
  | findMacAddresses vendorName =>
      rw [consults, Bool.not_eq_true', Bool.not_eq_false] at h
      rw [after, findMacAddresses, if_pos h]
      rfl
  | findVendors filter => exact absurd rfl h

theorem answers_of_load {loaded : VendorDB} (hload : load text db = .ok loaded) (lookup : Lookup) :
    Answers locale text db lookup := by
  cases lookup with
  | findVendorName address => exact ⟨_, findVendorName_of_load locale hload address⟩
  | findMacAddresses vendorName =>
      rw [Answers, findMacAddresses]
      by_cases h : isBlank vendorName
      · exact ⟨_, if_pos h⟩
      · rw [if_neg h, hload]
        exact ⟨_, rfl⟩
  | findVendors filter => exact ⟨_, findVendors_of_load locale hload filter⟩

def Harmless (text : JString) : Prop :=
  (∀ (prior : List Lookup) (lookup : Lookup),
    Answers locale text (prior.foldl (after locale text) VendorDB.new) lookup) ∧
  ∀ prior : List Lookup, (prior.foldl (after locale text) VendorDB.new).loaded = true →
    ((split 10 text).filter wellFormed).foldlM loadLine { VendorDB.new with loaded := true } =
      .ok (prior.foldl (after locale text) VendorDB.new)

theorem run_cases {table : VendorDB} (h : load text VendorDB.new = .ok table) (prior : List Lookup) :
    prior.foldl (after locale text) VendorDB.new = .new ∨
      prior.foldl (after locale text) VendorDB.new = table := by
  induction prior using List.reverseRecOn with
  | nil => exact .inl rfl
  | append_singleton prior lookup ih =>
      rw [List.foldl_append, List.foldl_cons, List.foldl_nil]
      by_cases hc : consults lookup
      · rw [after_of_consults locale hc]
        rcases ih with ih | ih
        · rw [ih, h]
          exact .inr rfl
        · rw [ih, load_load h]
          exact .inr rfl
      · rw [after_of_not_consults locale hc]
        exact ih

theorem harmless_of_load {table : VendorDB} (h : load text VendorDB.new = .ok table) :
    Harmless locale text := by
  constructor
  · intro prior lookup
    rcases run_cases locale h prior with hrun | hrun
    · rw [hrun]
      exact answers_of_load locale h lookup
    · rw [hrun]
      exact answers_of_load locale (load_load h) lookup
  · intro prior hloaded
    have hlines := (load_new_ok_iff text).1 ⟨table, h⟩
    rcases run_cases locale h prior with hrun | hrun
    · rw [hrun] at hloaded
      exact absurd hloaded (by decide)
    · rw [hrun, ← h, load, if_neg (by decide)]
      apply foldlM_filter
      intro data hdata hwell
      apply loadLine_other
      intro name part hsplit
      apply hwell
      simp only [wellFormed, hsplit, hlines data hdata name part hsplit]
      rfl

theorem load_of_harmless (h : Harmless locale text) : ∃ table, load text VendorDB.new = .ok table := by
  obtain ⟨answer, hanswer⟩ := h.1 [] (.findVendorName [])
  cases hload : load text VendorDB.new with
  | ok table => exact ⟨table, rfl⟩
  | error db =>
      rw [List.foldl_nil, findVendorName_of_error locale hload] at hanswer
      cases hanswer

/-- The lookups survive a text exactly when it parses. -/
theorem harmless_iff (text : JString) : Harmless locale text ↔ Parses text := by
  rw [← load_new_ok_iff]
  constructor
  · exact load_of_harmless locale
  · rintro ⟨table, hload⟩
    exact harmless_of_load locale hload

end Lookups

/-- A carriage return at the end of a line is the seventh character of its field. -/
theorem not_harmless : ¬ Harmless .root (str "16063|001974\r\nAMX|006000") := by
  intro h
  have hlines := (load_new_ok_iff _).1 (load_of_harmless .root h)
  have hfield := hlines (str "16063|001974\r") (by decide) (str "16063") (str "001974\r") (by decide)
  exact absurd hfield (by decide)

end SberWifi.VendorLoading
