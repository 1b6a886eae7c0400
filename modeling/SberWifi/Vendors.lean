import SberWifi.JavaString
import SberWifi.LastWrite
import SberWifi.TextFields
import Mathlib.Data.List.Infix
import Std.Data.TreeMap.Lemmas

namespace SberWifi.Vendors

open JavaString LastWrite TextFields

def maxSize : Nat := 6

def separator : UInt16 := 58

def clean (locale : JLocale) : Option JString → JString
  | none => []
  | some macAddress =>
      let result := macAddress.filter (· ≠ separator)
      locale.toUpperCase (slice result 0 (min result.length maxSize))

/-- `VendorUtils.toMacAddress`. The plus signs stand inside the string templates. -/
def toMacAddress : Option JString → JString
  | none => []
  | some source =>
      if source.length < maxSize then str "*" ++ source ++ str "*"
      else slice source 0 2 ++ (separator :: str " + " ++ slice source 2 4) ++
        (separator :: str " + " ++ slice source 4 6)

structure VendorDB where
  vendors : Std.TreeMap JString (List JString)
  macs : Std.TreeMap JString JString
  loaded : Bool

def VendorDB.new : VendorDB := ⟨∅, ∅, false⟩

/-- One turn of the inner loop, for the line with this name and this second
part. `addresses` is the list that the map holds under the name. An exception
carries the database it leaves behind. -/
def loadMac (name part : JString) (db : VendorDB) (i : Nat) : Except VendorDB VendorDB :=
  match substring part i (i + maxSize) with
  | none => .error db
  | some mac =>
      let addresses := db.vendors[name]?.getD []
      .ok { db with
        vendors := db.vendors.insert name (addresses ++ [toMacAddress (some mac)])
        macs := db.macs.insert mac name }

def loadLine (db : VendorDB) (data : JString) : Except VendorDB VendorDB :=
  match split 124 data with
  | [name, part] =>
      (offsets maxSize part.length).foldlM (loadMac name part)
        { db with vendors := db.vendors.insert name [] }
  | _ => .ok db

/-- `text` is what `FileUtils.readFile` returns for the vendor resource. -/
def load (text : JString) (db : VendorDB) : Except VendorDB VendorDB :=
  if db.loaded then .ok db else (split 10 text).foldlM loadLine { db with loaded := true }

def select {α ε : Type} (predicate : α → Except ε Bool) : List α → Except ε (List α)
  | [] => .ok []
  | a :: l => do
      let keep ← predicate a
      let selected ← select predicate l
      return if keep then a :: selected else selected

section Lookups

variable (locale : JLocale) (text : JString)

def findVendorName (db : VendorDB) (address : JString) : Except VendorDB (JString × VendorDB) := do
  let db ← load text db
  return (db.macs[clean locale (some address)]?.getD [], db)

def findMacAddresses (db : VendorDB) (vendorName : JString) : Except VendorDB (List JString × VendorDB) :=
  if isBlank vendorName then .ok ([], db)
  else do
    let db ← load text db
    return (db.vendors[locale.toUpperCase vendorName]?.getD [], db)

def stringContains (filter object : JString) : Bool := decide (filter <:+: object)

def macContains (db : VendorDB) (filter object : JString) : Except VendorDB Bool := do
  let (addresses, _) ← findMacAddresses locale text db object
  return addresses.any (stringContains filter)

def findVendors (db : VendorDB) (filter : JString) : Except VendorDB (List JString × VendorDB) := do
  let db ← load text db
  if isBlank filter then return (db.vendors.keys, db)
  else
    let filterToUpperCase := locale.toUpperCase filter
    let selected ← select (fun object =>
      if stringContains filterToUpperCase object then .ok true
      else macContains locale text db filterToUpperCase object) db.vendors.keys
    return (selected, db)

end Lookups

def isUpperHex (c : UInt16) : Bool := (48 ≤ c && c ≤ 57) || (65 ≤ c && c ≤ 70)

structure VendorLine where
  name : JString
  ouis : JString
  name_plain : ∀ c ∈ name, c ≠ 124 ∧ c ≠ 10
  ouis_hex : ∀ c ∈ ouis, isUpperHex c
  ouis_length : 6 ∣ ouis.length
  ouis_ne_nil : ouis ≠ []

def VendorLine.render (line : VendorLine) : JString := line.name ++ 124 :: line.ouis

def VendorLine.Lists (line : VendorLine) (oui : JString) : Prop :=
  ∃ k, 6 * k < line.ouis.length ∧ slice line.ouis (6 * k) (6 * k + 6) = oui

def VendorLine.chunks (line : VendorLine) : List JString :=
  (offsets 6 line.ouis.length).map fun i => slice line.ouis i (i + 6)

/-- The text of a table. Any number of line ends may follow the last line. -/
def tableText (lines : List VendorLine) (lineEnds : Nat) : JString :=
  [10].intercalate (lines.map VendorLine.render) ++ List.replicate lineEnds 10

theorem mem_chunks {line : VendorLine} {oui : JString} : oui ∈ line.chunks ↔ line.Lists oui := by
  simp only [VendorLine.chunks, List.mem_map, mem_offsets (show 0 < 6 by decide), VendorLine.Lists]
  constructor
  · rintro ⟨_, ⟨k, rfl, hk⟩, h⟩
    exact ⟨k, hk, h⟩
  · rintro ⟨k, hk, h⟩
    exact ⟨6 * k, ⟨k, rfl, hk⟩, h⟩

theorem offset_in_range (line : VendorLine) {i : Nat} (h : i ∈ offsets 6 line.ouis.length) :
    i + 6 ≤ line.ouis.length := by
  obtain ⟨k, rfl, hk⟩ := (mem_offsets (by decide)).1 h
  obtain ⟨n, hn⟩ := line.ouis_length
  omega

theorem length_of_lists {line : VendorLine} {oui : JString} (h : line.Lists oui) : oui.length = 6 := by
  obtain ⟨k, hk, rfl⟩ := h
  have hrange := offset_in_range line ((mem_offsets (by decide)).2 ⟨k, rfl, hk⟩)
  rw [length_slice hrange]
  omega

theorem hex_of_lists {line : VendorLine} {oui : JString} (h : line.Lists oui) : ∀ c ∈ oui, isUpperHex c := by
  obtain ⟨k, _, rfl⟩ := h
  intro c hc
  exact line.ouis_hex c (List.mem_of_mem_take (List.mem_of_mem_drop hc))

theorem separator_not_upperHex {c : UInt16} (h : isUpperHex c) : c ≠ 124 ∧ c ≠ 10 := by
  constructor <;> rintro rfl <;> exact absurd h (by decide)

theorem split_render (line : VendorLine) : split 124 line.render = [line.name, line.ouis] :=
  split_pair 124 (fun h => (line.name_plain _ h).1 rfl)
    (fun h => (separator_not_upperHex (line.ouis_hex _ h)).1 rfl) line.ouis_ne_nil

theorem render_plain (line : VendorLine) : 10 ∉ line.render := by
  intro h
  rcases List.mem_append.1 h with h | h
  · exact (line.name_plain _ h).2 rfl
  · rcases List.mem_cons.1 h with h | h
    · exact absurd h (by decide)
    · exact (separator_not_upperHex (line.ouis_hex _ h)).2 rfl

theorem getElem?_insert {β : Type} (t : Std.TreeMap JString β) (k a : JString) (v : β) :
    (t.insert k v)[a]? = if a = k then some v else t[a]? := by
  rw [Std.TreeMap.getElem?_insert]
  simp only [Std.LawfulEqCmp.compare_eq_iff_eq, @eq_comm _ a k]

/-- The inner loop appends one formatted address for each offset and gives each
OUI its line's name. -/
theorem foldlM_loadMac (name part : JString) {is : List Nat} (his : ∀ i ∈ is, i + 6 ≤ part.length)
    (db : VendorDB) (addresses : List JString) (hdb : db.vendors[name]? = some addresses) :
    ∃ db', is.foldlM (loadMac name part) db = .ok db' ∧ db'.loaded = db.loaded ∧
      (∀ n, db'.vendors[n]? = if n = name then
        some (addresses ++ is.map fun i => toMacAddress (some (slice part i (i + 6)))) else db.vendors[n]?) ∧
      ∀ m, db'.macs[m]? = if m ∈ is.map (fun i => slice part i (i + 6)) then some name else db.macs[m]? := by
  induction is generalizing db addresses with
  | nil =>
      refine ⟨db, rfl, rfl, ?_, by simp⟩
      intro n
      by_cases hn : n = name
      · simp [hn, hdb]
      · simp [hn]
  | cons i is ih =>
      have hi := his i List.mem_cons_self
      have hmac : substring part i (i + maxSize) = some (slice part i (i + 6)) := by
        simp [substring, maxSize, hi]
      let next : VendorDB := { db with
        vendors := db.vendors.insert name (addresses ++ [toMacAddress (some (slice part i (i + 6)))])
        macs := db.macs.insert (slice part i (i + 6)) name }
      have hstep : loadMac name part db i = .ok next := by simp [loadMac, hmac, hdb, next]
      obtain ⟨db', hok, hloaded, hvendors, hmacs⟩ := ih (fun j hj => his j (List.mem_cons_of_mem i hj)) next
        (addresses ++ [toMacAddress (some (slice part i (i + 6)))]) (by simp [next])
      refine ⟨db', ?_, hloaded, ?_, ?_⟩
      · rw [List.foldlM_cons, hstep]
        exact hok
      · intro n
        rw [hvendors, getElem?_insert]
        by_cases hn : n = name <;> simp [hn]
      · intro m
        rw [hmacs, getElem?_insert]
        by_cases hm : m = slice part i (i + 6) <;> simp [hm]

def VendorLine.addresses (line : VendorLine) : List JString :=
  line.chunks.map fun oui => toMacAddress (some oui)

theorem loadLine_render (line : VendorLine) (db : VendorDB) :
    ∃ db', loadLine db line.render = .ok db' ∧ db'.loaded = db.loaded ∧
      (∀ n, db'.vendors[n]? = if line.name == n then some line.addresses else db.vendors[n]?) ∧
      ∀ m, db'.macs[m]? = if line.chunks.contains m then some line.name else db.macs[m]? := by
  obtain ⟨db', hok, hloaded, hvendors, hmacs⟩ := foldlM_loadMac line.name line.ouis
    (fun _ h => offset_in_range line h) { db with vendors := db.vendors.insert line.name [] } []
    (by simp)
  refine ⟨db', ?_, hloaded, ?_, ?_⟩
  · rw [loadLine, split_render]
    exact hok
  · intro n
    rw [hvendors, getElem?_insert]
    by_cases hn : n = line.name
    · subst hn
      simp [VendorLine.addresses, VendorLine.chunks, Function.comp_def]
    · have hn' : ¬ line.name = n := fun h => hn h.symm
      simp [hn, hn']
  · intro m
    rw [hmacs]
    simp only [List.contains_iff_mem]
    rfl

/-- Each name holds the addresses of its last line, and each OUI the name of the
last line that lists it. -/
theorem foldlM_loadLine (lines : List VendorLine) (db : VendorDB) :
    ∃ db', (lines.map VendorLine.render).foldlM loadLine db = .ok db' ∧ db'.loaded = db.loaded ∧
      (∀ n, db'.vendors[n]? =
        lastWrite (fun line => line.name == n) VendorLine.addresses db.vendors[n]? lines) ∧
      ∀ m, db'.macs[m]? =
        lastWrite (fun line => line.chunks.contains m) VendorLine.name db.macs[m]? lines := by
  induction lines generalizing db with
  | nil => exact ⟨db, rfl, rfl, fun _ => rfl, fun _ => rfl⟩
  | cons line lines ih =>
      obtain ⟨mid, hmid, hloaded, hvendors, hmacs⟩ := loadLine_render line db
      obtain ⟨db', hok, hloaded', hvendors', hmacs'⟩ := ih mid
      refine ⟨db', ?_, hloaded'.trans hloaded, ?_, ?_⟩
      · rw [List.map_cons, List.foldlM_cons, hmid]
        exact hok
      · intro n
        rw [hvendors', hvendors]
        rfl
      · intro m
        rw [hmacs', hmacs]
        rfl

theorem render_ne_nil (line : VendorLine) : line.render ≠ [] := by
  simp [VendorLine.render]

structure Holds (lines : List VendorLine) (db : VendorDB) : Prop where
  loaded : db.loaded = true
  vendors : ∀ n, db.vendors[n]? = lastWrite (fun line => line.name == n) VendorLine.addresses none lines
  macs : ∀ m, db.macs[m]? = lastWrite (fun line => line.chunks.contains m) VendorLine.name none lines

theorem load_table (lines : List VendorLine) (lineEnds : Nat) :
    ∃ db, load (tableText lines lineEnds) VendorDB.new = .ok db ∧ Holds lines db := by
  cases lines with
  | nil =>
      refine ⟨{ VendorDB.new with loaded := true }, ?_, rfl, fun _ => rfl, fun _ => rfl⟩
      cases lineEnds with
      | zero => rfl
      | succ k =>
          have hsplit : split 10 (tableText [] (k + 1)) = [] := split_separators 10 k
          rw [load, if_neg (by decide), hsplit]
          rfl
  | cons line lines =>
      have hsplit : split 10 (tableText (line :: lines) lineEnds) =
          (line :: lines).map VendorLine.render := by
        apply split_intercalate
        · simp
        · intro l hl
          obtain ⟨line, _, rfl⟩ := List.mem_map.1 hl
          exact render_plain line
        · intro l hl
          obtain ⟨line, _, rfl⟩ := List.mem_map.1 (List.mem_of_mem_getLast? hl)
          exact render_ne_nil line
      obtain ⟨db, hok, hloaded, hvendors, hmacs⟩ :=
        foldlM_loadLine (line :: lines) { VendorDB.new with loaded := true }
      refine ⟨db, ?_, hloaded, hvendors, hmacs⟩
      rw [load, if_neg (by decide), hsplit]
      exact hok

theorem load_loaded {text : JString} {db : VendorDB} (h : db.loaded = true) : load text db = .ok db := by
  rw [load, if_pos h]

def Ends (P : VendorDB → Prop) : Except VendorDB VendorDB → Prop
  | .ok db => P db
  | .error db => P db

theorem ends_foldlM {α : Type} {P : VendorDB → Prop} {f : VendorDB → α → Except VendorDB VendorDB}
    (hf : ∀ db a, P db → Ends P (f db a)) (l : List α) {db : VendorDB} (h : P db) :
    Ends P (l.foldlM f db) := by
  induction l generalizing db with
  | nil => exact h
  | cons a l ih =>
      have hstep := hf db a h
      rw [List.foldlM_cons]
      cases hfa : f db a with
      | ok db' =>
          rw [hfa] at hstep
          exact ih hstep
      | error db' =>
          rw [hfa] at hstep
          exact hstep

theorem ends_loaded_loadMac (name part : JString) (db : VendorDB) (i : Nat) (h : db.loaded = true) :
    Ends (fun db => db.loaded = true) (loadMac name part db i) := by
  rw [loadMac]
  cases substring part i (i + maxSize) with
  | none => exact h
  | some mac => exact h

theorem ends_loaded_loadLine (db : VendorDB) (data : JString) (h : db.loaded = true) :
    Ends (fun db => db.loaded = true) (loadLine db data) := by
  rw [loadLine]
  split
  · exact ends_foldlM (ends_loaded_loadMac _ _) _ h
  · exact h

theorem ends_loaded_load (text : JString) (db : VendorDB) :
    Ends (fun db => db.loaded = true) (load text db) := by
  rw [load]
  by_cases h : db.loaded
  · rw [if_pos h]
    exact h
  · rw [if_neg h]
    exact ends_foldlM ends_loaded_loadLine _ rfl

theorem load_load {text : JString} {db db' : VendorDB} (h : load text db = .ok db') :
    load text db' = .ok db' := by
  have hloaded := ends_loaded_load text db
  rw [h] at hloaded
  exact load_loaded hloaded

def Consulted (lines : List VendorLine) (db : VendorDB) : Prop := db = VendorDB.new ∨ Holds lines db

theorem load_consulted {lines : List VendorLine} {db : VendorDB} (h : Consulted lines db) (lineEnds : Nat) :
    ∃ db', load (tableText lines lineEnds) db = .ok db' ∧ Holds lines db' := by
  rcases h with rfl | h
  · exact load_table lines lineEnds
  · exact ⟨db, load_loaded h.loaded, h⟩

end SberWifi.Vendors
