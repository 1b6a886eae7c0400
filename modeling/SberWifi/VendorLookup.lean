import SberWifi.ScanData
import SberWifi.Vendors

namespace SberWifi.VendorLookup

open JavaString LastWrite TextFields ScanData Vendors

variable (locale : JLocale)

inductive Lookup
  | findVendorName (address : JString)
  | findMacAddresses (vendorName : JString)
  | findVendors (filter : JString)

def left {α : Type} : Except VendorDB (α × VendorDB) → VendorDB
  | .ok (_, db) => db
  | .error db => db

def after (text : JString) (db : VendorDB) : Lookup → VendorDB
  | .findVendorName address => left (findVendorName locale text db address)
  | .findMacAddresses vendorName => left (findMacAddresses locale text db vendorName)
  | .findVendors filter => left (findVendors locale text db filter)

section Loading

variable {text : JString} {db loaded : VendorDB}

theorem findVendorName_of_load (h : load text db = .ok loaded) (address : JString) :
    findVendorName locale text db address = .ok (loaded.macs[clean locale (some address)]?.getD [], loaded) := by
  rw [findVendorName, h]
  rfl

theorem findVendorName_of_error (h : load text db = .error loaded) (address : JString) :
    findVendorName locale text db address = .error loaded := by
  rw [findVendorName, h]
  rfl

def addressesOf (db : VendorDB) (vendorName : JString) : List JString :=
  if isBlank vendorName then [] else db.vendors[locale.toUpperCase vendorName]?.getD []

theorem findMacAddresses_loaded (h : db.loaded = true) (text vendorName : JString) :
    findMacAddresses locale text db vendorName = .ok (addressesOf locale db vendorName, db) := by
  rw [findMacAddresses, addressesOf]
  by_cases hb : isBlank vendorName
  · simp only [hb, if_true]
  · simp only [hb, load_loaded h]
    rfl

theorem select_ok {α ε : Type} {f : α → Except ε Bool} {p : α → Bool} {l : List α}
    (h : ∀ a ∈ l, f a = .ok (p a)) : select f l = .ok (l.filter p) := by
  induction l with
  | nil => rfl
  | cons a l ih =>
      rw [select, h a List.mem_cons_self, ih fun b hb => h b (List.mem_cons_of_mem a hb), List.filter_cons]
      rfl

def finds (db : VendorDB) (filter object : JString) : Bool :=
  stringContains (locale.toUpperCase filter) object ||
    (addressesOf locale db object).any (stringContains (locale.toUpperCase filter))

theorem findVendors_of_load (h : load text db = .ok loaded) (filter : JString) :
    findVendors locale text db filter = .ok (if isBlank filter then loaded.vendors.keys
      else loaded.vendors.keys.filter (finds locale loaded filter), loaded) := by
  have hloaded : loaded.loaded = true := by
    have hends := ends_loaded_load text db
    rwa [h] at hends
  have hselect : select (fun object =>
      if stringContains (locale.toUpperCase filter) object then .ok true
      else macContains locale text loaded (locale.toUpperCase filter) object) loaded.vendors.keys =
        .ok (loaded.vendors.keys.filter (finds locale loaded filter)) := by
    apply select_ok
    intro object _
    have hmacs : macContains locale text loaded (locale.toUpperCase filter) object =
        .ok ((addressesOf locale loaded object).any (stringContains (locale.toUpperCase filter))) := by
      rw [macContains, findMacAddresses_loaded locale hloaded]
      rfl
    rw [hmacs]
    by_cases hs : stringContains (locale.toUpperCase filter) object <;> simp [finds, hs]
  by_cases hb : isBlank filter
  · simp [findVendors, h, hb, bind, Except.bind, pure, Except.pure]
  · simp [findVendors, h, hb, bind, Except.bind, pure, Except.pure, hselect]

end Loading

theorem findVendorName_consulted {lines : List VendorLine} {db : VendorDB} (h : Consulted lines db)
    (lineEnds : Nat) (address : JString) :
    ∃ db', findVendorName locale (tableText lines lineEnds) db address =
      .ok ((lastWrite (fun line => line.chunks.contains (clean locale (some address))) VendorLine.name none
        lines).getD [], db') ∧ Holds lines db' := by
  obtain ⟨db', hload, hholds⟩ := load_consulted h lineEnds
  refine ⟨db', ?_, hholds⟩
  rw [← hholds.macs]
  exact findVendorName_of_load locale hload address

theorem consulted_after {lines : List VendorLine} {db : VendorDB} (h : Consulted lines db)
    (lineEnds : Nat) (lookup : Lookup) :
    Consulted lines (after locale (tableText lines lineEnds) db lookup) := by
  cases lookup with
  | findVendorName address =>
      obtain ⟨db', hok, hholds⟩ := findVendorName_consulted locale h lineEnds address
      rw [after, hok]
      exact .inr hholds
  | findMacAddresses vendorName =>
      rw [after, findMacAddresses]
      by_cases hb : isBlank vendorName
      · rw [if_pos hb]
        exact h
      · obtain ⟨db', hload, hholds⟩ := load_consulted h lineEnds
        rw [if_neg hb, hload]
        exact .inr hholds
  | findVendors filter =>
      obtain ⟨db', hload, hholds⟩ := load_consulted h lineEnds
      rw [after, findVendors_of_load locale hload]
      exact .inr hholds

theorem consulted_run (lines : List VendorLine) (lineEnds : Nat) (lookups : List Lookup) :
    Consulted lines (lookups.foldl (after locale (tableText lines lineEnds)) VendorDB.new) := by
  induction lookups using List.reverseRecOn with
  | nil => exact .inl rfl
  | append_singleton lookups lookup ih =>
      rw [List.foldl_append]
      exact consulted_after locale ih lineEnds lookup

/-- The service that scan data and reports ask: its answers come from the table
alone. -/
def vendorService (lines : List VendorLine) : VendorService where
  findVendorName address :=
    (lastWrite (fun line => line.chunks.contains (clean locale (some address))) VendorLine.name none
      lines).getD []

theorem vendorService_answers (lines : List VendorLine) (lineEnds : Nat) (prior : List Lookup)
    (address : JString) :
    ∃ db, findVendorName locale (tableText lines lineEnds)
      (prior.foldl (after locale (tableText lines lineEnds)) VendorDB.new) address =
        .ok ((vendorService locale lines).findVendorName address, db) := by
  obtain ⟨db, hok, -⟩ :=
    findVendorName_consulted locale (consulted_run locale lines lineEnds prior) lineEnds address
  exact ⟨db, hok⟩

theorem clean_of_ascii {address : JString} (h : ∀ c ∈ address, c < 128) :
    (clean locale (some address)).length = min (address.filter (· ≠ separator)).length 6 := by
  have hascii : ∀ c ∈ slice (address.filter (· ≠ separator)) 0
      (min (address.filter (· ≠ separator)).length maxSize), c < 128 := by
    intro c hc
    exact h c (List.mem_of_mem_filter (List.mem_of_mem_take (List.mem_of_mem_drop hc)))
  rw [clean, locale.toUpperCase_ascii _ hascii, List.length_map, length_slice (Nat.min_le_left _ _)]
  rfl

/-- After any lookups, the vendor of an address is the name on the last line
that lists its OUI. -/
theorem findVendorName_table (lines : List VendorLine) (lineEnds : Nat) (prior : List Lookup)
    (address : JString) :
    ∃ answer db', findVendorName locale (tableText lines lineEnds)
        (prior.foldl (after locale (tableText lines lineEnds)) VendorDB.new) address = .ok (answer, db') ∧
      let oui := locale.toUpperCase ((address.filter (· ≠ 58)).take 6)
      (∀ l₁ line l₂, lines = l₁ ++ line :: l₂ → line.Lists oui → (∀ x ∈ l₂, ¬ x.Lists oui) →
        answer = line.name) ∧
      ((∀ line ∈ lines, ¬ line.Lists oui) → answer = []) ∧
      (oui.length < 6 → answer = []) ∧
      ((∀ c ∈ address, c < 128) → (address.filter (· ≠ 58)).length < 6 → answer = []) := by
  obtain ⟨db', hok, -⟩ :=
    findVendorName_consulted locale (consulted_run locale lines lineEnds prior) lineEnds address
  have htake (s : JString) : slice s 0 (min s.length maxSize) = s.take 6 := by
    simp [slice, maxSize, List.take_eq_take_iff, Nat.min_comm]
  have hclean : clean locale (some address) = locale.toUpperCase ((address.filter (· ≠ 58)).take 6) :=
    congrArg locale.toUpperCase (htake _)
  have hascii (h : ∀ c ∈ address, c < 128) : _ := clean_of_ascii locale h
  rw [hclean] at hok hascii
  refine ⟨_, db', hok, ?_⟩
  intro oui
  have hlists (line : VendorLine) : line.chunks.contains oui ↔ line.Lists oui := by
    rw [List.contains_iff_mem, mem_chunks]
  have hnone (h : ∀ line ∈ lines, ¬ line.Lists oui) :
      (lastWrite (fun line => line.chunks.contains oui) VendorLine.name none lines).getD [] = [] := by
    rw [lastWrite_of_silent _ _ _ fun line hline hc => h line hline ((hlists line).1 hc)]
    rfl
  have hshort (h : oui.length < 6) : ∀ line ∈ lines, ¬ line.Lists oui := fun line _ hl => by
    have hlen := length_of_lists hl
    omega
  refine ⟨?_, hnone, fun h => hnone (hshort h), fun h hlen => hnone (hshort ?_)⟩
  · rintro l₁ line l₂ rfl hline hlast
    have hsilent : ∀ x ∈ l₂, ¬ x.chunks.contains oui := fun x hx hc => hlast x hx ((hlists x).1 hc)
    rw [lastWrite_of_last (fun line : VendorLine => line.chunks.contains oui) _ _
      ((hlists line).2 hline) hsilent]
    rfl
  · have h6 : oui.length = min (address.filter (· ≠ 58)).length 6 := hascii h
    omega

/-- A table in the shipped format: upper-case names that occur once, and OUIs
that are listed once. -/
structure VendorTable where
  lines : List VendorLine
  names_upper : ∀ line ∈ lines, locale.toUpperCase line.name = line.name
  names_not_blank : ∀ line ∈ lines, ¬ isBlank line.name
  names_nodup : (lines.map VendorLine.name).Nodup
  ouis_nodup : (lines.flatMap VendorLine.chunks).Nodup

/-- After loading, each vendor's addresses stand for its OUIs in file order,
lead back to the vendor, and cover every OUI of the vendor. -/
def IndexesInverse (lines : List VendorLine) (lineEnds : Nat) : Prop :=
  ∃ db names, load (tableText lines lineEnds) VendorDB.new = .ok db ∧
    findVendors locale (tableText lines lineEnds) db [] = .ok (names, db) ∧
    ∀ n ∈ names, ∃ addresses,
      findMacAddresses locale (tableText lines lineEnds) db n = .ok (addresses, db) ∧
      (∀ a ∈ addresses, findVendorName locale (tableText lines lineEnds) db a = .ok (n, db)) ∧
      (∀ line ∈ lines, line.name = n → addresses = line.addresses) ∧
      ∀ oui : JString, oui.length = 6 → (∀ c ∈ oui, isUpperHex c) →
        findVendorName locale (tableText lines lineEnds) db oui = .ok (n, db) →
        toMacAddress (some oui) ∈ addresses

theorem addressesOf_line {lines : List VendorLine} {db : VendorDB} (h : Holds lines db)
    (hnodup : (lines.map VendorLine.name).Nodup) {line : VendorLine} (hline : line ∈ lines)
    (hupper : locale.toUpperCase line.name = line.name) (hblank : ¬ isBlank line.name) :
    addressesOf locale db line.name = line.addresses := by
  obtain ⟨l₁, l₂, rfl⟩ := List.append_of_mem hline
  have hlater : ∀ x ∈ l₂, ¬ (x.name == line.name) = true := by
    intro x hx heq
    rw [List.map_append, List.map_cons] at hnodup
    have hnot := (List.nodup_cons.1 (List.nodup_append.1 hnodup).2.1).1
    exact hnot (List.mem_map.2 ⟨x, hx, eq_of_beq heq⟩)
  rw [addressesOf, if_neg hblank, hupper, h.vendors,
    lastWrite_of_last (fun x : VendorLine => x.name == line.name) _ _ (beq_self_eq_true _) hlater]
  rfl

theorem findMacAddresses_line (table : VendorTable locale) {db : VendorDB} (h : Holds table.lines db)
    (text : JString) {line : VendorLine} (hline : line ∈ table.lines) :
    findMacAddresses locale text db line.name = .ok (line.addresses, db) := by
  rw [findMacAddresses_loaded locale h.loaded, addressesOf_line locale h table.names_nodup hline
    (table.names_upper line hline) (table.names_not_blank line hline)]

theorem mem_vendor_keys {lines : List VendorLine} {db : VendorDB} (h : Holds lines db) {n : JString} :
    n ∈ db.vendors.keys ↔ ∃ line ∈ lines, line.name = n := by
  rw [Std.TreeMap.mem_keys, Std.TreeMap.mem_iff_isSome_getElem?, h.vendors]
  rcases lastWrite_cases (fun line => line.name == n) VendorLine.addresses none lines with
    ⟨hsilent, hnone⟩ | ⟨l₁, line, l₂, rfl, hline, -, hsome⟩
  · rw [hnone]
    refine ⟨fun h => absurd h (by simp), fun ⟨line, hl, hn⟩ => ?_⟩
    exact absurd (beq_iff_eq.2 hn) (hsilent line hl)
  · rw [hsome]
    exact ⟨fun _ => ⟨line, by simp, eq_of_beq hline⟩, fun _ => rfl⟩

/-- The formatter leaves a blank where the cleaner takes its third character. -/
theorem clean_toMacAddress {oui : JString} (hlen : oui.length = 6) (hhex : ∀ c ∈ oui, isUpperHex c) :
    32 ∈ clean locale (some (toMacAddress (some oui))) := by
  obtain ⟨a, b, c, d, e, f, rfl⟩ : ∃ a b c d e f, oui = [a, b, c, d, e, f] := by
    match oui, hlen with
    | [a, b, c, d, e, f], _ => exact ⟨a, b, c, d, e, f, rfl⟩
  have hne {x : UInt16} (hx : isUpperHex x) : x ≠ 58 := by
    rintro rfl
    exact absurd hx (by decide)
  have hlt {x : UInt16} (hx : isUpperHex x) : x < 128 := by
    simp only [isUpperHex, Bool.or_eq_true, Bool.and_eq_true, decide_eq_true_eq] at hx
    rcases hx with ⟨_, hx⟩ | ⟨_, hx⟩
    · exact UInt16.lt_of_le_of_lt hx (by decide)
    · exact UInt16.lt_of_le_of_lt hx (by decide)
  simp only [List.forall_mem_cons] at hhex
  obtain ⟨ha, hb, hc, hd, he, hf, -⟩ := hhex
  have hmac : toMacAddress (some [a, b, c, d, e, f]) =
      [a, b, 58, 32, 43, 32, c, d, 58, 32, 43, 32, e, f] := rfl
  have hfilter : [a, b, 58, 32, 43, 32, c, d, 58, 32, 43, 32, e, f].filter (· ≠ separator) =
      [a, b, 32, 43, 32, c, d, 32, 43, 32, e, f] := by
    simp [separator, hne ha, hne hb, hne hc, hne hd, hne he, hne hf]
  have hslice : slice [a, b, 32, 43, 32, c, d, 32, 43, 32, e, f] 0 (min 12 maxSize) =
      [a, b, 32, 43, 32, c] := rfl
  have hclean : clean locale (some (toMacAddress (some [a, b, c, d, e, f]))) =
      locale.toUpperCase [a, b, 32, 43, 32, c] := by
    rw [hmac, clean, hfilter]
    exact congrArg locale.toUpperCase hslice
  rw [hclean, locale.toUpperCase_ascii]
  · have h32 : (if (32 : UInt16) = 105 then locale.capitalI else asciiUpper 32) = 32 := if_neg (by decide)
    exact List.mem_map.2 ⟨32, by simp, h32⟩
  · simp [hlt ha, hlt hb, hlt hc]

theorem exists_listed (line : VendorLine) : ∃ oui, line.Lists oui :=
  ⟨_, 0, List.length_pos_iff.2 line.ouis_ne_nil, rfl⟩

theorem findVendorName_toMacAddress {lines : List VendorLine} {db : VendorDB} (h : Holds lines db)
    (lineEnds : Nat) {oui : JString} (hlen : oui.length = 6) (hhex : ∀ c ∈ oui, isUpperHex c) :
    findVendorName locale (tableText lines lineEnds) db (toMacAddress (some oui)) = .ok ([], db) := by
  have hblank := clean_toMacAddress locale hlen hhex
  have hsilent : ∀ line ∈ lines,
      ¬ line.chunks.contains (clean locale (some (toMacAddress (some oui)))) := by
    intro line _ hc
    have hlists := mem_chunks.1 (List.contains_iff_mem.1 hc)
    exact absurd (hex_of_lists hlists 32 hblank) (by decide)
  rw [findVendorName, load_loaded h.loaded]
  change Except.ok (db.macs[clean locale (some (toMacAddress (some oui)))]?.getD [], db) = _
  rw [h.macs, lastWrite_of_silent _ _ _ hsilent]
  rfl

theorem findVendors_all {lines : List VendorLine} {db : VendorDB} (h : Holds lines db) (text : JString) :
    findVendors locale text db [] = .ok (db.vendors.keys, db) :=
  findVendors_of_load locale (load_loaded h.loaded) []

theorem not_indexesInverse_of_mem (table : VendorTable locale) (lineEnds : Nat) {line : VendorLine}
    (hline : line ∈ table.lines) : ¬ IndexesInverse locale table.lines lineEnds := by
  obtain ⟨db, hload, hholds⟩ := load_table table.lines lineEnds
  have hall := findVendors_all locale hholds (tableText table.lines lineEnds)
  rintro ⟨db', names, hload', hnames, hvendors⟩
  cases Except.ok.inj (hload.symm.trans hload')
  cases Except.ok.inj (hall.symm.trans hnames)
  obtain ⟨oui, hlists⟩ := exists_listed line
  obtain ⟨addresses, haddresses, hback, -⟩ :=
    hvendors line.name ((mem_vendor_keys hholds).2 ⟨line, hline, rfl⟩)
  rw [findMacAddresses_line locale table hholds _ hline] at haddresses
  cases Except.ok.inj haddresses
  have hname := hback (toMacAddress (some oui)) (List.mem_map.2 ⟨oui, mem_chunks.2 hlists, rfl⟩)
  rw [findVendorName_toMacAddress locale hholds lineEnds (length_of_lists hlists) (hex_of_lists hlists)]
    at hname
  have hnil : [] = line.name := congrArg Prod.fst (Except.ok.inj hname)
  exact table.names_not_blank line hline (by rw [← hnil]; rfl)

theorem indexesInverse_iff (table : VendorTable locale) (lineEnds : Nat) :
    IndexesInverse locale table.lines lineEnds ↔ table.lines = [] := by
  constructor
  · intro h
    by_contra hne
    obtain ⟨line, hline⟩ := List.exists_mem_of_ne_nil _ hne
    exact not_indexesInverse_of_mem locale table lineEnds hline h
  · intro hnil
    obtain ⟨db, hload, hholds⟩ := load_table table.lines lineEnds
    refine ⟨db, db.vendors.keys, hload, findVendors_all locale hholds _, ?_⟩
    intro n hn
    obtain ⟨line, hline, -⟩ := (mem_vendor_keys hholds).1 hn
    rw [hnil] at hline
    exact absurd hline List.not_mem_nil

def oneVendor : VendorTable .root where
  lines := [⟨str "16063", str "001974", forall_mem_of_all (by decide), forall_mem_of_all (by decide),
    by decide, by decide⟩]
  names_upper := by decide
  names_not_blank := by decide
  names_nodup := by decide
  ouis_nodup := by decide

theorem not_indexesInverse : ¬ IndexesInverse .root oneVendor.lines 1 :=
  not_indexesInverse_of_mem .root oneVendor 1 List.mem_cons_self

end SberWifi.VendorLookup
