import SberWifi.VendorLookup

namespace SberWifi.VendorSearch

open JavaString LastWrite TextFields Vendors VendorLookup

variable (locale : JLocale)

structure NamedTable where
  lines : List VendorLine
  names_upper : ∀ line ∈ lines, locale.toUpperCase line.name = line.name
  names_nodup : (lines.map VendorLine.name).Nodup

def colons (oui : JString) : JString := slice oui 0 2 ++ 58 :: (slice oui 2 4 ++ 58 :: slice oui 4 6)

def pluses (oui : JString) : JString :=
  slice oui 0 2 ++ str ": + " ++ slice oui 2 4 ++ str ": + " ++ slice oui 4 6

def Plain (g : JString) : Prop := 32 ∉ g ∧ 43 ∉ g ∧ 58 ∉ g.dropLast

instance : DecidablePred Plain := fun _ => inferInstanceAs (Decidable (_ ∧ _ ∧ _))

def Searches (lines : List VendorLine) (lineEnds : Nat) (prior : List Lookup) (filter : JString) : Prop :=
  ∃ names db, findVendors locale (tableText lines lineEnds)
      (prior.foldl (after locale (tableText lines lineEnds)) VendorDB.new) filter = .ok (names, db) ∧
    names.Pairwise (compare · · = .lt) ∧
    ∀ n, n ∈ names ↔ ∃ line ∈ lines, line.name = n ∧ (locale.toUpperCase filter <:+: n ∨
      ∃ oui, line.Lists oui ∧ locale.toUpperCase filter <:+: colons oui)

theorem not_upperHex : ¬ isUpperHex 32 ∧ ¬ isUpperHex 43 ∧ ¬ isUpperHex 58 := by decide

section Formats

variable {a b c d e f : UInt16} {g : JString} (hhex : ∀ x ∈ [a, b, c, d, e, f], isUpperHex x)

theorem infix_colons_iff (hg : Plain g) : g <:+: colons [a, b, c, d, e, f] ↔
    g <:+: [a, b, 58] ∨ g <:+: [c, d, 58] ∨ g <:+: [e, f] := by
  have hform : colons [a, b, c, d, e, f] = [a, b] ++ 58 :: ([c, d] ++ 58 :: [e, f]) := rfl
  rw [hform]
  exact (infix_separator_iff hg.2.2).trans (or_congr_right (infix_separator_iff hg.2.2))

theorem infix_pluses_iff (hg : Plain g) : g <:+: pluses [a, b, c, d, e, f] ↔
    g <:+: [a, b, 58] ∨ g <:+: [c, d, 58] ∨ g <:+: [e, f] := by
  have hform : pluses [a, b, c, d, e, f] =
      [a, b] ++ 58 :: ([32, 43, 32, c, d] ++ 58 :: [32, 43, 32, e, f]) := rfl
  obtain ⟨hblank, hplus, hcolon⟩ := hg
  have hstrip (y : JString) : g <:+: 32 :: 43 :: 32 :: y ↔ g <:+: y := by
    rw [infix_cons_of_not_mem hblank, infix_cons_of_not_mem hplus, infix_cons_of_not_mem hblank]
  rw [hform]
  refine (infix_separator_iff hcolon).trans (or_congr_right ((infix_separator_iff hcolon).trans ?_))
  exact or_congr (hstrip [c, d, 58]) (hstrip [e, f])

include hhex

theorem infix_colons (h : g <:+: colons [a, b, c, d, e, f]) : 32 ∉ g ∧ 43 ∉ g := by
  have hmem (x : UInt16) (hx : x ∈ g) : isUpperHex x ∨ x = 58 := by
    have hform : colons [a, b, c, d, e, f] = [a, b, 58, c, d, 58, e, f] := rfl
    have hx' : x ∈ [a, b, 58, c, d, 58, e, f] := hform ▸ h.subset hx
    by_cases hcolon : x = 58
    · exact .inr hcolon
    · refine .inl (hhex x ?_)
      simp only [List.mem_cons, List.not_mem_nil, or_false] at hx' ⊢
      tauto
  constructor
  · intro h32
    exact (hmem 32 h32).elim not_upperHex.1 (by decide)
  · intro h43
    exact (hmem 43 h43).elim not_upperHex.2.1 (by decide)

/-- In the formatter's text a blank follows each colon. -/
theorem infix_pluses (hcolon : 58 ∈ g.dropLast) (h : g <:+: pluses [a, b, c, d, e, f]) : 32 ∈ g := by
  have hform : pluses [a, b, c, d, e, f] = [a, b, 58, 32, 43, 32, c, d, 58, 32, 43, 32, e, f] := rfl
  have hne {x : UInt16} (hx : isUpperHex x) : ¬ 58 = x := by
    rintro rfl
    exact not_upperHex.2.2 hx
  obtain ⟨x, hx⟩ := exists_next hcolon
  have hx' : [58, x] <:+: [a, b, 58, 32, 43, 32, c, d, 58, 32, 43, 32, e, f] := hform ▸ hx.trans h
  simp only [List.forall_mem_cons] at hhex
  obtain ⟨ha, hb, hc, hd, he, hf, -⟩ := hhex
  have hblank : x = 32 := by
    simpa [List.infix_cons_iff, List.cons_prefix_cons, hne ha, hne hb, hne hc, hne hd, hne he, hne hf] using hx'
  exact hx.subset (by simp [hblank])

end Formats

theorem exists_letters {oui : JString} (h : oui.length = 6) : ∃ a b c d e f, oui = [a, b, c, d, e, f] := by
  match oui, h with
  | [a, b, c, d, e, f], _ => exact ⟨a, b, c, d, e, f, rfl⟩

theorem toMacAddress_eq {oui : JString} (h : oui.length = 6) : toMacAddress (some oui) = pluses oui := by
  obtain ⟨a, b, c, d, e, f, rfl⟩ := exists_letters h
  rfl

theorem formats_agree {oui g : JString} (hlen : oui.length = 6) (hg : Plain g) :
    g <:+: colons oui ↔ g <:+: pluses oui := by
  obtain ⟨a, b, c, d, e, f, rfl⟩ := exists_letters hlen
  rw [infix_colons_iff hg, infix_pluses_iff hg]

/-- A text that is not plain is a part of one form only, whatever the OUIs are. -/
theorem formats_exclusive {oui oui' g : JString} (hlen : oui.length = 6) (hhex : ∀ x ∈ oui, isUpperHex x)
    (hlen' : oui'.length = 6) (hhex' : ∀ x ∈ oui', isUpperHex x) (hg : ¬ Plain g)
    (hcolons : g <:+: colons oui) : ¬ g <:+: pluses oui' := by
  obtain ⟨a, b, c, d, e, f, rfl⟩ := exists_letters hlen
  obtain ⟨a', b', c', d', e', f', rfl⟩ := exists_letters hlen'
  intro hpluses
  obtain ⟨hblank, hplus⟩ := infix_colons hhex hcolons
  have hcolon : 58 ∈ g.dropLast := by
    by_contra hcolon
    exact hg ⟨hblank, hplus, hcolon⟩
  exact hblank (infix_pluses hhex' hcolon hpluses)

variable {locale}

def Answers (line : VendorLine) (g : JString) : Prop :=
  g <:+: line.name ∨ ¬ isBlank line.name ∧ ∃ oui, line.Lists oui ∧ g <:+: pluses oui

theorem finds_line_iff (table : NamedTable locale) {db : VendorDB} (h : Holds table.lines db)
    {line : VendorLine} (hline : line ∈ table.lines) (filter : JString) :
    finds locale db filter line.name ↔ Answers line (locale.toUpperCase filter) := by
  rw [finds, Bool.or_eq_true, stringContains, decide_eq_true_eq, List.any_eq_true, Answers]
  apply or_congr_right
  by_cases hblank : isBlank line.name
  · rw [addressesOf, if_pos hblank]
    constructor
    · rintro ⟨address, hmem, -⟩
      exact absurd hmem List.not_mem_nil
    · rintro ⟨hnot, -⟩
      exact absurd hblank hnot
  rw [addressesOf_line locale h table.names_nodup hline (table.names_upper line hline) hblank,
    and_iff_right hblank]
  constructor
  · rintro ⟨address, haddress, hcontains⟩
    obtain ⟨oui, houi, rfl⟩ := List.mem_map.1 haddress
    rw [stringContains, decide_eq_true_eq, toMacAddress_eq (length_of_lists (mem_chunks.1 houi))] at hcontains
    exact ⟨oui, mem_chunks.1 houi, hcontains⟩
  · rintro ⟨oui, houi, hcontains⟩
    refine ⟨_, List.mem_map.2 ⟨oui, mem_chunks.2 houi, rfl⟩, ?_⟩
    rwa [stringContains, decide_eq_true_eq, toMacAddress_eq (length_of_lists houi)]

theorem findVendors_names (table : NamedTable locale) (lineEnds : Nat) (prior : List Lookup)
    {filter : JString} (hfilter : ¬ isBlank filter) :
    ∃ db, Holds table.lines db ∧ findVendors locale (tableText table.lines lineEnds)
      (prior.foldl (after locale (tableText table.lines lineEnds)) VendorDB.new) filter =
        .ok (db.vendors.keys.filter (finds locale db filter), db) := by
  obtain ⟨db, hload, hholds⟩ := load_consulted (consulted_run locale table.lines lineEnds prior) lineEnds
  refine ⟨db, hholds, ?_⟩
  rw [findVendors_of_load locale hload, if_neg hfilter]

theorem mem_names_iff (table : NamedTable locale) {db : VendorDB} (h : Holds table.lines db)
    (filter n : JString) : n ∈ db.vendors.keys.filter (finds locale db filter) ↔
      ∃ line ∈ table.lines, line.name = n ∧ Answers line (locale.toUpperCase filter) := by
  rw [List.mem_filter, mem_vendor_keys h]
  constructor
  · rintro ⟨⟨line, hline, rfl⟩, hfinds⟩
    exact ⟨line, hline, rfl, (finds_line_iff table h hline filter).1 hfinds⟩
  · rintro ⟨line, hline, rfl, hfinds⟩
    exact ⟨⟨line, hline, rfl⟩, (finds_line_iff table h hline filter).2 hfinds⟩

/-- The line's name has the text, or the text is plain and the name is not
blank, or no OUI of the line has it in either form. In the formatter's form the
OUIs of a line with a blank name are never asked. -/
def Agrees (line : VendorLine) (g : JString) : Prop :=
  g <:+: line.name ∨ Plain g ∧ ¬ isBlank line.name ∨
    ∀ oui, line.Lists oui → ¬ g <:+: colons oui ∧ (¬ isBlank line.name → ¬ g <:+: pluses oui)

theorem line_agrees_iff (line : VendorLine) (g : JString) :
    (Answers line g ↔ g <:+: line.name ∨ ∃ oui, line.Lists oui ∧ g <:+: colons oui) ↔ Agrees line g := by
  rw [Answers, Agrees]
  by_cases hname : g <:+: line.name
  · simp only [hname, true_or]
  by_cases hblank : isBlank line.name
  · simp only [hname, hblank, false_or, not_true_eq_false, false_and, and_false, false_iff, not_exists,
      not_and, false_implies, and_true]
  by_cases hg : Plain g
  · have hforms : (∃ oui, line.Lists oui ∧ g <:+: pluses oui) ↔
        ∃ oui, line.Lists oui ∧ g <:+: colons oui := by
      apply exists_congr
      intro oui
      apply and_congr_right
      intro houi
      exact (formats_agree (length_of_lists houi) hg).symm
    simp only [hforms, hg, hblank, Bool.false_eq_true, not_false_eq_true, true_and, and_true, true_or, or_true]
  · have hexclusive (oui oui' : JString) (houi : line.Lists oui) (houi' : line.Lists oui') :
        g <:+: colons oui → ¬ g <:+: pluses oui' :=
      formats_exclusive (length_of_lists houi) (hex_of_lists houi) (length_of_lists houi')
        (hex_of_lists houi') hg
    simp only [hname, hg, hblank, Bool.false_eq_true, not_false_eq_true, false_or, true_and, false_and,
      true_implies]
    constructor
    · intro hsame oui houi
      constructor
      · intro hcolons
        obtain ⟨oui', houi', hpluses⟩ := hsame.2 ⟨oui, houi, hcolons⟩
        exact hexclusive oui oui' houi houi' hcolons hpluses
      · intro hpluses
        obtain ⟨oui', houi', hcolons⟩ := hsame.1 ⟨oui, houi, hpluses⟩
        exact hexclusive oui' oui houi' houi hcolons hpluses
    · intro hneither
      constructor
      · rintro ⟨oui, houi, hpluses⟩
        exact absurd hpluses (hneither oui houi).2
      · rintro ⟨oui, houi, hcolons⟩
        exact absurd hcolons (hneither oui houi).1

/-- A name stands for one line. -/
theorem exists_named_iff (table : NamedTable locale) {line : VendorLine} (hline : line ∈ table.lines)
    (P : VendorLine → Prop) : (∃ line' ∈ table.lines, line'.name = line.name ∧ P line') ↔ P line := by
  constructor
  · rintro ⟨line', hline', hname, h⟩
    obtain rfl := List.inj_on_of_nodup_map table.names_nodup hline' hline hname
    exact h
  · intro h
    exact ⟨line, hline, rfl, h⟩

/-- The search is right for a filter exactly when every line agrees on it. A text
with a colon before its end finds vendors by their names only. -/
theorem searches_iff (table : NamedTable locale) (lineEnds : Nat) (prior : List Lookup) (filter : JString)
    (hfilter : ¬ isBlank filter) :
    (Searches locale table.lines lineEnds prior filter ↔
      ∀ line ∈ table.lines, Agrees line (locale.toUpperCase filter)) ∧
    (58 ∈ (locale.toUpperCase filter).dropLast → 32 ∉ locale.toUpperCase filter → ∀ names db,
      findVendors locale (tableText table.lines lineEnds)
        (prior.foldl (after locale (tableText table.lines lineEnds)) VendorDB.new) filter = .ok (names, db) →
      ∀ n ∈ names, locale.toUpperCase filter <:+: n) := by
  obtain ⟨db, hholds, hok⟩ := findVendors_names table lineEnds prior hfilter
  have hnames := mem_names_iff table hholds filter
  rw [Searches, hok]
  refine ⟨⟨?_, ?_⟩, ?_⟩
  · rintro ⟨names, db', heq, -, hsearch⟩ line hline
    cases heq
    apply (line_agrees_iff line _).1
    have hsame := (hnames line.name).symm.trans (hsearch line.name)
    rw [exists_named_iff table hline, exists_named_iff table hline] at hsame
    exact hsame
  · intro h
    refine ⟨_, db, rfl, Std.TreeMap.ordered_keys.filter _, ?_⟩
    intro n
    rw [hnames]
    apply exists_congr
    intro line
    apply and_congr_right
    intro hline
    apply and_congr_right
    rintro rfl
    exact (line_agrees_iff line _).2 (h line hline)
  · intro hcolon hblank names db' heq n hn
    cases heq
    obtain ⟨line, hline, rfl, hname | ⟨-, oui, houi, hpluses⟩⟩ := (hnames n).1 hn
    · exact hname
    · obtain ⟨a, b, c, d, e, f, rfl⟩ := exists_letters (length_of_lists houi)
      exact absurd (infix_pluses (hex_of_lists houi) hcolon hpluses) hblank

def oneName : NamedTable .root where
  lines := oneVendor.lines
  names_upper := oneVendor.names_upper
  names_nodup := oneVendor.names_nodup

theorem searches_iff_oneName : Searches .root oneName.lines 1 [] (str "1606") ↔
    ∀ line ∈ oneName.lines, Agrees line (JLocale.root.toUpperCase (str "1606")) :=
  (searches_iff oneName 1 [] (str "1606") (by decide)).1

/-- The first two bytes of the vendor's own OUI. -/
theorem not_searches : ¬ Searches .root oneName.lines 1 [] (str "00:19") := by
  rintro ⟨names, db, hok, -, hsearch⟩
  obtain ⟨db', hholds, hok'⟩ := findVendors_names oneName 1 [] (show ¬ isBlank (str "00:19") by decide)
  cases Except.ok.inj (hok.symm.trans hok')
  have hfound := (hsearch (str "16063")).2
    ⟨_, List.mem_cons_self, rfl, .inr ⟨str "001974", ⟨0, by decide, rfl⟩, by decide⟩⟩
  obtain ⟨line, -, hname, hcontains | ⟨-, oui, houi, hpluses⟩⟩ :=
    (mem_names_iff oneName hholds _ _).1 hfound
  · rw [hname] at hcontains
    exact absurd hcontains (by decide)
  · obtain ⟨a, b, c, d, e, f, rfl⟩ := exists_letters (length_of_lists houi)
    have hblank := infix_pluses (hex_of_lists houi) (by decide) hpluses
    exact absurd hblank (by decide)

end SberWifi.VendorSearch
