import SberWifi.VendorLoading

namespace SberWifi.VendorRetry

open JavaString TextFields Vendors VendorLookup VendorLoading Runs

/-- How a read of the resource goes: it throws, it comes short, or it gives all
of the text. -/
inductive Read
  | failed
  | short
  | whole
deriving DecidableEq, Repr

def readFile (text : JString) : Read → JString
  | .failed => []
  | .short => []
  | .whole => text

structure Attempt where
  read : Read
  lookup : Lookup

variable (locale : JLocale) (text : JString)

def step (db : VendorDB) (a : Attempt) : VendorDB := after locale (readFile text a.read) db a.lookup

def FailedLoad (db : VendorDB) (a : Attempt) : Prop :=
  consults a.lookup ∧ db.loaded = false ∧ (a.read ≠ .whole ∨ ∃ db', load text db = .error db')

def Complete (db : VendorDB) (a : Attempt) : Prop :=
  ∃ table, load text VendorDB.new = .ok table ∧ step locale text db a = table

def Recovers (attempts : List Attempt) : Prop :=
  ∀ before a mid b rest, attempts = before ++ a :: (mid ++ b :: rest) →
    FailedLoad text (run (step locale text) .new before) a →
    consults b.lookup → b.read = .whole →
    Answers locale (readFile text b.read) (run (step locale text) .new (before ++ a :: mid)) b.lookup →
    Complete locale text (run (step locale text) .new (before ++ a :: mid)) b

def emptyTable : VendorDB := { VendorDB.new with loaded := true }

theorem load_nothing : load [] VendorDB.new = .ok emptyTable := rfl

theorem ends_mem_loadMac (name other part : JString) (db : VendorDB) (i : Nat) (h : name ∈ db.vendors) :
    Ends (fun db => name ∈ db.vendors) (loadMac other part db i) := by
  rw [loadMac]
  cases substring part i (i + maxSize) with
  | none => exact h
  | some mac => exact Std.TreeMap.mem_insert.2 (.inr h)

theorem ends_mem_loadLine (name : JString) (db : VendorDB) (data : JString) (h : name ∈ db.vendors) :
    Ends (fun db => name ∈ db.vendors) (loadLine db data) := by
  rw [loadLine]
  split
  · exact ends_foldlM (ends_mem_loadMac name _ _) _ (Std.TreeMap.mem_insert.2 (.inr h))
  · exact h

/-- A line of two fields leaves its name in the table. -/
theorem mem_vendors_of_loadLine {name part data : JString} (hsplit : split 124 data = [name, part])
    (db : VendorDB) : Ends (fun db => name ∈ db.vendors) (loadLine db data) := by
  rw [loadLine, hsplit]
  exact ends_foldlM (ends_mem_loadMac name name part) _ Std.TreeMap.mem_insert_self

theorem mem_vendors_of_foldlM {name part data : JString} (hsplit : split 124 data = [name, part])
    {lines : List JString} (hdata : data ∈ lines) {db table : VendorDB}
    (hok : lines.foldlM loadLine db = .ok table) : name ∈ table.vendors := by
  induction lines generalizing db with
  | nil => exact absurd hdata List.not_mem_nil
  | cons head lines ih =>
      rw [List.foldlM_cons] at hok
      cases hhead : loadLine db head with
      | error db' =>
          rw [hhead] at hok
          cases hok
      | ok db' =>
          rw [hhead] at hok
          rcases List.mem_cons.1 hdata with rfl | hdata
          · have hmem := mem_vendors_of_loadLine hsplit db
            rw [hhead] at hmem
            have hends := ends_foldlM (ends_mem_loadLine name) lines hmem
            change lines.foldlM loadLine db' = _ at hok
            rwa [hok] at hends
          · exact ih hdata hok

theorem load_eq_emptyTable_iff : load text VendorDB.new = .ok emptyTable ↔
    ∀ data ∈ split 10 text, ∀ name part, split 124 data ≠ [name, part] := by
  rw [load, if_neg (by decide)]
  constructor
  · intro hok data hdata name part hsplit
    exact Std.TreeMap.not_mem_emptyc (mem_vendors_of_foldlM hsplit hdata hok)
  · intro h
    have hnone : (split 10 text).filter (fun _ => false) = [] := by
      rw [List.filter_eq_nil_iff]
      exact fun _ _ => Bool.false_ne_true
    rw [← foldlM_filter (p := fun _ => false) fun data hdata _ => loadLine_other (h data hdata), hnone]
    rfl

section Runs

variable {locale text} {db : VendorDB} {a : Attempt}

theorem step_consults (h : consults a.lookup) (db : VendorDB) :
    step locale text db a = settled (load (readFile text a.read) db) :=
  after_of_consults locale h

theorem loaded_step (h : consults a.lookup) (db : VendorDB) : (step locale text db a).loaded = true := by
  have hends := ends_loaded_load (readFile text a.read) db
  rw [step_consults h]
  cases hload : load (readFile text a.read) db with
  | ok db' =>
      rw [hload] at hends
      exact hends
  | error db' =>
      rw [hload] at hends
      exact hends

theorem step_loaded (h : db.loaded = true) (a : Attempt) : step locale text db a = db := by
  by_cases hc : consults a.lookup
  · rw [step_consults hc, load_loaded h]
    rfl
  · exact after_of_not_consults locale hc

theorem run_loaded (h : db.loaded = true) (attempts : List Attempt) :
    run (step locale text) db attempts = db := by
  induction attempts with
  | nil => rfl
  | cons a attempts ih => rw [run_cons, step_loaded h, ih]

theorem run_silent {attempts : List Attempt} (h : ∀ a ∈ attempts, ¬ consults a.lookup) (db : VendorDB) :
    run (step locale text) db attempts = db := by
  induction attempts with
  | nil => rfl
  | cons a attempts ih =>
      rw [List.forall_mem_cons] at h
      have hstep : step locale text db a = db := after_of_not_consults locale h.1
      rw [run_cons, hstep, ih h.2]

theorem silent_of_not_loaded {attempts : List Attempt}
    (h : (run (step locale text) db attempts).loaded = false) : ∀ a ∈ attempts, ¬ consults a.lookup := by
  intro a ha hc
  obtain ⟨before, rest, rfl⟩ := List.append_of_mem ha
  rw [run_append, run_cons, run_loaded (loaded_step hc _), loaded_step hc] at h
  cases h

/-- Whatever a failed load has left behind stays. -/
theorem run_after_consults (hc : consults a.lookup) {before : List Attempt}
    (hbefore : ∀ a ∈ before, ¬ consults a.lookup) (mid : List Attempt) :
    run (step locale text) VendorDB.new (before ++ a :: mid) =
      settled (load (readFile text a.read) VendorDB.new) := by
  rw [run_append, run_silent hbefore, run_cons, run_loaded (loaded_step hc _), step_consults hc]

theorem complete_iff (hc : consults a.lookup) {before : List Attempt}
    (hbefore : ∀ a ∈ before, ¬ consults a.lookup) (mid : List Attempt) (b : Attempt) :
    Complete locale text (run (step locale text) .new (before ++ a :: mid)) b ↔
      load text VendorDB.new = .ok (settled (load (readFile text a.read) VendorDB.new)) := by
  have hstep : step locale text .new a = settled (load (readFile text a.read) .new) := step_consults hc _
  have hloaded : (settled (load (readFile text a.read) VendorDB.new)).loaded = true := by
    rw [← hstep]
    exact loaded_step hc _
  rw [Complete, run_after_consults hc hbefore, step_loaded hloaded]
  constructor
  · rintro ⟨table, hok, rfl⟩
    exact hok
  · intro hok
    exact ⟨_, hok, rfl⟩

/-- What stays after a failed load is complete only if there was nothing to load. -/
theorem complete_iff_of_failed (hc : consults a.lookup) {before : List Attempt}
    (hbefore : ∀ a ∈ before, ¬ consults a.lookup) (mid : List Attempt) (b : Attempt)
    (hfailed : a.read ≠ .whole ∨ ∃ db, load text VendorDB.new = .error db) :
    Complete locale text (run (step locale text) .new (before ++ a :: mid)) b ↔
      ∀ data ∈ split 10 text, ∀ name part, split 124 data ≠ [name, part] := by
  rw [complete_iff hc hbefore, ← load_eq_emptyTable_iff]
  by_cases hw : a.read = .whole
  · obtain ⟨db, herror⟩ := hfailed.resolve_left (not_not.2 hw)
    rw [hw, readFile, herror]
    exact iff_of_false (by simp) (by simp)
  · have hnothing : readFile text a.read = [] := by
      cases hr : a.read with
      | failed => rfl
      | short => rfl
      | whole => exact absurd hr hw
    rw [hnothing, load_nothing]
    rfl

end Runs

theorem failed_iff (read : Read) :
    (read ≠ .whole ∨ ∃ db, load text VendorDB.new = .error db) ↔ ¬ (read = .whole ∧ Parses text) := by
  rw [not_and_or, ← load_new_ok_iff]
  apply or_congr_right
  cases load text VendorDB.new with
  | ok table => simp
  | error db => simp

theorem filter_consults {a : Attempt} {before after : List Attempt}
    (hbefore : ∀ a ∈ before, ¬ consults a.lookup) (ha : consults a.lookup) :
    (before ++ a :: after).filter (fun a => consults a.lookup) =
      a :: after.filter fun a => consults a.lookup :=
  List.filter_eq_cons_iff.2 ⟨before, after, rfl, hbefore, ha, rfl⟩

/-- A run recovers exactly when the first lookup that looks at the table can
read and parse the resource, or no later one could read it, or the resource
lists no vendor at all. -/
theorem recovers_iff (attempts : List Attempt) : Recovers locale text attempts ↔
    ∀ a rest, attempts.filter (fun a => consults a.lookup) = a :: rest →
      (a.read = .whole ∧ Parses text) ∨ (∀ b ∈ rest, b.read ≠ .whole) ∨
        ∀ data ∈ split 10 text, ∀ name part, split 124 data ≠ [name, part] := by
  constructor
  · intro h a rest hfilter
    obtain ⟨before, after, rfl, hbefore, ha, rfl⟩ := List.filter_eq_cons_iff.1 hfilter
    by_cases hloads : a.read = .whole ∧ Parses text
    · exact .inl hloads
    refine .inr (or_iff_not_imp_left.2 fun hread => ?_)
    push Not at hread
    obtain ⟨b, hb, hwhole⟩ := hread
    obtain ⟨hb, hbc⟩ := List.mem_filter.1 hb
    obtain ⟨mid, rest, rfl⟩ := List.append_of_mem hb
    have hfails := (failed_iff text a.read).2 hloads
    have hfailed : FailedLoad text (run (step locale text) .new before) a := by
      rw [run_silent hbefore]
      exact ⟨ha, rfl, hfails⟩
    have hanswers : Answers locale (readFile text b.read)
        (run (step locale text) .new (before ++ a :: mid)) b.lookup := by
      apply answers_of_load locale (load_loaded _)
      rw [run_append, run_cons, run_loaded (loaded_step ha _)]
      exact loaded_step ha _
    have hcomplete := h before a mid b rest rfl hfailed hbc hwhole hanswers
    exact (complete_iff_of_failed ha hbefore mid b hfails).1 hcomplete
  · rintro h before a mid b rest rfl ⟨ha, hloaded, hfailed⟩ hb hread -
    have hbefore := silent_of_not_loaded hloaded
    rw [run_silent hbefore] at hfailed
    rw [complete_iff_of_failed ha hbefore mid b hfailed]
    rcases h a _ (filter_consults hbefore ha) with hloads | hnone | hempty
    · exact absurd hloads ((failed_iff text a.read).1 hfailed)
    · exact absurd hread (hnone b (List.mem_filter.2 ⟨by simp, hb⟩))
    · exact hempty

def failedOnce : List Attempt :=
  [⟨.failed, .findVendorName (str "00:19:74:00:00:01")⟩, ⟨.whole, .findVendorName (str "00:19:74:00:00:01")⟩]

theorem not_recovers : ¬ Recovers .root (str "16063|001974") failedOnce := by
  intro h
  obtain ⟨table, hok, hstep⟩ := h [] ⟨.failed, .findVendorName (str "00:19:74:00:00:01")⟩ []
    ⟨.whole, .findVendorName (str "00:19:74:00:00:01")⟩ [] rfl ⟨rfl, rfl, .inl (by decide)⟩ rfl rfl
    (answers_of_load .root (load_loaded rfl) _)
  have hempty : load (str "16063|001974") VendorDB.new = .ok emptyTable := hok.trans (congrArg _ hstep.symm)
  exact (load_eq_emptyTable_iff _).1 hempty (str "16063|001974") (by decide) (str "16063") (str "001974")
    (by decide)

end SberWifi.VendorRetry
