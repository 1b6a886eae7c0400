import SberWifi.BracketTokens
import SberWifi.JavaString

namespace SberWifi.Capabilities

open JavaString BracketTokens

inductive Security
  | NONE
  | WPS
  | WEP
  | WPA
  | WPA2
deriving DecidableEq, Repr

def Security.values : List Security := [.NONE, .WPS, .WEP, .WPA, .WPA2]

def Security.name : Security → JString
  | .NONE => str "NONE"
  | .WPS => str "WPS"
  | .WEP => str "WEP"
  | .WPA => str "WPA"
  | .WPA2 => str "WPA2"

/-- `none` is the IllegalArgumentException for a name that no constant has. -/
def Security.valueOf (value : JString) : Option Security := Security.values.find? fun s => s.name = value

/-- A TreeSet of constants is walked in the order of their declaration. -/
def treeSet (added : List Security) : List Security := Security.values.filter fun s => s ∈ added

section Locale

variable (locale : JLocale)

def findAll (capabilities : Option JString) : List Security :=
  match capabilities with
  | none => treeSet []
  | some capabilities =>
      let replaced := replace (str "]") [] (replace (str "][") (str "-") (locale.toUpperCase capabilities))
      let values := fields 45 (replace (str "[") [] replaced)
      treeSet (values.filterMap Security.valueOf)

/-- The set of all values is walked in an order that is not fixed. -/
def findOne (values : List Security) (capabilities : JString) : Security :=
  (values.find? fun s => s ∈ findAll locale (some capabilities)).getD .NONE

end Locale

def marks : JString := str "[]-"

/-- Neither brackets nor the hyphen have a case, and what stands on one side of
them has no part in how the other side is upper-cased. -/
structure KeepsMarks (locale : JLocale) : Prop where
  append : ∀ c ∈ marks, ∀ s t,
    locale.toUpperCase (s ++ c :: t) = locale.toUpperCase s ++ c :: locale.toUpperCase t
  not_mem : ∀ c ∈ marks, ∀ s, c ∉ s → c ∉ locale.toUpperCase s

theorem asciiUpper_mark : ∀ c ∈ marks, asciiUpper c = c := forall_mem_of_all (by decide)

theorem eq_of_asciiUpper_eq_mark {c d : UInt16} (hc : c ∈ marks) (h : asciiUpper d = c) : d = c := by
  rw [asciiUpper] at h
  split_ifs at h with hd
  · have hdiff := UInt16.sub_add_cancel d 32
    rw [h] at hdiff
    have hnot : ¬ (97 ≤ c + 32 ∧ c + 32 ≤ 122) :=
      forall_mem_of_all (p := fun c => ¬ (97 ≤ c + 32 ∧ c + 32 ≤ 122)) (by decide) c hc
    rw [hdiff] at hnot
    exact absurd hd hnot
  · exact h

theorem keepsMarks_root : KeepsMarks .root where
  append c hc s t := by
    simp [JLocale.root, asciiUpper_mark c hc]
  not_mem c hc s hs := by
    intro hmem
    obtain ⟨d, hd, hupper⟩ := List.mem_map.1 hmem
    exact hs (eq_of_asciiUpper_eq_mark hc hupper ▸ hd)

theorem valueOf_eq_some {value : JString} {s : Security} :
    Security.valueOf value = some s ↔ s.name = value := by
  constructor
  · intro h
    simpa using List.find?_some h
  · rintro rfl
    cases s <;> decide

theorem name_ne_nil (s : Security) : s.name ≠ [] := by
  cases s <;> decide

section Tokens

variable {locale : JLocale}

theorem toUpperCase_nil (locale : JLocale) : locale.toUpperCase [] = [] :=
  locale.toUpperCase_ascii [] (by simp)

theorem toUpperCase_intercalate (hmarks : KeepsMarks locale) (g : List JString) :
    locale.toUpperCase (List.intercalate [45] g) = List.intercalate [45] (g.map locale.toUpperCase) := by
  induction g with
  | nil => exact toUpperCase_nil locale
  | cons t g ih =>
      cases g with
      | nil => simp
      | cons u g =>
          rw [List.intercalate_cons_cons, List.append_assoc, List.singleton_append,
            hmarks.append 45 (by decide), ih]
          simp

def renderGroups (groups : List (List JString)) : JString := render 91 93 45 groups

theorem toUpperCase_render (hmarks : KeepsMarks locale) (groups : List (List JString)) :
    locale.toUpperCase (renderGroups groups) =
      renderGroups (groups.map fun g => g.map locale.toUpperCase) := by
  induction groups with
  | nil => exact toUpperCase_nil locale
  | cons g groups ih =>
      have hopening := hmarks.append 91 (by decide) []
      have hclosing := hmarks.append 93 (by decide)
      have hgroup : renderGroups (g :: groups) =
          [] ++ 91 :: (List.intercalate [45] g ++ 93 :: renderGroups groups) := by
        simp [renderGroups, render]
      rw [hgroup, hopening, hclosing, toUpperCase_intercalate hmarks, ih, toUpperCase_nil]
      simp [renderGroups, render]

/-- Each value is found exactly when a token spells its name, wherever the
tokens stand and whatever stands next to them. -/
theorem findAll_renderGroups (hmarks : KeepsMarks locale) (groups : List (List JString))
    (hfree : ∀ g ∈ groups, ∀ t ∈ g, ∀ c ∈ marks, c ∉ t) :
    findAll locale (some (renderGroups groups)) =
      Security.values.filter fun s => ∃ g ∈ groups, ∃ t ∈ g, locale.toUpperCase t = s.name := by
  have hfree' : ∀ g ∈ groups.map fun g => g.map locale.toUpperCase, ∀ t ∈ g, Free 91 93 45 t := by
    intro g' hg' t' ht'
    obtain ⟨g, hg, rfl⟩ := List.mem_map.1 hg'
    obtain ⟨t, ht, rfl⟩ := List.mem_map.1 ht'
    have h := fun c hc => hmarks.not_mem c hc t (hfree g hg t ht c hc)
    exact ⟨h 91 (by decide), h 93 (by decide), h 45 (by decide)⟩
  rw [findAll, toUpperCase_render hmarks, treeSet]
  apply List.filter_congr
  intro s _
  have hfields := mem_fields_unwrap_render (by decide) (by decide) (by decide) hfree' (name_ne_nil s)
  rw [decide_eq_decide, List.mem_filterMap]
  constructor
  · rintro ⟨value, hvalue, hs⟩
    obtain rfl := valueOf_eq_some.1 hs
    obtain ⟨g', hg', hname⟩ := hfields.1 hvalue
    obtain ⟨g, hg, rfl⟩ := List.mem_map.1 hg'
    obtain ⟨t, ht, hupper⟩ := List.mem_map.1 hname
    exact ⟨g, hg, t, ht, hupper⟩
  · rintro ⟨g, hg, t, ht, hupper⟩
    refine ⟨s.name, hfields.2 ⟨_, List.mem_map_of_mem hg, ?_⟩, valueOf_eq_some.2 rfl⟩
    exact List.mem_map.2 ⟨t, ht, hupper⟩

theorem findAll_renderGroups_root :
    findAll .root (some (renderGroups [[str "wpa2", str "PSK", str "CCMP"], [], [str "WPS2", str "", str "wps"]])) =
      [.WPS, .WPA2] := by
  have hfree : [[str "wpa2", str "PSK", str "CCMP"], [], [str "WPS2", str "", str "wps"]].all fun g =>
      g.all fun t => marks.all fun c => !t.contains c := by decide
  simp only [List.all_eq_true, Bool.not_eq_true', List.contains_eq_mem, decide_eq_false_iff_not] at hfree
  rw [findAll_renderGroups keepsMarks_root _ hfree]
  decide

end Tokens

section Walk

variable {locale : JLocale} {values : List Security} {capabilities : JString}

def Walks (values : List Security) : Prop := values.Perm Security.values

theorem nodup_treeSet (added : List Security) : (treeSet added).Nodup :=
  List.filter_sublist.nodup (by decide)

theorem nodup_findAll (locale : JLocale) (capabilities : Option JString) :
    (findAll locale capabilities).Nodup := by
  cases capabilities with
  | none => exact nodup_treeSet _
  | some capabilities => exact nodup_treeSet _

/-- The value is the first of those found that the walk comes to. -/
theorem findOne_mem (hvalues : Walks values) (h : findAll locale (some capabilities) ≠ []) :
    findOne locale values capabilities ∈ findAll locale (some capabilities) := by
  obtain ⟨s, hs⟩ := List.exists_mem_of_ne_nil _ h
  have hmem : s ∈ values := hvalues.mem_iff.2 (by cases s <;> decide)
  rw [findOne]
  cases hfind : values.find? fun s => s ∈ findAll locale (some capabilities) with
  | none => exact absurd (decide_eq_true hs) (List.find?_eq_none.1 hfind s hmem)
  | some t =>
      have ht := List.find?_some hfind
      exact of_decide_eq_true ht

theorem findOne_of_eq_nil (values : List Security) (h : findAll locale (some capabilities) = []) :
    findOne locale values capabilities = .NONE := by
  have hnone : (values.find? fun s => s ∈ findAll locale (some capabilities)) = none :=
    List.find?_eq_none.2 fun s _ => by simp [h]
  rw [findOne, hnone]
  rfl

theorem findOne_cons {s : Security} (hs : s ∈ findAll locale (some capabilities)) (rest : List Security) :
    findOne locale (s :: rest) capabilities = s := by
  simp [findOne, hs]

/-- The same value for every order of the walk, and one of those that
`findAll` gives or NONE where it gives none. -/
def WellDefined (locale : JLocale) (capabilities : JString) : Prop :=
  (∀ values values', Walks values → Walks values' →
    findOne locale values capabilities = findOne locale values' capabilities) ∧
  ∀ values, Walks values →
    (findOne locale values capabilities ∈ findAll locale (some capabilities) ∨
      findAll locale (some capabilities) = [] ∧ findOne locale values capabilities = .NONE)

theorem not_wellDefined_wpa2 :
    ¬ ∀ (locale : JLocale) (capabilities : JString), WellDefined locale capabilities := by
  intro h
  have hother : Walks [.NONE, .WPS, .WEP, .WPA2, .WPA] := by
    unfold Walks
    decide
  have hsame := (h .root (str "[WPA-PSK-CCMP][WPA2-PSK-CCMP][ESS]")).1 Security.values _ (.refl _) hother
  exact absurd hsame (by decide)

theorem wellDefined_iff (locale : JLocale) (capabilities : JString) :
    WellDefined locale capabilities ↔ (findAll locale (some capabilities)).length ≤ 1 := by
  constructor
  · rintro ⟨hsame, -⟩
    by_contra hlen
    have hnodup := nodup_findAll locale (some capabilities)
    rcases hl : findAll locale (some capabilities) with _ | ⟨s, _ | ⟨t, rest⟩⟩
    · simp [hl] at hlen
    · simp [hl] at hlen
    · have hs : s ∈ findAll locale (some capabilities) := by simp [hl]
      have ht : t ∈ findAll locale (some capabilities) := by simp [hl]
      -- a walk may come to either of them first
      have hfirst : ∀ u : Security, Walks (u :: Security.values.erase u) := by
        intro u
        exact (List.perm_cons_erase (by cases u <;> decide)).symm
      have h := hsame _ _ (hfirst s) (hfirst t)
      rw [findOne_cons hs, findOne_cons ht] at h
      rw [hl, h] at hnodup
      exact (List.nodup_cons.1 hnodup).1 List.mem_cons_self
  · intro hlen
    refine ⟨?_, ?_⟩
    · intro values values' hvalues hvalues'
      by_cases hnil : findAll locale (some capabilities) = []
      · rw [findOne_of_eq_nil values hnil, findOne_of_eq_nil values' hnil]
      · obtain ⟨s, hs⟩ := List.length_eq_one_iff.1 (le_antisymm hlen (List.length_pos_iff.2 hnil))
        have h := findOne_mem hvalues hnil
        have h' := findOne_mem hvalues' hnil
        rw [hs, List.mem_singleton] at h h'
        rw [h, h']
    · intro values hvalues
      by_cases hnil : findAll locale (some capabilities) = []
      · exact .inr ⟨hnil, findOne_of_eq_nil values hnil⟩
      · exact .inl (findOne_mem hvalues hnil)

end Walk

end SberWifi.Capabilities
