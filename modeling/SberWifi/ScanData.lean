import SberWifi.Comparators
import SberWifi.KeyGroups
import Mathlib.Data.List.Pairwise

namespace SberWifi.ScanData

open JavaString Band Detail Comparators StableSort KeyGroups

structure DeviceInfo where
  model : JString
  version : JString
  mac : JString
  ip : JString
deriving DecidableEq, Repr

structure WiFiData where
  wiFiDetails : List WiFiDetail
  wiFiConnection : WiFiConnection
  device : DeviceInfo

structure VendorService where
  findVendorName : JString → JString

variable (locale : JLocale) (vendorService : VendorService)

def WiFiData.isConnection (data : WiFiData) (wiFiDetail : WiFiDetail) : Bool :=
  data.wiFiConnection.ssid == wiFiDetail.SSID && data.wiFiConnection.bssid == wiFiDetail.bssid

def WiFiData.copyWiFiDetail (data : WiFiData) (wiFiDetail : WiFiDetail) : WiFiDetail :=
  wiFiDetail.copy ⟨vendorService.findVendorName wiFiDetail.bssid, data.wiFiConnection⟩

def WiFiData.getConnection (data : WiFiData) : WiFiDetail :=
  match data.wiFiDetails.find? data.isConnection with
  | none => .empty
  | some wiFiDetail => data.copyWiFiDetail vendorService wiFiDetail

def WiFiData.transform (data : WiFiData) (input : WiFiDetail) : WiFiDetail :=
  let connection := data.getConnection vendorService
  if input.equals connection then connection
  else input.copy { vendorName := vendorService.findVendorName input.bssid }

def WiFiData.select (data : WiFiData) (predicate : WiFiDetail → Bool) : List WiFiDetail :=
  (data.wiFiDetails.filter predicate).map (data.transform vendorService)

def sortChildren (sortBy : SortBy) (group : KeyGroup WiFiDetail) : KeyGroup WiFiDetail :=
  { group with children := sort (sortBy.comparator locale) group.children }

def groupStep (sortBy : SortBy) (groupBy : GroupBy)
    (loop : List (KeyGroup WiFiDetail) × Option (KeyGroup WiFiDetail)) (wiFiDetail : WiFiDetail) :
    List (KeyGroup WiFiDetail) × Option (KeyGroup WiFiDetail) :=
  match loop with
  | (results, none) => (results, some ⟨wiFiDetail, []⟩)
  | (results, some parent) =>
      if groupBy.groupByComparator locale parent.parent wiFiDetail ≠ .eq then
        (results ++ [sortChildren locale sortBy parent], some ⟨wiFiDetail, []⟩)
      else (results, some { parent with children := parent.children ++ [wiFiDetail] })

def byParent (cmp : WiFiDetail → WiFiDetail → Ordering) (lhs rhs : KeyGroup WiFiDetail) : Ordering :=
  cmp lhs.parent rhs.parent

def sortAndGroup (wiFiDetails : List WiFiDetail) (sortBy : SortBy) (groupBy : GroupBy) :
    List (KeyGroup WiFiDetail) :=
  let sorted := sort (groupBy.sortOrderComparator locale) wiFiDetails
  let (results, parent) := sorted.foldl (groupStep locale sortBy groupBy) ([], none)
  let results := results ++ parent.toList.map (sortChildren locale sortBy)
  sort (byParent (sortBy.comparator locale)) results

/-- `getWiFiDetails` with an order and a grouping. An entry of the result is
shown with the children it has. -/
def WiFiData.getWiFiDetails (data : WiFiData) (predicate : WiFiDetail → Bool) (sortBy : SortBy)
    (groupBy : GroupBy) : List (KeyGroup WiFiDetail) :=
  let results := data.select vendorService predicate
  let results :=
    if results ≠ [] ∧ GroupBy.NONE ≠ groupBy then sortAndGroup locale results sortBy groupBy
    else results.map fun d => ⟨d, []⟩
  sort (byParent (sortBy.comparator locale)) results

def SameKey (groupBy : GroupBy) (a b : WiFiDetail) : Prop :=
  match groupBy with
  | .NONE => a.equals b
  | .SSID => upperSSID locale a = upperSSID locale b
  | .CHANNEL => primaryChannel a = primaryChannel b

structure Partitions (sortBy : SortBy) (groupBy : GroupBy) (selected : List WiFiDetail)
    (result : List (KeyGroup WiFiDetail)) : Prop where
  members : (result.flatMap KeyGroup.members).Perm selected
  together : ∀ x ∈ selected, ∀ y ∈ selected,
    (∃ g ∈ result, x ∈ g.members ∧ y ∈ g.members) ↔ SameKey locale groupBy x y
  parent_level : ∀ g ∈ result, ∀ c ∈ g.children, level c ≤ level g.parent
  sorted : Ordered (sortBy.comparator locale) (result.map KeyGroup.parent)
  children_sorted : ∀ g ∈ result, Ordered (sortBy.comparator locale) g.children

instance (sortBy : SortBy) : Std.TransCmp (byParent (sortBy.comparator locale)) where
  eq_swap {a b} := @Std.OrientedCmp.eq_swap _ (sortBy.comparator locale) _ a.parent b.parent
  isLE_trans {a b c} := @Std.TransCmp.isLE_trans _ (sortBy.comparator locale) _ a.parent b.parent c.parent

def sameGroup (groupBy : GroupBy) (a b : WiFiDetail) : Bool := groupBy.groupByComparator locale a b = .eq

/-- The loop closes its groups in the order of `groups`, and sorts each when it
is closed. -/
theorem foldl_groupStep (sortBy : SortBy) (groupBy : GroupBy) (results : List (KeyGroup WiFiDetail))
    (parent : KeyGroup WiFiDetail) (l : List WiFiDetail) :
    let final := l.foldl (groupStep locale sortBy groupBy) (results, some parent)
    final.1 ++ final.2.toList.map (sortChildren locale sortBy) =
      results ++ (groups (sameGroup locale groupBy) parent l).map (sortChildren locale sortBy) := by
  induction l generalizing results parent with
  | nil => simp [groups]
  | cons a l ih =>
      by_cases h : groupBy.groupByComparator locale parent.parent a = .eq
      · simpa [groupStep, groups, sameGroup, h] using
          ih results { parent with children := parent.children ++ [a] }
      · simpa [groupStep, groups, sameGroup, h] using
          ih (results ++ [sortChildren locale sortBy parent]) ⟨a, []⟩

theorem sortAndGroup_perm {wiFiDetails : List WiFiDetail} (sortBy : SortBy) {groupBy : GroupBy}
    {a : WiFiDetail} {l : List WiFiDetail}
    (h : sort (groupBy.sortOrderComparator locale) wiFiDetails = a :: l) :
    (sortAndGroup locale wiFiDetails sortBy groupBy).Perm
      ((groups (sameGroup locale groupBy) ⟨a, []⟩ l).map (sortChildren locale sortBy)) := by
  have hfold := foldl_groupStep locale sortBy groupBy [] ⟨a, []⟩ l
  rw [List.nil_append] at hfold
  rw [← hfold, sortAndGroup, h]
  exact sort_perm _ _

theorem sortChildren_members_perm (sortBy : SortBy) (g : KeyGroup WiFiDetail) :
    (sortChildren locale sortBy g).members.Perm g.members :=
  (sort_perm _ _).cons _

theorem sortAndGroup_members (wiFiDetails : List WiFiDetail) (sortBy : SortBy) (groupBy : GroupBy) :
    ((sortAndGroup locale wiFiDetails sortBy groupBy).flatMap KeyGroup.members).Perm wiFiDetails := by
  have hperm := sort_perm (groupBy.sortOrderComparator locale) wiFiDetails
  cases hsorted : sort (groupBy.sortOrderComparator locale) wiFiDetails with
  | nil =>
      rw [hsorted] at hperm
      cases hperm.symm.eq_nil
      exact List.Perm.refl _
  | cons a l =>
      rw [hsorted] at hperm
      refine ((sortAndGroup_perm locale sortBy hsorted).flatMap_right _).trans ?_
      rw [List.flatMap_map]
      refine (List.Perm.flatMap_left _ fun g _ => sortChildren_members_perm locale sortBy g).trans ?_
      rw [groups_members]
      exact hperm

theorem mem_sortAndGroup {wiFiDetails : List WiFiDetail} {sortBy : SortBy} {groupBy : GroupBy}
    {g : KeyGroup WiFiDetail} (hg : g ∈ sortAndGroup locale wiFiDetails sortBy groupBy) :
    ∃ a l, sort (groupBy.sortOrderComparator locale) wiFiDetails = a :: l ∧
      ∃ g' ∈ groups (sameGroup locale groupBy) ⟨a, []⟩ l, sortChildren locale sortBy g' = g := by
  cases hsorted : sort (groupBy.sortOrderComparator locale) wiFiDetails with
  | nil =>
      have hperm := sort_perm (groupBy.sortOrderComparator locale) wiFiDetails
      rw [hsorted] at hperm
      cases hperm.symm.eq_nil
      exact absurd hg List.not_mem_nil
  | cons a l =>
      exact ⟨a, l, rfl, List.mem_map.1 ((sortAndGroup_perm locale sortBy hsorted).mem_iff.1 hg)⟩

theorem sortAndGroup_sorted (wiFiDetails : List WiFiDetail) (sortBy : SortBy) (groupBy : GroupBy) :
    Ordered (byParent (sortBy.comparator locale)) (sortAndGroup locale wiFiDetails sortBy groupBy) :=
  sort_ordered _ _

theorem sortAndGroup_children_sorted {wiFiDetails : List WiFiDetail} {sortBy : SortBy} {groupBy : GroupBy}
    {g : KeyGroup WiFiDetail} (hg : g ∈ sortAndGroup locale wiFiDetails sortBy groupBy) :
    Ordered (sortBy.comparator locale) g.children := by
  obtain ⟨a, l, _, g', _, rfl⟩ := mem_sortAndGroup locale hg
  exact sort_ordered _ _

theorem level_le_of_isLE {a b : WiFiDetail} (h : (flip (compareOn level) a b).isLE) : level b ≤ level a :=
  Std.isLE_compare.1 h

/-- Both groupings order by their key first and by falling level next, and
group by the key. -/
structure GroupsByKey {κ : Type} [Ord κ] (groupBy : GroupBy) (key : WiFiDetail → κ)
    (rest : WiFiDetail → WiFiDetail → Ordering) : Prop where
  order : groupBy.sortOrderComparator locale =
    compareLex (compareOn key) (compareLex (flip (compareOn level)) rest)
  group : groupBy.groupByComparator locale = compareOn key
  sameKey : ∀ a b, SameKey locale groupBy a b ↔ key a = key b

section Key

variable {κ : Type} [Ord κ] [Std.LawfulEqOrd κ] {key : WiFiDetail → κ}
  {rest : WiFiDetail → WiFiDetail → Ordering} {groupBy : GroupBy} {wiFiDetails : List WiFiDetail}
  {sortBy : SortBy} (hkey : GroupsByKey locale groupBy key rest)

include hkey

theorem sameGroup_iff (a b : WiFiDetail) : sameGroup locale groupBy a b ↔ key a = key b := by
  simp [sameGroup, hkey.group, compareOn]

theorem sortAndGroup_key {g : KeyGroup WiFiDetail} (hg : g ∈ sortAndGroup locale wiFiDetails sortBy groupBy)
    {x : WiFiDetail} (hx : x ∈ g.members) : key x = key g.parent := by
  obtain ⟨a, l, _, g', hg', rfl⟩ := mem_sortAndGroup locale hg
  rcases List.mem_cons.1 ((sortChildren_members_perm locale sortBy g').mem_iff.1 hx) with rfl | hx
  · rfl
  · exact groups_same_key (sameGroup_iff locale hkey) ⟨a, []⟩ (by simp) hg' x hx

variable [Std.TransOrd κ] [Std.TransCmp rest]

omit [Std.LawfulEqOrd κ] in
theorem sortOrder_ordered (wiFiDetails : List WiFiDetail) : Ordered (groupBy.sortOrderComparator locale)
    (sort (groupBy.sortOrderComparator locale) wiFiDetails) := by
  have htrans : Std.TransCmp (groupBy.sortOrderComparator locale) := by
    rw [hkey.order]
    infer_instance
  exact sort_ordered _ _

/-- Within a key the order is by falling level, so a parent is the strongest of
its group. -/
theorem sortAndGroup_parent_level {g : KeyGroup WiFiDetail}
    (hg : g ∈ sortAndGroup locale wiFiDetails sortBy groupBy) :
    ∀ c ∈ g.children, level c ≤ level g.parent := by
  have hk : ∀ x ∈ g.members, key x = key g.parent := fun _ => sortAndGroup_key locale hkey hg
  have hordered := sortOrder_ordered locale hkey wiFiDetails
  obtain ⟨a, l, hsorted, g', hg', rfl⟩ := mem_sortAndGroup locale hg
  rw [hsorted, hkey.order] at hordered
  intro c hc
  have hle := groups_parent _ ⟨a, []⟩ hordered hg' c ((mem_sort _).1 hc)
  have he : compareOn key g'.parent c = .eq := by
    rw [compareOn, Std.LawfulEqOrd.compare_eq_iff_eq]
    exact (hk c (List.mem_cons_of_mem _ hc)).symm
  exact level_le_of_isLE (isLE_of_lex _ _ (isLE_second_of_lex _ _ hle he))

theorem sortAndGroup_key_injective {g₁ g₂ : KeyGroup WiFiDetail}
    (h₁ : g₁ ∈ sortAndGroup locale wiFiDetails sortBy groupBy)
    (h₂ : g₂ ∈ sortAndGroup locale wiFiDetails sortBy groupBy) (hk : key g₁.parent = key g₂.parent) :
    g₁ = g₂ := by
  have hordered := sortOrder_ordered locale hkey wiFiDetails
  obtain ⟨a, l, hsorted, g₁', hg₁, rfl⟩ := mem_sortAndGroup locale h₁
  obtain ⟨a', l', hsorted', g₂', hg₂, rfl⟩ := mem_sortAndGroup locale h₂
  obtain ⟨rfl, rfl⟩ := List.cons.inj (hsorted.symm.trans hsorted')
  rw [hsorted, hkey.order] at hordered
  have hlt := groups_keys_increase (sameGroup_iff locale hkey) ⟨a, []⟩
    (hordered.imp fun h => isLE_of_lex (compareOn key) _ h)
  have hsymm : Std.Symm fun g g' : KeyGroup WiFiDetail => key g.parent = key g'.parent → g = g' :=
    ⟨fun _ _ h he => (h he.symm).symm⟩
  have hsame := hlt.imp fun {g g'} h (he : key g.parent = key g'.parent) =>
    show g = g' by rw [he, Std.ReflOrd.compare_self] at h; cases h
  rw [hsame.forall_of_forall (fun _ _ _ => rfl) hg₁ hg₂ hk]

theorem sortAndGroup_together {x y : WiFiDetail} (hx : x ∈ wiFiDetails) (hy : y ∈ wiFiDetails) :
    (∃ g ∈ sortAndGroup locale wiFiDetails sortBy groupBy, x ∈ g.members ∧ y ∈ g.members) ↔
      key x = key y := by
  constructor
  · rintro ⟨g, hg, hx, hy⟩
    rw [sortAndGroup_key locale hkey hg hx, sortAndGroup_key locale hkey hg hy]
  · intro h
    have hmem := sortAndGroup_members locale wiFiDetails sortBy groupBy
    obtain ⟨g, hg, hxg⟩ := List.mem_flatMap.1 (hmem.mem_iff.2 hx)
    obtain ⟨g', hg', hyg⟩ := List.mem_flatMap.1 (hmem.mem_iff.2 hy)
    have he : g = g' := sortAndGroup_key_injective locale hkey hg hg' (by
      rw [← sortAndGroup_key locale hkey hg hxg, h, sortAndGroup_key locale hkey hg' hyg])
    subst he
    exact ⟨g, hg, hxg, hyg⟩

theorem sortAndGroup_partitions :
    Partitions locale sortBy groupBy wiFiDetails (sortAndGroup locale wiFiDetails sortBy groupBy) where
  members := sortAndGroup_members locale wiFiDetails sortBy groupBy
  together x hx y hy := (sortAndGroup_together locale hkey hx hy).trans (hkey.sameKey x y).symm
  parent_level _ hg := sortAndGroup_parent_level locale hkey hg
  sorted := List.pairwise_map.2 (sortAndGroup_sorted locale wiFiDetails sortBy groupBy)
  children_sorted _ hg := sortAndGroup_children_sorted locale hg

end Key

theorem groupsByKey_ssid : GroupsByKey locale .SSID (upperSSID locale) (compareOn (upperBSSID locale)) :=
  ⟨rfl, rfl, fun _ _ => Iff.rfl⟩

theorem groupsByKey_channel : GroupsByKey locale .CHANNEL primaryChannel
    (compareLex (compareOn (upperSSID locale)) (compareOn (upperBSSID locale))) :=
  ⟨rfl, rfl, fun _ _ => Iff.rfl⟩

theorem partitions (wiFiDetails : List WiFiDetail) (sortBy : SortBy) {groupBy : GroupBy}
    (hgroup : groupBy ≠ .NONE) :
    Partitions locale sortBy groupBy wiFiDetails (sortAndGroup locale wiFiDetails sortBy groupBy) := by
  cases groupBy with
  | NONE => exact absurd rfl hgroup
  | SSID => exact sortAndGroup_partitions locale (groupsByKey_ssid locale)
  | CHANNEL => exact sortAndGroup_partitions locale (groupsByKey_channel locale)

/-- The second sort finds the list sorted. -/
theorem getWiFiDetails_eq (data : WiFiData) (predicate : WiFiDetail → Bool) (sortBy : SortBy)
    {groupBy : GroupBy} (hgroup : groupBy ≠ .NONE) :
    data.getWiFiDetails locale vendorService predicate sortBy groupBy =
      sortAndGroup locale (data.select vendorService predicate) sortBy groupBy := by
  rw [WiFiData.getWiFiDetails]
  by_cases hempty : data.select vendorService predicate = []
  · simp only [hempty]
    rfl
  · rw [if_pos ⟨hempty, hgroup.symm⟩]
    exact sort_eq_self _ (sortAndGroup_sorted locale _ sortBy groupBy)

theorem isConnection_iff (data : WiFiData) (d : WiFiDetail) : data.isConnection d ↔
    d.SSID = data.wiFiConnection.ssid ∧ d.bssid = data.wiFiConnection.bssid := by
  rw [WiFiData.isConnection, Bool.and_eq_true, beq_iff_eq, beq_iff_eq, eq_comm, @eq_comm _ d.bssid]

theorem eq_of_bssid {l : List WiFiDetail} (h : (l.map WiFiDetail.bssid).Nodup) {a b : WiFiDetail}
    (ha : a ∈ l) (hb : b ∈ l) (he : a.bssid = b.bssid) : a = b :=
  List.inj_on_of_nodup_map h ha hb he

theorem transform_copy {data : WiFiData} (hbssid : ∀ d ∈ data.wiFiDetails, d.bssid ≠ [])
    (hdistinct : (data.wiFiDetails.map WiFiDetail.bssid).Nodup) {d : WiFiDetail} (hd : d ∈ data.wiFiDetails) :
    ∃ additional, data.transform vendorService d = d.copy additional := by
  rw [WiFiData.transform]
  by_cases h : d.equals (data.getConnection vendorService)
  · rw [if_pos h]
    have he := ((WiFiDetail.equals_iff _ _).1 h).2
    rw [WiFiData.getConnection] at he ⊢
    cases hfind : data.wiFiDetails.find? data.isConnection with
    | none =>
        rw [hfind] at he
        exact absurd he (hbssid d hd)
    | some found =>
        rw [hfind] at he
        have hsame : d = found := eq_of_bssid hdistinct hd (List.mem_of_find?_eq_some hfind) he
        subst hsame
        exact ⟨_, rfl⟩
  · rw [if_neg h]
    exact ⟨_, rfl⟩

theorem select_nodup {data : WiFiData} (hbssid : ∀ d ∈ data.wiFiDetails, d.bssid ≠ [])
    (hdistinct : (data.wiFiDetails.map WiFiDetail.bssid).Nodup) (predicate : WiFiDetail → Bool) :
    (data.select vendorService predicate).Nodup := by
  have hsub : (data.wiFiDetails.filter predicate).Sublist data.wiFiDetails := List.filter_sublist
  apply List.Nodup.of_map WiFiDetail.bssid
  have hmap : (data.select vendorService predicate).map WiFiDetail.bssid =
      (data.wiFiDetails.filter predicate).map WiFiDetail.bssid := by
    rw [WiFiData.select, List.map_map]
    apply List.map_congr_left
    intro d hd
    obtain ⟨additional, h⟩ := transform_copy vendorService hbssid hdistinct (hsub.subset hd)
    rw [Function.comp_apply, h, copy_bssid]
  rw [hmap]
  exact hdistinct.sublist (hsub.map _)

theorem getWiFiDetails_partitions (data : WiFiData) (hbssid : ∀ d ∈ data.wiFiDetails, d.bssid ≠ [])
    (hdistinct : (data.wiFiDetails.map WiFiDetail.bssid).Nodup) (predicate : WiFiDetail → Bool)
    (sortBy : SortBy) (groupBy : GroupBy) (hgroup : groupBy ≠ .NONE) :
    let selected := (data.wiFiDetails.filter predicate).map (data.transform vendorService)
    (∀ d ∈ data.wiFiDetails, ∃ additional, data.transform vendorService d = d.copy additional) ∧
      selected.Nodup ∧
      Partitions locale sortBy groupBy selected
        (data.getWiFiDetails locale vendorService predicate sortBy groupBy) := by
  refine ⟨fun d hd => transform_copy vendorService hbssid hdistinct hd,
    select_nodup vendorService hbssid hdistinct predicate, ?_⟩
  rw [getWiFiDetails_eq locale vendorService data predicate sortBy hgroup]
  exact partitions locale _ sortBy hgroup

def twoRouters : WiFiData where
  wiFiDetails := [
    { ssid := str "home", bssid := str "00:11:22:33:44:55", capabilities := [],
      wiFiSignal := ⟨2412, 2412, .MHZ_20, -70, false⟩ },
    { ssid := str "Home", bssid := str "00:11:22:33:44:66", capabilities := [],
      wiFiSignal := ⟨2437, 2437, .MHZ_20, -50, false⟩ }]
  wiFiConnection := .empty
  device := ⟨[], [], [], []⟩

theorem getWiFiDetails_partitions_twoRouters :
    let selected := twoRouters.wiFiDetails.map (twoRouters.transform ⟨fun _ => []⟩)
    selected.Nodup ∧ Partitions .root .STRENGTH .SSID selected
      (twoRouters.getWiFiDetails .root ⟨fun _ => []⟩ (fun _ => true) .STRENGTH .SSID) :=
  (getWiFiDetails_partitions .root ⟨fun _ => []⟩ twoRouters (by decide) (by decide) (fun _ => true)
    .STRENGTH .SSID (by decide)).2

end SberWifi.ScanData
