import Mathlib.Data.List.Induction
import SberWifi.Runs
import SberWifi.ScanData

namespace SberWifi.TappedRow

open JavaString Detail ScanData Runs

abbrev View := Nat

/-- The header rows of the list, the view of the main connection that was made
last, whether it is in the list or not, and how many views were inflated. -/
structure WiFiFragment where
  headerViews : List View
  mainConnect : Option View
  inflated : View
  mainConnect_lt : ∀ v ∈ mainConnect, v < inflated

def WiFiFragment.removeHeaderView (f : WiFiFragment) (v : Option View) : WiFiFragment :=
  match v with
  | none => f
  | some v => { f with headerViews := f.headerViews.erase v }

def setMainConnect (f : WiFiFragment) (wiFiConnection : WiFiConnection) : WiFiFragment :=
  let removed := f.removeHeaderView f.mainConnect
  if !wiFiConnection.equals .empty then
    let mainConnect := removed.inflated
    { headerViews := removed.headerViews ++ [mainConnect], mainConnect := some mainConnect,
      inflated := removed.inflated + 1, mainConnect_lt := by simp [mainConnect] }
  else removed

/-- The list is a new one with one header; the fragment may have shown another
list before. -/
def onCreateView (f : WiFiFragment) (wiFiData : WiFiData) : WiFiFragment :=
  let header := f.inflated
  let list : WiFiFragment :=
    { f with
      headerViews := [header], inflated := f.inflated + 1,
      mainConnect_lt := fun v hv => Nat.lt_succ_of_lt (f.mainConnect_lt v hv) }
  setMainConnect list wiFiData.wiFiConnection

def getItem (items : List WiFiDetail) (index : Int) : Option WiFiDetail :=
  if index < 0 then none else items[index.toNat]?

inductive Tapped
  | nothing
  | details (item : WiFiDetail)
  | indexOutOfBounds
deriving DecidableEq

def onItemClick (f : WiFiFragment) (items : List WiFiDetail) (position : Nat) : Tapped :=
  let item :=
    if f.headerViews.length > 0 then getItem items ((position : Int) - 2)
    else getItem items ((position : Int) - 1)
  match item with
  | some item => .details item
  | none => .indexOutOfBounds

inductive Row
  | header
  | item (i : Nat)
deriving DecidableEq

/-- The rows of a ListView: the headers, then the items of the adapter. -/
def displayed (f : WiFiFragment) (position : Nat) : Row :=
  if position < f.headerViews.length then .header else .item (position - f.headerViews.length)

def OpensTapped (f : WiFiFragment) (items : List WiFiDetail) (position : Nat) : Prop :=
  match displayed f position with
  | .header => onItemClick f items position = .nothing
  | .item i => ∃ item, items[i]? = some item ∧ onItemClick f items position = .details item

inductive Shows : WiFiFragment → Bool → Prop
  | alone {f : WiFiFragment} {header : View} (hlist : f.headerViews = [header])
      (hlt : header < f.inflated) (hne : f.mainConnect ≠ some header) : Shows f false
  | connected {f : WiFiFragment} {header v : View} (hlist : f.headerViews = [header, v])
      (hmain : f.mainConnect = some v) (hlt : header < f.inflated) (hne : v ≠ header) : Shows f true

theorem removed_shows {f : WiFiFragment} {b : Bool} (h : Shows f b) :
    Shows (f.removeHeaderView f.mainConnect) false := by
  cases h with
  | @alone header hlist hlt hne =>
      cases hmain : f.mainConnect with
      | none => exact .alone hlist hlt hne
      | some v =>
          rw [hmain] at hne
          have hv : v ≠ header := fun h => hne (congrArg some h)
          have hlist' : (f.removeHeaderView (some v)).headerViews = [header] := by
            simp [WiFiFragment.removeHeaderView, hlist, hv.symm]
          exact .alone hlist' hlt (by simpa [WiFiFragment.removeHeaderView, hmain] using hv)
  | @connected header v hlist hmain hlt hne =>
      have hlist' : (f.removeHeaderView f.mainConnect).headerViews = [header] := by
        simp [WiFiFragment.removeHeaderView, hmain, hlist, hne.symm]
      refine .alone hlist' ?_ ?_
      · simpa [WiFiFragment.removeHeaderView, hmain] using hlt
      · simpa [WiFiFragment.removeHeaderView, hmain] using hne

theorem setMainConnect_shows {f : WiFiFragment} {b : Bool} (h : Shows f b) (wiFiConnection : WiFiConnection) :
    Shows (setMainConnect f wiFiConnection) (!wiFiConnection.equals .empty) := by
  have hremoved := removed_shows h
  rw [setMainConnect]
  split_ifs with hc
  · rw [hc]
    cases hremoved with
    | alone hlist hlt hne =>
        exact .connected (by simp [hlist]) rfl (Nat.lt_succ_of_lt hlt) (Nat.ne_of_gt hlt)
  · rw [Bool.not_eq_true] at hc
    rw [hc]
    exact hremoved

def shown (f : WiFiFragment) (wiFiData : WiFiData) (history : List WiFiConnection) : WiFiFragment :=
  run setMainConnect (onCreateView f wiFiData) history

/-- The connection of the last call of `setMainConnect`; the first call is made
by `onCreateView`. -/
def lastConnection (wiFiData : WiFiData) (history : List WiFiConnection) : WiFiConnection :=
  history.getLast?.getD wiFiData.wiFiConnection

theorem shown_shows (f : WiFiFragment) (wiFiData : WiFiData) (history : List WiFiConnection) :
    Shows (shown f wiFiData history) (!(lastConnection wiFiData history).equals .empty) := by
  induction history using List.reverseRecOn with
  | nil =>
      apply setMainConnect_shows (b := false)
      refine .alone rfl (Nat.lt_succ_self _) fun h => ?_
      exact absurd (f.mainConnect_lt _ h) (Nat.lt_irrefl _)
  | append_singleton history c ih =>
      rw [shown, run_append, lastConnection, List.getLast?_append]
      exact setMainConnect_shows ih c

theorem length_headerViews {f : WiFiFragment} {b : Bool} (h : Shows f b) :
    f.headerViews.length = if b then 2 else 1 := by
  cases h <;> simp [*]

/-- With any header the handler counts two rows above the items. The first two
rows lead it out of the adapter. -/
theorem onItemClick_low {f : WiFiFragment} {b : Bool} (h : Shows f b) (items : List WiFiDetail)
    {position : Nat} (hlow : position < 2) : onItemClick f items position = .indexOutOfBounds := by
  have hheaders : f.headerViews.length > 0 := by
    rw [length_headerViews h]
    cases b <;> decide
  rw [onItemClick, if_pos hheaders, getItem, if_pos (by omega)]

theorem onItemClick_high {f : WiFiFragment} {b : Bool} (h : Shows f b) {items : List WiFiDetail}
    {position : Nat} (hhigh : 2 ≤ position) {item : WiFiDetail} (hitem : items[position - 2]? = some item) :
    onItemClick f items position = .details item := by
  have hheaders : f.headerViews.length > 0 := by
    rw [length_headerViews h]
    cases b <;> decide
  have hindex : ((position : Int) - 2).toNat = position - 2 := by omega
  rw [onItemClick, if_pos hheaders, getItem, if_neg (by omega), hindex, hitem]

theorem opensTapped_iff_of_shows {f : WiFiFragment} {b : Bool} (h : Shows f b) (items : List WiFiDetail)
    {position : Nat} (hposition : position < f.headerViews.length + items.length) :
    OpensTapped f items position ↔
      2 ≤ position ∧ (b = true ∨ items[position - 2]? = items[position - 1]?) := by
  have hlength := length_headerViews h
  by_cases hlow : position < 2
  · have hclick := onItemClick_low h items hlow
    rw [OpensTapped, hclick]
    refine iff_of_false ?_ fun hc => absurd hc.1 (by omega)
    cases displayed f position with
    | header => exact fun hc => Tapped.noConfusion hc
    | item i => exact fun ⟨item, _, hc⟩ => Tapped.noConfusion hc
  · have hhigh : 2 ≤ position := Nat.le_of_not_lt hlow
    have hle : f.headerViews.length ≤ 2 := by
      rw [hlength]
      cases b <;> decide
    have hin : position - 2 < items.length := by
      cases b <;> simp at hlength <;> omega
    have hclick := onItemClick_high h hhigh (List.getElem?_eq_getElem hin)
    have hrow : displayed f position = .item (position - f.headerViews.length) :=
      if_neg (by omega)
    rw [OpensTapped, hrow, hclick]
    cases b with
    | true =>
        refine iff_of_true ⟨items[position - 2], ?_, rfl⟩ ⟨hhigh, .inl rfl⟩
        rw [hlength]
        exact List.getElem?_eq_getElem hin
    | false =>
        simp only [hlength, Bool.false_eq_true, if_false, false_or, List.getElem?_eq_getElem hin,
          Tapped.details.injEq]
        constructor
        · rintro ⟨item, hitem, rfl⟩
          exact ⟨hhigh, hitem.symm⟩
        · rintro ⟨-, hsame⟩
          exact ⟨items[position - 2], hsame.symm, rfl⟩

def fresh : WiFiFragment := ⟨[], none, 0, fun _ h => absurd h (Option.not_mem_none _)⟩

def noData : WiFiData := ⟨[], .empty, ⟨[], [], [], []⟩⟩

/-- One header and one network: the network's own row leads out of the adapter. -/
theorem not_opensTapped_disconnected :
    ¬ ∀ (f : WiFiFragment) (wiFiData : WiFiData) (history : List WiFiConnection) (items : List WiFiDetail)
      (position : Nat), position < (shown f wiFiData history).headerViews.length + items.length →
        OpensTapped (shown f wiFiData history) items position := by
  intro h
  obtain ⟨item, -, hclick⟩ := h fresh noData [] [.empty] 1 (by decide)
  have hout : onItemClick (shown fresh noData []) [.empty] 1 = .indexOutOfBounds := by decide
  rw [hout] at hclick
  exact Tapped.noConfusion hclick

theorem opensTapped_iff (f : WiFiFragment) (wiFiData : WiFiData) (history : List WiFiConnection)
    (items : List WiFiDetail) (position : Nat)
    (hposition : position < (shown f wiFiData history).headerViews.length + items.length) :
    OpensTapped (shown f wiFiData history) items position ↔
      2 ≤ position ∧ (¬ (lastConnection wiFiData history).equals .empty ∨
        items[position - 2]? = items[position - 1]?) := by
  rw [opensTapped_iff_of_shows (shown_shows f wiFiData history) items hposition]
  simp only [Bool.not_eq_true', Bool.not_eq_true]

theorem opensTapped_iff_first :
    let home : WiFiConnection := ⟨str "home", [], [], [], []⟩
    OpensTapped (shown fresh noData [home, .empty, home]) [.empty] 2 :=
  (opensTapped_iff fresh noData _ [.empty] 2 (by decide)).2 ⟨by decide, .inl (by decide)⟩

end SberWifi.TappedRow
