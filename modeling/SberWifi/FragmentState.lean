import SberWifi.Runs
import Mathlib.Logic.Function.Basic

namespace SberWifi.FragmentState

open Runs

inductive FragmentEnum
  | WiFiFragment
  | ReportFragment
  | IperfFragment
  | DetailInfoFragment
deriving DecidableEq, Repr

/-- Each activity has a manager of its own, and the activities of a process are
numbered as they are created. -/
abbrev FragmentManager := Nat

section Types

variable (SavedState : Type)

/-- `host` is the manager that has added the fragment. -/
structure Fragment where
  host : Option FragmentManager
  savedState : Option SavedState

structure FragmentStateHelper where
  fragmentManager : FragmentManager
  fragmentState : FragmentEnum → Option SavedState

structure MainActivity where
  supportFragmentManager : FragmentManager
  currentFragment : Fragment SavedState
  currentFragmentEnum : FragmentEnum

structure Save where
  fragmentManager : FragmentManager
  fragment : Fragment SavedState

/-- The process: the object in `FragmentStateHelper.INSTANCE`, which the field
of every activity refers to, the current activity, whether a scan has set the
shared data, whether an exception has ended it, and the calls made so far. -/
structure State where
  INSTANCE : Option (FragmentStateHelper SavedState)
  created : Nat
  activity : Option (MainActivity SavedState)
  wiFiData : Bool
  ended : Bool
  saves : List (Save SavedState)

/-- An activity is created, perhaps with the fragments of an earlier one, and a
tab is selected. What the manager returns for a fragment of its own comes with
the selection. -/
inductive Event
  | onCreate (restored : List FragmentEnum)
  | executePendingTransactions
  | resultScan
  | onNavigationItemSelected (item : FragmentEnum) (saved : Option SavedState)

end Types

variable {SavedState : Type}

def Fragment.new : Fragment SavedState := ⟨none, none⟩

def Fragment.isAdded (f : Fragment SavedState) : Bool := f.host.isSome

def start : State SavedState := ⟨none, 0, none, false, false, []⟩

def State.throw (s : State SavedState) : State SavedState := { s with activity := none, ended := true }

/-- A report fragment reads the shared data in its constructor. -/
def construct (wiFiData : Bool) : FragmentEnum → Option (Fragment SavedState)
  | .ReportFragment => if wiFiData then some .new else none
  | _ => some .new

def selectedFragment (wiFiData : Bool) : FragmentEnum → Option (Fragment SavedState)
  | .WiFiFragment => construct wiFiData .WiFiFragment
  | .ReportFragment => construct wiFiData .ReportFragment
  | .IperfFragment => construct wiFiData .IperfFragment
  | .DetailInfoFragment => none

def saveFragmentInstanceState (fragmentManager : FragmentManager) (fragment : Fragment SavedState)
    (saved : Option SavedState) : Option (Option SavedState) :=
  if fragment.host = some fragmentManager then some saved else none

namespace FragmentStateHelper

def getInstance (INSTANCE : Option (FragmentStateHelper SavedState)) (fragmentManager : FragmentManager) :
    FragmentStateHelper SavedState :=
  match INSTANCE with
  | some helper => helper
  | none => ⟨fragmentManager, fun _ => none⟩

variable (helper : FragmentStateHelper SavedState) (fragmentEnum : FragmentEnum)
  (fragment : Fragment SavedState)

def restoreState : Fragment SavedState :=
  match helper.fragmentState fragmentEnum with
  | none => fragment
  | some savedState => if fragment.isAdded then fragment else { fragment with savedState := some savedState }

def saveState (saved : Option SavedState) :
    List (Save SavedState) × Option (FragmentStateHelper SavedState) :=
  if fragment.isAdded then
    ([⟨helper.fragmentManager, fragment⟩],
      (saveFragmentInstanceState helper.fragmentManager fragment saved).map fun state =>
        { helper with fragmentState := Function.update helper.fragmentState fragmentEnum state })
  else ([], some helper)

end FragmentStateHelper

def onCreate (s : State SavedState) (restored : List FragmentEnum) : State SavedState :=
  let s' := { s with INSTANCE := some (.getInstance s.INSTANCE s.created), created := s.created + 1 }
  if restored.all fun e => (construct s.wiFiData e : Option (Fragment SavedState)).isSome then
    { s' with activity := some ⟨s.created, .new, .WiFiFragment⟩ }
  else s'.throw

/-- The current fragment has been added once the commit is carried out. -/
def executePendingTransactions (s : State SavedState) : State SavedState :=
  { s with
    activity := s.activity.map fun activity =>
      let currentFragment := { activity.currentFragment with host := some activity.supportFragmentManager }
      { activity with currentFragment } }

def replaceFragment (s : State SavedState) (activity : MainActivity SavedState)
    (helper : FragmentStateHelper SavedState) (newFragment : Fragment SavedState)
    (newFragmentEnum : FragmentEnum) (saved : Option SavedState) : State SavedState :=
  let (calls, helper') := helper.saveState activity.currentFragmentEnum activity.currentFragment saved
  let s' := { s with saves := s.saves ++ calls }
  match helper' with
  | none => s'.throw
  | some helper =>
      let currentFragment := helper.restoreState newFragmentEnum newFragment
      let activity := { activity with currentFragment, currentFragmentEnum := newFragmentEnum }
      { s' with INSTANCE := some helper, activity := some activity }

def onNavigationItemSelected (s : State SavedState) (item : FragmentEnum) (saved : Option SavedState) :
    State SavedState :=
  match s.activity, s.INSTANCE with
  | some activity, some helper =>
      match selectedFragment s.wiFiData item with
      | none => s.throw
      | some newFragment => replaceFragment s activity helper newFragment item saved
  | _, _ => s

def step (s : State SavedState) (e : Event SavedState) : State SavedState :=
  if s.ended then s
  else
    match e with
    | .onCreate restored => onCreate s restored
    | .executePendingTransactions => executePendingTransactions s
    | .resultScan => { s with wiFiData := true }
    | .onNavigationItemSelected item saved => onNavigationItemSelected s item saved

def Save.ByHost (save : Save SavedState) : Prop := save.fragment.host = some save.fragmentManager

structure Saves (s : State SavedState) (activity : MainActivity SavedState)
    (helper : FragmentStateHelper SavedState) (item : FragmentEnum) : Prop where
  running : s.ended = false
  shown : s.activity = some activity
  captured : s.INSTANCE = some helper
  added : activity.currentFragment.isAdded
  selected : (selectedFragment s.wiFiData item : Option (Fragment SavedState)).isSome

/-- No tab is selected beside an added fragment in a later activity than the first. -/
def InFirstActivity (s : State SavedState) : Event SavedState → Prop
  | .onNavigationItemSelected item _ => ∀ activity helper, Saves s activity helper item → s.created = 1
  | _ => True

structure Managed (s : State SavedState) : Prop where
  first : s.INSTANCE = none → s.created = 0
  helper : ∀ helper ∈ s.INSTANCE, helper.fragmentManager = 0
  latest : ∀ activity ∈ s.activity, activity.supportFragmentManager + 1 = s.created
  host : ∀ activity ∈ s.activity, ∀ manager ∈ activity.currentFragment.host,
    manager = activity.supportFragmentManager

theorem restoreState_host (helper : FragmentStateHelper SavedState) (fragmentEnum : FragmentEnum)
    (fragment : Fragment SavedState) : (helper.restoreState fragmentEnum fragment).host = fragment.host := by
  rw [FragmentStateHelper.restoreState]
  cases helper.fragmentState fragmentEnum with
  | none => rfl
  | some savedState => cases h : fragment.isAdded <;> rfl

theorem construct_host {wiFiData : Bool} {fragmentEnum : FragmentEnum} {fragment : Fragment SavedState}
    (h : construct wiFiData fragmentEnum = some fragment) : fragment.host = none := by
  cases fragmentEnum with
  | ReportFragment =>
      rw [construct] at h
      split at h
      · cases h
        rfl
      · cases h
  | WiFiFragment | IperfFragment | DetailInfoFragment =>
      cases h
      rfl

theorem selectedFragment_host {wiFiData : Bool} {item : FragmentEnum} {fragment : Fragment SavedState}
    (h : selectedFragment wiFiData item = some fragment) : fragment.host = none := by
  cases item with
  | DetailInfoFragment => cases h
  | WiFiFragment | ReportFragment | IperfFragment =>
      rw [selectedFragment] at h
      exact construct_host h

section Saving

variable (helper : FragmentStateHelper SavedState) (fragmentEnum : FragmentEnum)
  (fragment : Fragment SavedState) (saved : Option SavedState)

theorem saveState_calls : (helper.saveState fragmentEnum fragment saved).1 =
    if fragment.isAdded then [⟨helper.fragmentManager, fragment⟩] else [] := by
  rw [FragmentStateHelper.saveState]
  split <;> rfl

variable {helper fragmentEnum fragment saved}

theorem saveState_fragmentManager {helper' : FragmentStateHelper SavedState}
    (h : (helper.saveState fragmentEnum fragment saved).2 = some helper') :
    helper'.fragmentManager = helper.fragmentManager := by
  rw [FragmentStateHelper.saveState] at h
  split at h
  · obtain ⟨state, -, rfl⟩ := Option.map_eq_some_iff.1 h
    rfl
  · cases h
    rfl

end Saving

section Steps

variable {s : State SavedState} {activity : MainActivity SavedState} {helper : FragmentStateHelper SavedState}
  {newFragment : Fragment SavedState} {item : FragmentEnum} {saved : Option SavedState}

theorem replaceFragment_saves : (replaceFragment s activity helper newFragment item saved).saves =
    s.saves ++ if activity.currentFragment.isAdded then
      [⟨helper.fragmentManager, activity.currentFragment⟩] else [] := by
  rw [← saveState_calls helper activity.currentFragmentEnum _ saved, replaceFragment]
  rcases helper.saveState activity.currentFragmentEnum activity.currentFragment saved with
    ⟨calls, _ | helper'⟩
  · rfl
  · rfl

theorem managed_throw (h : Managed s) : Managed s.throw :=
  ⟨h.first, h.helper, fun _ ha => (by cases ha), fun _ ha => (by cases ha)⟩

theorem managed_onCreate (h : Managed s) (restored : List FragmentEnum) : Managed (onCreate s restored) := by
  have hhelper : (FragmentStateHelper.getInstance s.INSTANCE s.created).fragmentManager = 0 := by
    cases hinst : s.INSTANCE with
    | none => exact h.first hinst
    | some helper => exact h.helper helper hinst
  rw [onCreate]
  split
  · refine ⟨fun hnone => (by cases hnone), ?_, ?_, ?_⟩
    · rintro helper ⟨⟩
      exact hhelper
    · rintro activity ⟨⟩
      rfl
    · rintro activity ⟨⟩ manager ⟨⟩
  · refine ⟨fun hnone => (by cases hnone), ?_, fun _ ha => (by cases ha), fun _ ha => (by cases ha)⟩
    rintro helper ⟨⟩
    exact hhelper

theorem managed_executePendingTransactions (h : Managed s) : Managed (executePendingTransactions s) := by
  refine ⟨h.first, h.helper, ?_, ?_⟩
  · intro activity ha
    obtain ⟨before, hbefore, rfl⟩ := Option.map_eq_some_iff.1 ha
    exact h.latest before hbefore
  · intro activity ha manager hm
    obtain ⟨before, -, rfl⟩ := Option.map_eq_some_iff.1 ha
    cases hm
    rfl

theorem managed_replaceFragment (h : Managed s) (ha : s.activity = some activity)
    (hi : s.INSTANCE = some helper) (hnew : newFragment.host = none) :
    Managed (replaceFragment s activity helper newFragment item saved) := by
  rw [replaceFragment]
  rcases hsave : helper.saveState activity.currentFragmentEnum activity.currentFragment saved with
    ⟨calls, _ | helper'⟩
  · exact ⟨h.first, h.helper, fun _ ha => (by cases ha), fun _ ha => (by cases ha)⟩
  · have hsame := saveState_fragmentManager (congrArg Prod.snd hsave)
    refine ⟨fun hnone => (by cases hnone), ?_, ?_, ?_⟩
    · rintro helper ⟨⟩
      exact hsame.trans (h.helper _ hi)
    · rintro replaced ⟨⟩
      exact h.latest activity ha
    · rintro replaced ⟨⟩ manager hm
      rw [Option.mem_def, restoreState_host, hnew] at hm
      cases hm

theorem step_ended (h : s.ended = true) (e : Event SavedState) : step s e = s := by
  rw [step.eq_def, if_pos h]

theorem managed_step (h : Managed s) (e : Event SavedState) : Managed (step s e) := by
  by_cases hended : s.ended
  · rw [step_ended hended]
    exact h
  rw [step.eq_def, if_neg hended]
  cases e with
  | onCreate restored => exact managed_onCreate h restored
  | executePendingTransactions => exact managed_executePendingTransactions h
  | resultScan => exact ⟨h.first, h.helper, h.latest, h.host⟩
  | onNavigationItemSelected item saved =>
      dsimp only
      rw [onNavigationItemSelected]
      split
      · next activity helper ha hi =>
        split
        · exact managed_throw h
        · next newFragment hnew => exact managed_replaceFragment h ha hi (selectedFragment_host hnew)
      · exact h

theorem step_onCreate_saves (restored : List FragmentEnum) :
    (step s (.onCreate restored)).saves = s.saves := by
  rw [step, onCreate]
  split
  · rfl
  · split <;> rfl

theorem saves_of_saves (h : Saves s activity helper item) :
    (step s (.onNavigationItemSelected item saved)).saves =
      s.saves ++ [⟨helper.fragmentManager, activity.currentFragment⟩] := by
  obtain ⟨newFragment, hnew⟩ := Option.isSome_iff_exists.1 h.selected
  have hstep : step s (.onNavigationItemSelected item saved) =
      replaceFragment s activity helper newFragment item saved := by
    rw [step, if_neg (by rw [h.running]; decide), onNavigationItemSelected, h.shown, h.captured]
    dsimp only
    rw [hnew]
  rw [hstep, replaceFragment_saves, if_pos h.added]

theorem saves_of_not_saves (h : ∀ activity helper, ¬ Saves s activity helper item) :
    (step s (.onNavigationItemSelected item saved)).saves = s.saves := by
  by_cases hended : s.ended
  · rw [step_ended hended]
  rw [step, if_neg hended, onNavigationItemSelected]
  split
  · next activity helper ha hi =>
    split
    · rfl
    · next newFragment hnew =>
      have hadded : ¬ activity.currentFragment.isAdded := fun hadded =>
        h activity helper ⟨eq_false_of_ne_true hended, ha, hi, hadded, hnew ▸ rfl⟩
      rw [replaceFragment_saves, if_neg hadded, List.append_nil]
  · rfl

/-- A step makes one call or none. -/
theorem saves_step (s : State SavedState) (e : Event SavedState) : (step s e).saves = s.saves ∨
    ∃ item saved activity helper, e = .onNavigationItemSelected item saved ∧ Saves s activity helper item ∧
      (step s e).saves = s.saves ++ [⟨helper.fragmentManager, activity.currentFragment⟩] := by
  cases e with
  | onCreate restored => exact .inl (step_onCreate_saves restored)
  | executePendingTransactions | resultScan =>
      left
      rw [step]
      split <;> rfl
  | onNavigationItemSelected item saved =>
      by_cases h : ∃ activity helper, Saves s activity helper item
      · obtain ⟨activity, helper, h⟩ := h
        exact .inr ⟨item, saved, activity, helper, rfl, h, saves_of_saves h⟩
      · exact .inl (saves_of_not_saves fun activity helper hsaving => h ⟨activity, helper, hsaving⟩)

/-- The fragment to be saved is hosted by its activity, the helper has the
manager of the first one. -/
theorem byHost_iff (hs : Managed s) (h : Saves s activity helper item) :
    Save.ByHost ⟨helper.fragmentManager, activity.currentFragment⟩ ↔ s.created = 1 := by
  obtain ⟨manager, hm⟩ := Option.isSome_iff_exists.1 h.added
  have hhost := hs.host activity h.shown manager hm
  have hlatest := hs.latest activity h.shown
  rw [Save.ByHost, hm, hs.helper helper h.captured, Option.some_inj, hhost, ← hlatest]
  exact Nat.succ_inj.symm

end Steps

theorem saves_subset (s : State SavedState) (e : Event SavedState) : s.saves ⊆ (step s e).saves := by
  rcases saves_step s e with h | ⟨_, _, _, _, -, -, h⟩
  · rw [h]
    exact List.Subset.refl _
  · rw [h]
    exact List.subset_append_left _ _

theorem byHost_step_iff {s : State SavedState} (hs : Managed s) (hsaves : ∀ save ∈ s.saves, save.ByHost)
    (e : Event SavedState) : (∀ save ∈ (step s e).saves, save.ByHost) ↔ InFirstActivity s e := by
  cases e with
  | onCreate | executePendingTransactions | resultScan =>
      refine iff_of_true ?_ trivial
      rcases saves_step s _ with h | ⟨_, _, _, _, he, -⟩
      · rw [h]
        exact hsaves
      · cases he
  | onNavigationItemSelected item saved =>
      constructor
      · intro h activity helper hsaving
        rw [saves_of_saves hsaving, List.forall_mem_append] at h
        exact (byHost_iff hs hsaving).1 (h.2 _ (List.mem_singleton_self _))
      · intro h
        rcases saves_step s (.onNavigationItemSelected item saved) with
          he | ⟨_, _, activity, helper, ⟨⟩, hsaving, he⟩
        · rw [he]
          exact hsaves
        · rw [he, List.forall_mem_append, List.forall_mem_singleton]
          exact ⟨hsaves, (byHost_iff hs hsaving).2 (h activity helper hsaving)⟩

theorem managed_start : Managed (start : State SavedState) :=
  ⟨fun _ => rfl, fun _ h => (by cases h), fun _ h => (by cases h), fun _ h => (by cases h)⟩

/-- Every call goes to the manager that hosts the fragment exactly in the runs
that select no tab beside an added fragment once the process has had a second
activity. -/
theorem saved_by_host_iff (events : List (Event SavedState)) :
    (∀ save ∈ (run step start events).saves, save.ByHost) ↔ Along step InFirstActivity start events := by
  have hstart : ∀ save ∈ (start : State SavedState).saves, save.ByHost := List.forall_mem_nil _
  have hback (s : State SavedState) (e : Event SavedState) (h : ∀ save ∈ (step s e).saves, save.ByHost) :
      ∀ save ∈ s.saves, save.ByHost :=
    fun save hsave => h save (saves_subset s e hsave)
  rw [run_iff_along (fun s : State SavedState => ∀ save ∈ s.saves, save.ByHost) hback, and_iff_right hstart]
  apply along_iff_of_invariant (fun s => Managed s ∧ ∀ save ∈ s.saves, save.ByHost)
  · rintro s e ⟨hs, hsaves⟩
    exact byHost_step_iff hs hsaves e
  · rintro s e ⟨hs, hsaves⟩ h
    exact ⟨managed_step hs e, (byHost_step_iff hs hsaves e).2 h⟩
  · exact ⟨managed_start, hstart⟩

def recreated : List (Event Unit) :=
  [.onCreate [], .executePendingTransactions, .onCreate [.WiFiFragment], .executePendingTransactions,
    .onNavigationItemSelected .IperfFragment none]

theorem not_saved_by_host : ¬ ∀ save ∈ (run step start recreated).saves, save.ByHost := by
  have hsaves : (run step start recreated).saves = [⟨0, ⟨some 1, none⟩⟩] := rfl
  rw [hsaves, List.forall_mem_singleton]
  intro h
  cases h

end SberWifi.FragmentState
