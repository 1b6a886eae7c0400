import SberWifi.Runs
import Mathlib.Data.List.Count

namespace SberWifi.Receivers

open Runs

/-- A DetectorViewModel and its WiFiScanLiveData. `wifiScanReceiver` is the
receiver that the last `onActive` registered, which the code keeps in a local
variable only. -/
structure Model where
  cleared : Bool := false
  active : Bool := false
  broadcastReceiver : Option Nat := none
  wifiScanReceiver : Option Nat := none

/-- The view models of the process and the receivers that its context has
registered. Receivers are numbered as they are made. -/
structure State where
  models : List Model
  registered : List Nat
  next : Nat

def start : State := ⟨[], [], 0⟩

inductive Event
  | create
  | clear (i : Nat)
  | onActive (i : Nat)
  | onInactive (i : Nat)

def prepareReceiver (s : State) (i : Nat) (model : Model) : State where
  models := s.models.set i { model with active := true, wifiScanReceiver := some s.next }
  registered := s.registered ++ [s.next]
  next := s.next + 1

/-- Nothing is registered under null. -/
def unregisterReceiver (registered : List Nat) : Option Nat → List Nat
  | none => registered
  | some receiver => registered.erase receiver

/-- Transitions that a live data does not make do nothing here. Clearing a view
model leaves its live data as it is: there is no `onCleared`. -/
def step (s : State) : Event → State
  | .create => { s with models := s.models ++ [{}] }
  | .clear i =>
      match s.models[i]? with
      | none => s
      | some model => { s with models := s.models.set i { model with cleared := true } }
  | .onActive i =>
      match s.models[i]? with
      | none => s
      | some model => if model.active then s else prepareReceiver s i model
  | .onInactive i =>
      match s.models[i]? with
      | none => s
      | some model =>
          if model.active then
            { s with
              models := s.models.set i { model with active := false, broadcastReceiver := none }
              registered := unregisterReceiver s.registered model.broadcastReceiver }
          else s

def UnregistersOwn (s : State) : Event → Prop
  | .onInactive i => ∀ model, s.models[i]? = some model → model.active →
      ∃ receiver ∈ s.registered, model.wifiScanReceiver = some receiver ∧
        model.broadcastReceiver = some receiver
  | _ => True

def watching (model : Model) : Bool := !model.cleared && model.active

def Counted (s : State) : Prop := s.registered.length = s.models.countP watching

def NoneLeft (s : State) : Prop :=
  ∀ model ∈ s.models, model.cleared → ∀ receiver ∈ s.registered, model.wifiScanReceiver ≠ some receiver

def Balanced (s : State) (e : Event) : Prop :=
  UnregistersOwn s e ∧ Counted (step s e) ∧ NoneLeft (step s e)

/-- No live data becomes inactive, no view model is cleared while its live data
is active, and none becomes active that belongs to a cleared view model. -/
def Undisturbed (s : State) : Event → Prop
  | .create => True
  | .clear i => ∀ model, s.models[i]? = some model → ¬ watching model
  | .onActive i => ∀ model, s.models[i]? = some model → model.active ∨ ¬ model.cleared
  | .onInactive i => ∀ model, s.models[i]? = some model → ¬ model.active

def Forgetful (model : Model) : Prop :=
  model.broadcastReceiver = none ∧ (¬ watching model → model.wifiScanReceiver = none)

structure Steady (s : State) : Prop where
  counted : Counted s
  forgetful : ∀ model ∈ s.models, Forgetful model

theorem forall_model {models : List Model} {i : Nat} {model : Model} (h : models[i]? = some model)
    {P : Model → Prop} : (∀ m, models[i]? = some m → P m) ↔ P model := by
  rw [h]
  exact ⟨fun hall => hall model rfl, fun hm m heq => (Option.some.inj heq) ▸ hm⟩

theorem countP_set_model {models : List Model} {i : Nat} {model : Model} (h : models[i]? = some model)
    (model' : Model) : (models.set i model').countP watching + (if watching model then 1 else 0) =
      models.countP watching + if watching model' then 1 else 0 := by
  obtain ⟨hi, rfl⟩ := List.getElem?_eq_some_iff.1 h
  have hmem : watching models[i] → 0 < models.countP watching := fun hw =>
    List.countP_pos_iff.2 ⟨_, List.getElem_mem hi, hw⟩
  rw [List.countP_set hi]
  by_cases hw : watching models[i]
  · have hpos := hmem hw
    simp only [hw, if_true]
    omega
  · simp only [hw, if_false, Bool.false_eq_true]
    omega

section Steps

variable {s : State} {i : Nat} {model : Model} (hs : Steady s) (hmodel : s.models[i]? = some model)
include hs hmodel

theorem counted_clear : Counted (step s (.clear i)) ↔ ¬ watching model := by
  have hcounted : s.registered.length = s.models.countP watching := hs.counted
  have hset := countP_set_model hmodel { model with cleared := true }
  rw [show watching { model with cleared := true } = false from rfl] at hset
  simp only [Counted, step, hmodel]
  rw [hcounted]
  by_cases hw : watching model
  · simp only [hw, Bool.false_eq_true, if_true, if_false, not_true_eq_false, iff_false] at hset ⊢
    omega
  · simp only [hw, Bool.false_eq_true, if_false, not_false_eq_true, iff_true] at hset ⊢
    omega

theorem counted_onActive : Counted (step s (.onActive i)) ↔ model.active ∨ ¬ model.cleared := by
  have hcounted : s.registered.length = s.models.countP watching := hs.counted
  have hset := countP_set_model hmodel { model with active := true, wifiScanReceiver := some s.next }
  simp only [Counted, step, hmodel]
  by_cases hactive : model.active
  · simpa only [hactive, if_true, true_or, iff_true] using hcounted
  rw [if_neg hactive, prepareReceiver, List.length_append, List.length_singleton, hcounted]
  by_cases hcleared : model.cleared
  · simp only [watching, hactive, hcleared, Bool.not_true, Bool.false_and, Bool.false_eq_true, if_false,
      not_true_eq_false, or_self, iff_false] at hset ⊢
    omega
  · simp only [watching, hactive, hcleared, Bool.not_false, Bool.true_and, Bool.false_eq_true, if_false,
      if_true, not_false_eq_true, or_true, iff_true] at hset ⊢
    omega

/-- The receiver of an active live data was forgotten, so it cannot be unregistered. -/
theorem balanced_onInactive :
    UnregistersOwn s (.onInactive i) ∧ Counted (step s (.onInactive i)) ↔ ¬ model.active := by
  rw [UnregistersOwn, forall_model hmodel]
  by_cases hactive : model.active
  · have hforgotten := (hs.forgetful model (List.mem_of_getElem? hmodel)).1
    simp [hactive, hforgotten]
  · simp only [hactive, Bool.false_eq_true, false_implies, true_and, not_false_eq_true, iff_true, Counted,
      step, hmodel, if_false]
    exact hs.counted

end Steps

theorem counted_iff (s : State) (e : Event) (hs : Steady s) :
    UnregistersOwn s e ∧ Counted (step s e) ↔ Undisturbed s e := by
  have hcounted : s.registered.length = s.models.countP watching := hs.counted
  cases e with
  | create =>
      refine ⟨fun _ => trivial, fun _ => ⟨trivial, ?_⟩⟩
      simp [Counted, step, hcounted, watching]
  | clear i =>
      cases hmodel : s.models[i]? with
      | none => simp [UnregistersOwn, Undisturbed, step, hmodel, hs.counted]
      | some model =>
          rw [Undisturbed, forall_model hmodel, ← counted_clear hs hmodel]
          exact and_iff_right trivial
  | onActive i =>
      cases hmodel : s.models[i]? with
      | none => simp [UnregistersOwn, Undisturbed, step, hmodel, hs.counted]
      | some model =>
          rw [Undisturbed, forall_model hmodel, ← counted_onActive hs hmodel]
          exact and_iff_right trivial
  | onInactive i =>
      cases hmodel : s.models[i]? with
      | none => simp [UnregistersOwn, Undisturbed, step, hmodel, hs.counted]
      | some model => rw [balanced_onInactive hs hmodel, Undisturbed, forall_model hmodel]

theorem forgetful_step (s : State) (e : Event) (hs : ∀ model ∈ s.models, Forgetful model)
    (he : Undisturbed s e) : ∀ model ∈ (step s e).models, Forgetful model := by
  have hset (i : Nat) (model' : Model) (h : Forgetful model') :
      ∀ model ∈ s.models.set i model', Forgetful model := by
    intro model hmem
    rcases List.mem_or_eq_of_mem_set hmem with hmem | rfl
    · exact hs model hmem
    · exact h
  cases e with
  | create =>
      intro model hmem
      rcases List.mem_append.1 hmem with hmem | hmem
      · exact hs model hmem
      · rw [List.mem_singleton.1 hmem]
        exact ⟨rfl, fun _ => rfl⟩
  | clear i =>
      cases hmodel : s.models[i]? with
      | none => simpa only [step, hmodel] using hs
      | some model =>
          have hforgetful := hs model (List.mem_of_getElem? hmodel)
          simp only [step, hmodel]
          exact hset i _ ⟨hforgetful.1, fun _ => hforgetful.2 (he model hmodel)⟩
  | onActive i =>
      cases hmodel : s.models[i]? with
      | none => simpa only [step, hmodel] using hs
      | some model =>
          have hforgetful := hs model (List.mem_of_getElem? hmodel)
          simp only [step, hmodel]
          split_ifs with hactive
          · exact hs
          · have hlive := (he model hmodel).resolve_left hactive
            exact hset i _ ⟨hforgetful.1, fun h => absurd (by simp [watching, hlive]) h⟩
  | onInactive i =>
      cases hmodel : s.models[i]? with
      | none => simpa only [step, hmodel] using hs
      | some model =>
          simp only [step, hmodel, he model hmodel]
          exact hs

theorem steady_step (s : State) (e : Event) (hs : Steady s) (he : Undisturbed s e) : Steady (step s e) :=
  ⟨((counted_iff s e hs).2 he).2, forgetful_step s e hs.forgetful he⟩

theorem balanced_iff (s : State) (e : Event) (hs : Steady s) : Balanced s e ↔ Undisturbed s e := by
  constructor
  · exact fun h => (counted_iff s e hs).1 ⟨h.1, h.2.1⟩
  · intro he
    obtain ⟨hown, hcounted⟩ := (counted_iff s e hs).2 he
    refine ⟨hown, hcounted, ?_⟩
    intro model hmem hcleared receiver _
    have hidle : ¬ watching model := by simp [watching, hcleared]
    rw [(forgetful_step s e hs.forgetful he model hmem).2 hidle]
    exact (Option.some_ne_none receiver).symm

theorem steady_start : Steady start where
  counted := rfl
  forgetful := by simp [start]

theorem along_balanced_iff (events : List Event) :
    Along step Balanced start events ↔ Along step Undisturbed start events :=
  along_iff_of_invariant Steady balanced_iff steady_step steady_start events

/-- A screen is opened and closed again. -/
theorem not_balanced : ¬ ∀ events, Along step Balanced start events := by
  intro h
  have hclear := (h [.create, .onActive 0, .clear 0]).2.2.1.2.1
  revert hclear
  unfold Counted
  decide

end SberWifi.Receivers
