import Mathlib.Data.List.Basic
import Mathlib.Logic.Function.Iterate

/-!
# Runs of a deterministic system

A system is a step function on states and events.  A run is a list of events,
a property may hold in every state that the run reaches, and a guard may hold
at every event of it.
-/

namespace BetterCpu.Run

variable {σ ε : Type*} (step : ε → σ → σ)

def exec (events : List ε) (s : σ) : σ :=
  events.foldl (fun s e ↦ step e s) s

@[simp] theorem exec_nil (s : σ) : exec step [] s = s := rfl

@[simp] theorem exec_cons (e : ε) (events : List ε) (s : σ) :
    exec step (e :: events) s = exec step events (step e s) := rfl

theorem exec_append (xs ys : List ε) (s : σ) :
    exec step (xs ++ ys) s = exec step ys (exec step xs s) := by
  simp [exec, List.foldl_append]

/-- The property holds in every state of the run, the first included. -/
def Always (P : σ → Prop) : List ε → σ → Prop
  | [], s => P s
  | e :: events, s => P s ∧ Always P events (step e s)

/-- Every event of the run meets the guard in the state in which it occurs. -/
def Guarded (G : ε → σ → Prop) : List ε → σ → Prop
  | [], _ => True
  | e :: events, s => G e s ∧ Guarded G events (step e s)

variable {step} {P : σ → Prop} {G : ε → σ → Prop}

theorem Always.first {events : List ε} {s : σ} (h : Always step P events s) : P s := by
  cases events with
  | nil => exact h
  | cons e events => exact h.1

theorem always_iff_prefix {events : List ε} {s : σ} :
    Always step P events s ↔ ∀ done, done <+: events → P (exec step done s) := by
  induction events generalizing s with
  | nil => simp [Always, List.prefix_nil]
  | cons e events ih =>
      rw [Always, ih]
      constructor
      · rintro ⟨hs, htail⟩ done hdone
        rcases List.prefix_cons_iff.mp hdone with rfl | ⟨done', rfl, hdone'⟩
        · exact hs
        · exact htail done' hdone'
      · intro h
        exact ⟨h [] (List.nil_prefix), fun done hdone ↦
          h (e :: done) (List.cons_prefix_cons.mpr ⟨rfl, hdone⟩)⟩

theorem Always.last {events : List ε} {s : σ} (h : Always step P events s) :
    P (exec step events s) :=
  always_iff_prefix.mp h events (List.prefix_refl _)

theorem Always.imp {Q : σ → Prop} (hPQ : ∀ s, P s → Q s) {events : List ε} {s : σ}
    (h : Always step P events s) : Always step Q events s := by
  induction events generalizing s with
  | nil => exact hPQ s h
  | cons e events ih => exact ⟨hPQ s h.1, ih h.2⟩

theorem always_of_step (hstep : ∀ e s, P s → P (step e s)) (events : List ε) {s : σ} (hs : P s) :
    Always step P events s := by
  induction events generalizing s with
  | nil => exact hs
  | cons e events ih => exact ⟨hs, ih (hstep e s hs)⟩

theorem always_and_iff {Q : σ → Prop} {events : List ε} {s : σ} :
    Always step (fun s ↦ P s ∧ Q s) events s ↔ Always step P events s ∧ Always step Q events s := by
  simp only [forall_and, always_iff_prefix]

/-- A property that guarded steps preserve holds throughout guarded runs. -/
theorem always_of_guarded (hstep : ∀ e s, P s → G e s → P (step e s)) {events : List ε} {s : σ}
    (hs : P s) (hguard : Guarded step G events s) : Always step P events s := by
  induction events generalizing s with
  | nil => exact hs
  | cons e events ih => exact ⟨hs, ih (hstep e s hs hguard.1) hguard.2⟩

/-- When the guard is exactly what a step needs to preserve the property, the
property holds throughout a run if and only if the run is guarded. -/
theorem always_iff_guarded (hstep : ∀ e s, P s → (P (step e s) ↔ G e s)) {events : List ε}
    {s : σ} (hs : P s) : Always step P events s ↔ Guarded step G events s := by
  induction events generalizing s with
  | nil => simp [Always, Guarded, hs]
  | cons e events ih =>
      simp only [Always, Guarded, hs, true_and]
      constructor
      · intro h
        have hnext := h.first
        exact ⟨(hstep e s hs).mp hnext, (ih hnext).mp h⟩
      · rintro ⟨hguard, hrest⟩
        exact (ih ((hstep e s hs).mpr hguard)).mpr hrest

/-- Under an invariant whose steps meet `H` exactly under the guard `G`, the
runs that meet `H` and keep the invariant are the guarded ones. -/
theorem guarded_and_always_iff {I : σ → Prop} {H : ε → σ → Prop}
    (hstep : ∀ e s, I s → (H e s ∧ I (step e s) ↔ G e s)) {events : List ε} {s : σ} (hs : I s) :
    Guarded step H events s ∧ Always step I events s ↔ Guarded step G events s := by
  induction events generalizing s with
  | nil => simp [Guarded, Always, hs]
  | cons e events ih =>
      simp only [Guarded, Always, hs, true_and]
      constructor
      · rintro ⟨⟨hfirst, hrest⟩, halways⟩
        exact ⟨(hstep e s hs).mp ⟨hfirst, halways.first⟩, (ih halways.first).mp ⟨hrest, halways⟩⟩
      · rintro ⟨hguard, hrest⟩
        obtain ⟨hfirst, hnext⟩ := (hstep e s hs).mpr hguard
        obtain ⟨hguarded, halways⟩ := (ih hnext).mpr hrest
        exact ⟨⟨hfirst, hguarded⟩, halways⟩

/-- Along a run that keeps an invariant, a guard may be replaced by what it
implies under the invariant. -/
theorem Guarded.imp {I : σ → Prop} {H : ε → σ → Prop} (hinv : ∀ e s, I s → I (step e s))
    (himp : ∀ e s, I s → G e s → H e s) {events : List ε} {s : σ} (hs : I s)
    (h : Guarded step G events s) : Guarded step H events s := by
  induction events generalizing s with
  | nil => trivial
  | cons e events ih => exact ⟨himp e s hs h.1, ih (hinv e s hs) h.2⟩

/-- A guard may be replaced by an equivalent one. -/
theorem guarded_congr {H : ε → σ → Prop} (h : ∀ e s, G e s ↔ H e s) {events : List ε} {s : σ} :
    Guarded step G events s ↔ Guarded step H events s := by
  induction events generalizing s with
  | nil => rfl
  | cons e events ih => rw [Guarded, Guarded, h, ih]

/-- A guard that always holds is met by every run. -/
theorem guarded_of_forall (h : ∀ e s, G e s) (events : List ε) (s : σ) :
    Guarded step G events s := by
  induction events generalizing s with
  | nil => trivial
  | cons e events ih => exact ⟨h e s, ih _⟩

/-- A run that is not guarded comes to an event that its guard forbids. -/
theorem exists_of_not_guarded {events : List ε} {s : σ} (h : ¬ Guarded step G events s) :
    ∃ front e back, events = front ++ e :: back ∧ ¬ G e (exec step front s) := by
  induction events generalizing s with
  | nil => exact absurd trivial h
  | cons e events ih =>
      by_cases he : G e s
      · obtain ⟨front, e', back, rfl, hnot⟩ := ih fun hrest ↦ h ⟨he, hrest⟩
        exact ⟨e :: front, e', back, rfl, hnot⟩
      · exact ⟨[], e, events, rfl, he⟩

theorem exec_invariant {events : List ε} (hstep : ∀ e ∈ events, ∀ s, P s → P (step e s)) {s : σ}
    (hs : P s) : P (exec step events s) := by
  induction events generalizing s with
  | nil => exact hs
  | cons e events ih =>
      exact ih (fun a ha ↦ hstep a (List.mem_cons_of_mem e ha)) (hstep e List.mem_cons_self s hs)

/-- Events that do nothing may be left out. -/
theorem exec_filter (p : ε → Bool) (h : ∀ e s, p e = false → step e s = s) (events : List ε)
    (s : σ) : exec step events s = exec step (events.filter p) s := by
  induction events generalizing s with
  | nil => rfl
  | cons e events ih =>
      cases hp : p e with
      | false => rw [exec_cons, h e s hp, List.filter_cons_of_neg (by simp [hp]), ih]
      | true => rw [exec_cons, List.filter_cons_of_pos hp, exec_cons, ih]

/-! ## What the events of a run ask for -/

section Latest

variable {ν : Type*} {f : ε → Option ν} {xs ys : List ε}

/-- The last value that some event of the list asks for. -/
def latest (f : ε → Option ν) (events : List ε) : Option ν :=
  (events.filterMap f).getLast?

@[simp] theorem latest_nil : latest f ([] : List ε) = none := rfl

theorem latest_append : latest f (xs ++ ys) = (latest f ys).or (latest f xs) := by
  simp [latest, List.filterMap_append]

/-- What all events that ask for anything agree on is asked for last. -/
theorem latest_eq {v : Option ν} (hall : ∀ e ∈ xs, ∀ u, f e = some u → v = some u)
    (hsome : ∀ u, v = some u → ∃ e ∈ xs, f e = some u) : latest f xs = v := by
  cases hlast : latest f xs with
  | none =>
      cases v with
      | none => rfl
      | some u =>
          obtain ⟨e, he, hu⟩ := hsome u rfl
          have hnil := List.getLast?_eq_none_iff.mp hlast
          rw [List.filterMap_eq_nil_iff.mp hnil e he] at hu
          cases hu
  | some u =>
      obtain ⟨e, he, hu⟩ := List.mem_filterMap.mp (List.mem_of_getLast? hlast)
      exact (hall e he u hu).symm

theorem latest_map {μ : Type*} {g : ε → Option μ} (choose : ν → μ)
    (h : ∀ e ∈ xs, g e = (f e).map choose) : latest g xs = (latest f xs).map choose := by
  have hmap : xs.filterMap g = (xs.filterMap f).map choose := by
    rw [List.map_filterMap]
    exact List.filterMap_congr h
  rw [latest, hmap, List.getLast?_map, latest]

/-- When every guarded event gives an observable the value it asks for, the
observable has the last value that was asked for. -/
theorem exec_eq_latest {I : σ → Prop} (view : σ → ν)
    (hstep : ∀ e s, I s → G e s → I (step e s) ∧ view (step e s) = (f e).getD (view s))
    {events : List ε} {s : σ} (hs : I s) (hguard : Guarded step G events s) :
    view (exec step events s) = (latest f events).getD (view s) := by
  induction events generalizing s with
  | nil => rfl
  | cons e events ih =>
      obtain ⟨hnext, hview⟩ := hstep e s hs hguard.1
      rw [exec_cons, ih hnext hguard.2, hview, ← List.singleton_append, latest_append]
      cases latest f events with
      | some v => rfl
      | none => cases hf : f e <;> simp [latest, hf]

end Latest

/-! ## A view of the states -/

variable (step) in
/-- When every guarded event changes the view of a state by a law of the view
alone, a guarded run is a run of the laws. -/
theorem exec_view {ν : Type*} {I : σ → Prop} (view : σ → ν) (law : ε → ν → ν)
    (hstep : ∀ e s, I s → G e s → I (step e s) ∧ view (step e s) = law e (view s))
    {events : List ε} {s : σ} (hs : I s) (hguard : Guarded step G events s) :
    view (exec step events s) = exec law events (view s) := by
  induction events generalizing s with
  | nil => rfl
  | cons e events ih =>
      obtain ⟨hnext, hview⟩ := hstep e s hs hguard.1
      rw [exec_cons, exec_cons, ih hnext hguard.2, hview]

/-- Events that all ask for one thing, or for nothing, do what one of them does
if doing it again changes nothing. -/
theorem exec_asking {ν : Type*} {f : ε → Option ν} {act : ν → σ → σ}
    (hagain : ∀ v s, act v (act v s) = act v s) {events : List ε} {v : Option ν}
    (hall : ∀ e ∈ events, ∀ u, f e = some u → v = some u)
    (hsome : ∀ u, v = some u → ∃ e ∈ events, f e = some u) (s : σ) :
    exec (fun e s ↦ (f e).elim s fun u ↦ act u s) events s = v.elim s fun u ↦ act u s := by
  have hsame (events : List ε) (hevents : ∀ e ∈ events, ∀ u, f e = some u → v = some u)
      {u : ν} (hu : v = some u) (s : σ) :
      exec (fun e s ↦ (f e).elim s fun u ↦ act u s) events (act u s) = act u s := by
    induction events with
    | nil => rfl
    | cons e events ih =>
        have hrest := ih fun e he ↦ hevents e (List.mem_cons_of_mem _ he)
        rw [exec_cons]
        cases hf : f e with
        | none => exact hrest
        | some u' =>
            obtain rfl : u = u' :=
              Option.some.inj (hu.symm.trans (hevents e List.mem_cons_self u' hf))
            rw [Option.elim_some, hagain]
            exact hrest
  induction events with
  | nil =>
      cases v with
      | none => rfl
      | some u =>
          obtain ⟨e, he, -⟩ := hsome u rfl
          cases he
  | cons e events ih =>
      have hrest : ∀ e ∈ events, ∀ u, f e = some u → v = some u :=
        fun e he ↦ hall e (List.mem_cons_of_mem _ he)
      rw [exec_cons]
      cases hf : f e with
      | none =>
          refine ih hrest fun u hu ↦ ?_
          obtain ⟨e', he', hu'⟩ := hsome u hu
          rcases List.mem_cons.mp he' with rfl | he'
          · rw [hf] at hu'
            cases hu'
          · exact ⟨e', he', hu'⟩
      | some u =>
          have hu := hall e List.mem_cons_self u hf
          rw [hu]
          exact hsame events hrest hu s

/-- Laws that act on an optional view act on what it has. -/
theorem exec_map (law : ε → σ → σ) (events : List ε) (v : Option σ) :
    exec (fun e ↦ Option.map (law e)) events v = v.map (exec law events) := by
  induction events generalizing v with
  | nil => exact Option.map_id'.symm
  | cons e events ih =>
      rw [exec_cons, ih, Option.map_map]
      rfl

/-- Events that all make the same move, or none, make it as often as they occur. -/
theorem exec_counting (p : ε → Bool) (f : σ → σ) (events : List ε) (s : σ) :
    exec (fun e s ↦ if p e then f s else s) events s = f^[events.countP p] s := by
  induction events generalizing s with
  | nil => rfl
  | cons e events ih =>
      rw [exec_cons, ih, List.countP_cons]
      cases p e with
      | true => rw [if_pos rfl, if_pos rfl, Function.iterate_succ_apply]
      | false => rfl

/-- A measure that the counted events lower by one and the others keep counts
them down. -/
theorem exec_countdown {I : σ → Prop} (measure : σ → ℕ) (p : ε → Bool)
    (hstep : ∀ e s, I s → I (step e s) ∧
      measure (step e s) = if p e then measure s - 1 else measure s)
    (events : List ε) {s : σ} (hs : I s) :
    measure (exec step events s) = measure s - events.countP p := by
  induction events generalizing s with
  | nil => rfl
  | cons e events ih =>
      obtain ⟨hnext, hmeasure⟩ := hstep e s hs
      rw [exec_cons, ih hnext, hmeasure, List.countP_cons]
      cases p e with
      | true =>
          simp only [if_true]
          omega
      | false => rfl

/-! ## Two runs side by side -/

/-- A relation between two systems that related events preserve holds after
related runs. -/
theorem exec_rel {σ' ε' : Type*} {step' : ε' → σ' → σ'} {R : σ → σ' → Prop} {E : ε → ε' → Prop}
    (hstep : ∀ e e', E e e' → ∀ s s', R s s' → R (step e s) (step' e' s')) {events : List ε}
    {events' : List ε'} (hevents : List.Forall₂ E events events') {s : σ} {s' : σ'}
    (hs : R s s') : R (exec step events s) (exec step' events' s') := by
  induction hevents generalizing s s' with
  | nil => exact hs
  | cons he _ ih => exact ih (hstep _ _ he _ _ hs)

end BetterCpu.Run
