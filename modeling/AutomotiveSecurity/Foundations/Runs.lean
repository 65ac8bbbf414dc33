import Mathlib

/-!
# Runs of a partial transition function

A system is given by a partial step function on states and events; an event that
is not enabled has no successor.  Every adversarial choice is part of the event,
so a list of events determines a run.  This module collects the rules by which a
fact about one step becomes a fact about a run.

Main results:

- Theorem {lit}`run_invariant`: a predicate preserved by every permitted step
  holds at the end of every permitted run.
- Theorem {lit}`along_of_final`: a predicate that steps reflect backwards holds
  before every step of a run that ends in it.
- Theorem {lit}`along_position`: every step of a run has a position in it.
- Theorem {lit}`run_length_le`: what every step uses up bounds the length of a run.
- Theorem {lit}`Simulation.run`: a step-by-step simulation lifts to whole runs.

Current gaps:

- Only finite runs are covered; there is no fairness or liveness rule.
-/

namespace AutomotiveSecurity.Runs

variable {σ ε τ φ : Type*}

/-! ## Runs -/

/-- The state after the given events, when each of them is enabled in turn. -/
def run (step : σ → ε → Option σ) (s : σ) (events : List ε) : Option σ :=
  events.foldlM step s

section Run

variable {step : σ → ε → Option σ} {s t : σ}

@[simp]
theorem run_nil : run step s [] = some s :=
  rfl

theorem run_cons {e : ε} {es : List ε} :
    run step s (e :: es) = some t ↔ ∃ u, step s e = some u ∧ run step u es = some t := by
  simp only [run, List.foldlM_cons]
  exact Option.bind_eq_some_iff

theorem run_append {es fs : List ε} :
    run step s (es ++ fs) = some t ↔
      ∃ u, run step s es = some u ∧ run step u fs = some t := by
  simp only [run, List.foldlM_append]
  exact Option.bind_eq_some_iff

theorem run_singleton {e : ε} : run step s [e] = some t ↔ step s e = some t := by
  simp [run_cons]

/-- Every prefix of a run is a run. -/
theorem run_take {es : List ε} (hrun : run step s es = some t) (k : Nat) :
    ∃ u, run step s (es.take k) = some u ∧ run step u (es.drop k) = some t := by
  rw [← List.take_append_drop k es] at hrun
  exact run_append.mp hrun

/-- A run up to and including its event at position {lit}`k`. -/
theorem run_take_succ {es : List ε} {k : Nat} {e : ε} (he : es[k]? = some e) :
    run step s (es.take (k + 1)) = some t ↔
      ∃ u, run step s (es.take k) = some u ∧ step u e = some t := by
  have htake : es.take (k + 1) = es.take k ++ [e] := by
    rw [List.take_add_one, he]
    rfl
  rw [htake, run_append]
  simp only [run_singleton]

end Run

/-! ## Conditions on every step of a run -/

/-- Every step of the run taken from {lit}`s` satisfies {lit}`P` in the state before it. -/
def Along (step : σ → ε → Option σ) (P : σ → ε → Prop) : σ → List ε → Prop
  | _, [] => True
  | s, e :: es =>
      P s e ∧
        match step s e with
        | some t => Along step P t es
        | none => True

instance Along.decidable (step : σ → ε → Option σ) (P : σ → ε → Prop)
    [∀ s e, Decidable (P s e)] : ∀ (s : σ) (es : List ε), Decidable (Along step P s es)
  | _, [] => .isTrue trivial
  | s, e :: es =>
      match hnext : step s e with
      | some t =>
          have := Along.decidable step P t es
          decidable_of_iff (P s e ∧ Along step P t es) (by simp [Along, hnext])
      | none => decidable_of_iff (P s e) (by simp [Along, hnext])

section Along

variable {step : σ → ε → Option σ} {P Q : σ → ε → Prop} {s t : σ}

theorem Along.head {e : ε} {es : List ε} (h : Along step P s (e :: es)) : P s e :=
  h.1

theorem Along.tail {e : ε} {es : List ε} (h : Along step P s (e :: es))
    (hstep : step s e = some t) : Along step P t es := by
  have hrest := h.2
  rw [hstep] at hrest
  exact hrest

theorem along_cons {e : ε} {es : List ε} (hhead : P s e)
    (htail : ∀ u, step s e = some u → Along step P u es) : Along step P s (e :: es) := by
  refine ⟨hhead, ?_⟩
  cases hnext : step s e with
  | none => trivial
  | some u => exact htail u hnext

/-- A condition on all steps of a run restricts to every prefix. -/
theorem Along.take {es : List ε} (h : Along step P s es) (k : Nat) :
    Along step P s (es.take k) := by
  induction k generalizing s es with
  | zero => trivial
  | succ k ih =>
      cases es with
      | nil => trivial
      | cons e es =>
          exact along_cons h.head fun u hstep => ih (h.tail hstep)

theorem Along.and {es : List ε} (hP : Along step P s es) (hQ : Along step Q s es) :
    Along step (fun s e => P s e ∧ Q s e) s es := by
  induction es generalizing s with
  | nil => trivial
  | cons e es ih =>
      exact along_cons ⟨hP.head, hQ.head⟩ fun u hstep =>
        ih (hP.tail hstep) (hQ.tail hstep)

theorem Along.imp {es : List ε} (h : Along step P s es) (himp : ∀ u e, P u e → Q u e) :
    Along step Q s es := by
  induction es generalizing s with
  | nil => trivial
  | cons e es ih =>
      exact along_cons (himp s e h.head) fun u hstep => ih (h.tail hstep)

/-- Every step of a run is taken at some position of it, in the state that the events before
lead to. -/
theorem along_position (step : σ → ε → Option σ) (s : σ) (es : List ε) :
    Along step (fun u e => ∃ k, run step s (es.take k) = some u ∧ es[k]? = some e) s es := by
  induction es generalizing s with
  | nil => trivial
  | cons e es ih =>
      refine along_cons ⟨0, run_nil, rfl⟩ fun u hstep => (ih u).imp ?_
      rintro v e' ⟨k, hrun, he'⟩
      exact ⟨k + 1, run_cons.mpr ⟨u, hstep, hrun⟩, he'⟩

/-- A condition on the events of a run alone holds along it. -/
theorem along_of_forall {es : List ε} (h : ∀ e ∈ es, ∀ u, P u e) : Along step P s es := by
  induction es generalizing s with
  | nil => trivial
  | cons e es ih =>
      refine along_cons (h e List.mem_cons_self s) fun u _ => ih ?_
      intro e' he'
      exact h e' (List.mem_cons_of_mem e he')

/-! ## Step rules lifted to runs -/

/-- An invariant kept by every permitted step holds after every permitted run. -/
theorem run_invariant {I : σ → Prop}
    (hstep : ∀ s e t, I s → P s e → step s e = some t → I t)
    {es : List ε} (hinit : I s) (halong : Along step P s es)
    (hrun : run step s es = some t) : I t := by
  induction es generalizing s with
  | nil =>
      simp only [run_nil, Option.some.injEq] at hrun
      exact hrun ▸ hinit
  | cons e es ih =>
      rcases run_cons.mp hrun with ⟨u, hu, hrest⟩
      exact ih (hstep s e u hinit halong.head hu) (halong.tail hu) hrest

/-- A predicate that every step reflects from its successor back to its source holds
before every step of a run that ends in it. -/
theorem along_of_final {Q : σ → Prop} (hback : ∀ s e t, step s e = some t → Q t → Q s)
    {es : List ε} (hrun : run step s es = some t) (hfinal : Q t) :
    Along step (fun s _ => Q s) s es ∧ Q s := by
  induction es generalizing s with
  | nil =>
      simp only [run_nil, Option.some.injEq] at hrun
      exact ⟨trivial, hrun ▸ hfinal⟩
  | cons e es ih =>
      rcases run_cons.mp hrun with ⟨u, hu, hrest⟩
      have htail := ih hrest
      have hhere : Q s := hback s e u hu htail.2
      refine ⟨along_cons hhere fun v hv => ?_, hhere⟩
      have huv : u = v := Option.some.inj (hu.symm.trans hv)
      exact huv ▸ htail.1

end Along

/-- A rank that every step lowers bounds the length of a run. -/
theorem run_length_le {step : σ → ε → Option σ} (rank : σ → Nat)
    (hstep : ∀ s e t, step s e = some t → rank t < rank s) {s t : σ} {es : List ε}
    (hrun : run step s es = some t) : es.length + rank t ≤ rank s := by
  induction es generalizing s with
  | nil =>
      simp only [run_nil, Option.some.injEq] at hrun
      simp [hrun]
  | cons e es ih =>
      rcases run_cons.mp hrun with ⟨u, hu, hrest⟩
      have hlower := hstep s e u hu
      have hlength := ih hrest
      simp only [List.length_cons]
      omega

/-! ## Simulation -/

/-- Every step permitted by {lit}`P` from a state related to an abstract one is matched
by an abstract run between related states. -/
structure Simulation (step : σ → ε → Option σ) (P : σ → ε → Prop)
    (spec : τ → φ → Option τ) (R : σ → τ → Prop) : Prop where
  match_step :
    ∀ s e t a, R s a → P s e → step s e = some t →
      ∃ fs b, run spec a fs = some b ∧ R t b

/-- A simulation lifts from steps to runs. -/
theorem Simulation.run {step : σ → ε → Option σ} {P : σ → ε → Prop}
    {spec : τ → φ → Option τ} {R : σ → τ → Prop} (sim : Simulation step P spec R)
    {s t : σ} {a : τ} {es : List ε} (hR : R s a) (halong : Along step P s es)
    (hrun : Runs.run step s es = some t) :
    ∃ fs b, Runs.run spec a fs = some b ∧ R t b := by
  induction es generalizing s a with
  | nil =>
      simp only [run_nil, Option.some.injEq] at hrun
      exact ⟨[], a, run_nil, hrun ▸ hR⟩
  | cons e es ih =>
      rcases run_cons.mp hrun with ⟨u, hu, hrest⟩
      rcases sim.match_step s e u a hR halong.head hu with ⟨fs, b, hfs, hRu⟩
      rcases ih hRu (halong.tail hu) hrest with ⟨gs, c, hgs, hRt⟩
      exact ⟨fs ++ gs, c, run_append.mpr ⟨b, hfs, hgs⟩, hRt⟩

end AutomotiveSecurity.Runs
