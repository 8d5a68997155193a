import Mathlib.Data.List.Induction
import Mathlib.Tactic.TypeStar

namespace Transition

variable {σ ι : Type*}

/-- Execute a finite schedule of labels. A label that is not enabled in the
current state makes the whole schedule impossible. -/
def run (step : σ → ι → Option σ) (state : σ) : List ι → Option σ
  | [] => some state
  | label :: labels => (step state label).bind fun next => run step next labels

@[simp] theorem run_nil (step : σ → ι → Option σ) (state : σ) :
    run step state [] = some state := rfl

@[simp] theorem run_cons (step : σ → ι → Option σ) (state : σ) (label : ι) (labels : List ι) :
    run step state (label :: labels) = (step state label).bind fun next => run step next labels := rfl

theorem run_cons_eq_some {step : σ → ι → Option σ} {state final : σ} {label : ι} {labels : List ι} :
    run step state (label :: labels) = some final ↔
      ∃ next, step state label = some next ∧ run step next labels = some final := by
  rw [run_cons, Option.bind_eq_some_iff]

theorem run_append (step : σ → ι → Option σ) (state : σ) (first second : List ι) :
    run step state (first ++ second) = (run step state first).bind fun next => run step next second := by
  induction first generalizing state with
  | nil => rfl
  | cons label labels ih =>
    rw [List.cons_append, run_cons, run_cons, Option.bind_assoc]
    congr 1
    funext next
    exact ih next

theorem run_append_eq_some {step : σ → ι → Option σ} {state final : σ} {first second : List ι} :
    run step state (first ++ second) = some final ↔
      ∃ middle, run step state first = some middle ∧ run step middle second = some final := by
  rw [run_append, Option.bind_eq_some_iff]

theorem run_snoc_eq_some {step : σ → ι → Option σ} {state final : σ} {labels : List ι} {label : ι} :
    run step state (labels ++ [label]) = some final ↔
      ∃ middle, run step state labels = some middle ∧ step middle label = some final := by
  rw [run_append_eq_some]
  constructor
  · rintro ⟨middle, hfirst, hlast⟩
    obtain ⟨next, hstep, hnil⟩ := run_cons_eq_some.mp hlast
    rw [run_nil, Option.some.injEq] at hnil
    exact ⟨middle, hfirst, hnil ▸ hstep⟩
  · rintro ⟨middle, hfirst, hstep⟩
    exact ⟨middle, hfirst, run_cons_eq_some.mpr ⟨final, hstep, rfl⟩⟩

/-- Every executed step of a schedule satisfies a condition on the state before
it, its label and the state after it. -/
def Always (step : σ → ι → Option σ) (condition : σ → ι → σ → Prop) (state : σ) : List ι → Prop
  | [] => True
  | label :: labels => ∀ next, step state label = some next →
      condition state label next ∧ Always step condition next labels

theorem always_of_forall {step : σ → ι → Option σ} {condition : σ → ι → σ → Prop} {labels : List ι}
    (hcondition : ∀ label ∈ labels, ∀ state next, condition state label next) (state : σ) :
    Always step condition state labels := by
  induction labels generalizing state with
  | nil => trivial
  | cons label labels ih =>
    intro next _
    exact ⟨hcondition label List.mem_cons_self state next,
      ih (fun l hl => hcondition l (List.mem_cons_of_mem _ hl)) next⟩

/-- A schedule that meets a condition extended by one that meets it from where
the first ends. -/
theorem Always.extend {step : σ → ι → Option σ} {condition : σ → ι → σ → Prop} {state middle : σ}
    {first second : List ι} (hrun : run step state first = some middle)
    (hfirst : Always step condition state first) (hsecond : Always step condition middle second) :
    Always step condition state (first ++ second) := by
  induction first generalizing state with
  | nil =>
    rw [run_nil, Option.some.injEq] at hrun
    exact hrun ▸ hsecond
  | cons label labels ih =>
    obtain ⟨next, hstep, hrest⟩ := run_cons_eq_some.mp hrun
    intro other hother
    obtain rfl : next = other := Option.some.inj (hstep.symm.trans hother)
    obtain ⟨hcondition, hlater⟩ := hfirst next hstep
    exact ⟨hcondition, ih hrest hlater⟩

theorem Always.append {step : σ → ι → Option σ} {condition : σ → ι → σ → Prop}
    {state middle : σ} {first second : List ι}
    (halways : Always step condition state (first ++ second))
    (hrun : run step state first = some middle) : Always step condition middle second := by
  induction first generalizing state with
  | nil =>
    rw [run_nil, Option.some.injEq] at hrun
    exact hrun ▸ halways
  | cons label labels ih =>
    obtain ⟨next, hstep, hrest⟩ := run_cons_eq_some.mp hrun
    exact ih (halways next hstep).2 hrest

theorem Always.first {step : σ → ι → Option σ} {condition : σ → ι → σ → Prop}
    {state : σ} {first second : List ι}
    (halways : Always step condition state (first ++ second)) :
    Always step condition state first := by
  induction first generalizing state with
  | nil => trivial
  | cons label labels ih =>
    intro next hstep
    obtain ⟨hcondition, hrest⟩ := halways next hstep
    exact ⟨hcondition, ih hrest⟩

/-- An invariant preserved by every step that meets a condition holds after
every schedule whose steps all meet it. -/
theorem Always.preserves {step : σ → ι → Option σ} {condition : σ → ι → σ → Prop} {Inv : σ → Prop}
    (hpreserved : ∀ state label next, Inv state → condition state label next →
      step state label = some next → Inv next)
    {state final : σ} {labels : List ι} (halways : Always step condition state labels)
    (hinitial : Inv state) (hrun : run step state labels = some final) : Inv final := by
  induction labels generalizing state with
  | nil =>
    rw [run_nil, Option.some.injEq] at hrun
    exact hrun ▸ hinitial
  | cons label labels ih =>
    obtain ⟨next, hstep, hrest⟩ := run_cons_eq_some.mp hrun
    obtain ⟨hcondition, hlater⟩ := halways next hstep
    exact ih hlater (hpreserved state label next hinitial hcondition hstep) hrest

/-- Every step of the system preserves the property. -/
def Preserved (step : σ → ι → Option σ) (Inv : σ → Prop) : Prop :=
  ∀ state label next, Inv state → step state label = some next → Inv next

theorem Preserved.run {step : σ → ι → Option σ} {Inv : σ → Prop} (hpreserved : Preserved step Inv)
    {state final : σ} {labels : List ι} (hinitial : Inv state)
    (hrun : Transition.run step state labels = some final) : Inv final :=
  have halways : Always step (fun _ _ _ => True) state labels := always_of_forall (fun _ _ _ _ => trivial) state
  halways.preserves (fun state label next hinv _ hstep => hpreserved state label next hinv hstep) hinitial hrun

/-- Induction on a schedule from its end: what holds of the start and is kept by
one more step holds of every schedule and the state it leads to. -/
theorem run_induction {step : σ → ι → Option σ} {start : σ} {P : List ι → σ → Prop} (hstart : P [] start)
    (hstep : ∀ labels state label next, run step start labels = some state → P labels state →
      step state label = some next → P (labels ++ [label]) next)
    {labels : List ι} {state : σ} (hrun : run step start labels = some state) : P labels state := by
  induction labels using List.reverseRecOn generalizing state with
  | nil =>
    rw [run_nil, Option.some.injEq] at hrun
    exact hrun ▸ hstart
  | append_singleton labels label ih =>
    obtain ⟨middle, hbefore, hlast⟩ := run_snoc_eq_some.mp hrun
    exact hstep labels middle label state hbefore (ih hbefore) hlast

/-- What fails at the start of a schedule and holds at its end comes about in one of its steps. -/
theorem exists_step_of_not {step : σ → ι → Option σ} {P : σ → Prop} {state final : σ} {labels : List ι}
    (hrun : run step state labels = some final) (hstart : ¬ P state) (hfinal : P final) :
    ∃ before label after s next, labels = before ++ label :: after ∧ run step state before = some s ∧
      step s label = some next ∧ ¬ P s ∧ P next := by
  induction labels generalizing state with
  | nil =>
    rw [run_nil, Option.some.injEq] at hrun
    exact absurd (hrun ▸ hfinal) hstart
  | cons label labels ih =>
    obtain ⟨next, hstep, hrest⟩ := run_cons_eq_some.mp hrun
    by_cases hnext : P next
    · exact ⟨[], label, labels, state, next, rfl, rfl, hstep, hstart, hnext⟩
    · obtain ⟨before, last, after, s, t, rfl, hbefore, hlast, hs, ht⟩ := ih hrest hnext
      exact ⟨label :: before, last, after, s, t, rfl, run_cons_eq_some.mpr ⟨next, hstep, hbefore⟩, hlast, hs, ht⟩

/-- Some step of the schedule is the event, and every step after it is steady.
The event may speak about the schedule before it. -/
def Since (step : σ → ι → Option σ) (event : List ι → σ → ι → σ → Prop) (steady : σ → ι → σ → Prop)
    (start : σ) (labels : List ι) : Prop :=
  ∃ before label after state next, labels = before ++ label :: after ∧
    run step start before = some state ∧ step state label = some next ∧ event before state label next ∧
      Always step steady next after

theorem Since.now {step : σ → ι → Option σ} {event : List ι → σ → ι → σ → Prop} {steady : σ → ι → σ → Prop}
    {start state next : σ} {labels : List ι} {label : ι} (hrun : run step start labels = some state)
    (hstep : step state label = some next) (hevent : event labels state label next) :
    Since step event steady start (labels ++ [label]) :=
  ⟨labels, label, [], state, next, rfl, hrun, hstep, hevent, trivial⟩

theorem Since.imp {step : σ → ι → Option σ} {event event' : List ι → σ → ι → σ → Prop} {steady : σ → ι → σ → Prop}
    {start : σ} {labels : List ι} (hsince : Since step event steady start labels)
    (himp : ∀ before s label t, run step start before = some s → step s label = some t → event before s label t →
      event' before s label t) : Since step event' steady start labels := by
  obtain ⟨before, label, after, s, t, hlabels, hbefore, hstep, hevent, halways⟩ := hsince
  exact ⟨before, label, after, s, t, hlabels, hbefore, hstep, himp before s label t hbefore hstep hevent, halways⟩

theorem Since.extend {step : σ → ι → Option σ} {event : List ι → σ → ι → σ → Prop} {steady : σ → ι → σ → Prop}
    {start state : σ} {labels : List ι} {label : ι} (hsince : Since step event steady start labels)
    (hrun : run step start labels = some state)
    (hsteady : ∀ next, step state label = some next → steady state label next) :
    Since step event steady start (labels ++ [label]) := by
  obtain ⟨before, first, after, s, t, rfl, hbefore, hfirst, hevent, halways⟩ := hsince
  refine ⟨before, first, after ++ [label], s, t, by simp, hbefore, hfirst, hevent, ?_⟩
  obtain ⟨s', hs', hrest⟩ := run_append_eq_some.mp hrun
  obtain rfl : s = s' := Option.some.inj (hbefore.symm.trans hs')
  obtain ⟨t', ht', hafter⟩ := run_cons_eq_some.mp hrest
  obtain rfl : t = t' := Option.some.inj (hfirst.symm.trans ht')
  exact .extend hafter halways fun next hnext => ⟨hsteady next hnext, trivial⟩

/-- What fails at the start of a schedule and holds at its end came about in one step and has
held ever since. -/
theorem since_of_not {step : σ → ι → Option σ} {P : σ → Prop} {start final : σ} {labels : List ι}
    (hrun : run step start labels = some final) (hstart : ¬ P start) (hfinal : P final) :
    Since step (fun _ s _ t => ¬ P s ∧ P t) (fun s _ t => P s ∧ P t) start labels := by
  refine run_induction (P := fun labels s => P s → Since step (fun _ s _ t => ¬ P s ∧ P t)
    (fun s _ t => P s ∧ P t) start labels) (fun h => absurd h hstart) ?_ hrun hfinal
  intro labels s label next hbefore ih hstep hnext
  by_cases hs : P s
  · refine (ih hs).extend hbefore fun other hother => ?_
    obtain rfl := Option.some.inj (hstep.symm.trans hother)
    exact ⟨hs, hnext⟩
  · exact .now hbefore hstep ⟨hs, hnext⟩

/-- A state some schedule reaches from an initial one. -/
def Reachable (step : σ → ι → Option σ) (Init : σ → Prop) (state : σ) : Prop :=
  ∃ start labels, Init start ∧ run step start labels = some state

theorem Reachable.of_init {step : σ → ι → Option σ} {Init : σ → Prop} {state : σ}
    (hinit : Init state) : Reachable step Init state := ⟨state, [], hinit, rfl⟩

theorem Reachable.step {step : σ → ι → Option σ} {Init : σ → Prop} {state next : σ} {label : ι}
    (hreach : Reachable step Init state) (hstep : step state label = some next) :
    Reachable step Init next := by
  obtain ⟨start, labels, hinit, hrun⟩ := hreach
  exact ⟨start, labels ++ [label], hinit, run_snoc_eq_some.mpr ⟨state, hrun, hstep⟩⟩

theorem Reachable.run {step : σ → ι → Option σ} {Init : σ → Prop} {state final : σ} {labels : List ι}
    (hreach : Reachable step Init state) (hrun : Transition.run step state labels = some final) :
    Reachable step Init final := by
  obtain ⟨start, before, hinit, hbefore⟩ := hreach
  exact ⟨start, before ++ labels, hinit, run_append_eq_some.mpr ⟨state, hbefore, hrun⟩⟩

/-- The induction rule of reachable states: an initial and preserved property
is an invariant. -/
theorem Reachable.invariant {step : σ → ι → Option σ} {Init Inv : σ → Prop}
    (hinitial : ∀ state, Init state → Inv state) (hpreserved : Preserved step Inv)
    {state : σ} (hreach : Reachable step Init state) : Inv state := by
  obtain ⟨start, labels, hinit, hrun⟩ := hreach
  exact hpreserved.run (hinitial start hinit) hrun

end Transition
