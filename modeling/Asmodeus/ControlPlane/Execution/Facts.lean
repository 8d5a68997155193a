import Asmodeus.ControlPlane.AuditStore.Agreement
import Asmodeus.ControlPlane.Execution.Sound

open asmodeus.common asmodeus.telemetry

namespace asmodeus.control_plane

/-- Over every interleaving of workers, feedback requests, failed writes,
crashes and restarts, from any log that was there before, the store holds exactly
the committed history, and that history never changes the execution facts of a run
once they are terminal. -/
theorem ExecutionState.facts_immutable (env : Env) {s : ExecutionState}
    (hreach : Transition.Reachable (ExecutionState.step env) Initial s) :
    s.audit.Faithful (s.history.map Prod.snd) ∧ FactsImmutable s.history := by
  have hsound := sound_of_reachable hreach
  exact ⟨hsound.faithful, .of_commitLaw hsound.lawful⟩

/-- Fixed stand-ins for the outside of the process, for runs on fixed inputs. -/
noncomputable def blank_env : Env where
  crypto := blank_crypto
  key := []
  reader := strict_reader
  verify_with_key _ := true
  to_uppercase := ascii_uppercase
  display := Status.message

def canary_entry : ScenarioEntry :=
  ⟨"SCN-RT-001", "Credential Access Canary", .RedTeam, some ("T1003.008", "Credential Access"), "high"⟩

def missed_feedback : RunFeedbackPayload := ⟨false, none, none, false, none, none⟩

/-- A record from before there was evidence. -/
def legacy_record : AuditRecord := { runner_record "run-0" "COMPLETED" with evidence := none }

/-- The first feedback on the inherited run. -/
def legacy_run : List ExecutionLabel :=
  [.restart, .recover "2026-09-22T00:00:00Z" (.ok ()), .check_feedback .SecOps "run-0" missed_feedback,
    .commit_feedback 0 "2026-09-22T00:00:01Z" (.ok ())]

/-- A process that trusts what it inherits starts on it. -/
theorem ExecutionState.inherited_restart (env : Env) (revisions : List AuditRecord)
    (htrusted : (replay revisions).all env.verify_with_key = true) :
    (inherited revisions).step env .restart = some { inherited revisions with
      process := .recovering (inherited revisions).audit.incomplete } := by
  have hload : AuditStore.load env.reader (inherited revisions).audit.log = .ok (inherited revisions).audit :=
    (inherited_sound revisions).faithful.reload env.reader rfl
  have hdown : (inherited revisions).process = .down := rfl
  change (inherited revisions).restart env = _
  simp only [ExecutionState.restart, hdown, hload]
  exact if_pos htrusted

/-- A terminal record without evidence does not keep its execution facts: with its
first feedback it becomes an unverified one. -/
theorem legacy_facts_change : ∃ s x y,
    Transition.run (ExecutionState.step blank_env) (.inherited [legacy_record]) legacy_run = some s ∧
      s.history = [(.legacy, x), (.feedback, y)] ∧ y.run_id = x.run_id ∧ x.is_terminal = true ∧
        (execution_facts x).execution_mode = none ∧ (execution_facts y).execution_mode = some "legacy_unverified" ∧
          (execution_facts x).cleanup_confirmed = none ∧ (execution_facts y).cleanup_confirmed = some false := by
  have hstart := ExecutionState.inherited_restart blank_env [legacy_record] rfl
  refine ⟨_, _, _, Transition.run_cons_eq_some.mpr ⟨_, hstart, rfl⟩, rfl, rfl, rfl, rfl, rfl, rfl, rfl⟩

/-- A simulated run from its admission to a feedback, after the one that was
inherited. -/
def simulated_run : List ExecutionLabel :=
  [.start "run-1" canary_entry .RedTeam none "2026-09-22T00:00:02Z", .append 0 (.ok ()), .insert 0,
    .simulate 0 .elapsed, .commit 0 "2026-09-22T00:00:03Z" (.ok ()), .remove 0,
    .check_feedback .SecOps "run-1" missed_feedback, .commit_feedback 0 "2026-09-22T00:00:04Z" (.ok ())]

theorem simulated_run_facts : ∃ s,
    Transition.run (ExecutionState.step blank_env) (.inherited [legacy_record]) (legacy_run ++ simulated_run) = some s ∧
      s.history.map Prod.fst = [.legacy, .feedback, .admission, .worker, .feedback] ∧ FactsImmutable s.history := by
  have hstart := ExecutionState.inherited_restart blank_env [legacy_record] rfl
  have hrun : Transition.run (ExecutionState.step blank_env) (.inherited [legacy_record])
    (legacy_run ++ simulated_run) =
    some _ := Transition.run_cons_eq_some.mpr ⟨_, hstart, rfl⟩
  exact ⟨_, hrun, rfl, (ExecutionState.facts_immutable blank_env ⟨_, _, Or.inr ⟨_, rfl⟩, hrun⟩).2⟩

end asmodeus.control_plane
