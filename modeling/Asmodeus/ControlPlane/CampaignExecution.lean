import Asmodeus.ControlPlane.AuditStore
import Asmodeus.ControlPlane.CampaignRun

open asmodeus.common asmodeus.telemetry

namespace asmodeus.control_plane

open campaign_run

inductive CampaignError
  | NotFound (message : String)
  | Forbidden (message : String)
  | Conflict (message : String)
  | Persistence (message : String)
  deriving DecidableEq

/-- The caller may launch every step of the plan. -/
def authorize_steps (catalog : Catalog) (role : Role) : List CampaignStep → Except CampaignError Unit
  | [] => .ok ()
  | step :: steps => match catalog.get step.scenario_id with
    | none => .error (.NotFound ("scenario not found: " ++ step.scenario_id))
    | some entry =>
      if role.can entry.category.required_capability then authorize_steps catalog role steps
      else .error (.Forbidden "role may not execute every campaign category")

def authorize (catalog : Catalog) (run : CampaignRun) (role : Role) : Except CampaignError Unit :=
  if !role.can .RunRedTeam && !role.can .InjectChaos then .error (.Forbidden "role may not launch attack campaigns")
  else authorize_steps catalog role run.steps

def authorized (catalog : Catalog) (run : CampaignRun) (role : Role) : Bool := (authorize catalog run role).isOk

/-- The run a launch request asks for. -/
def CampaignRun.queued (id : String) (campaign : Campaign) (role : Role) (target_override : Option String)
    (timeout_sec : Option UInt32) (now : String) : CampaignRun where
  id := id
  campaign_id := campaign.id
  campaign_name := campaign.name
  initiator := role.as_str
  target_override := target_override
  timeout_sec := timeout_sec
  steps := campaign.steps
  status := QUEUED
  step_results := []
  superseded_results := []
  resume_count := 0
  created_utc := now
  updated_utc := now

/-- Consult the signed audit about the last attempt of a run. A stage that was
committed is never replayed. -/
def reconcile (audit : AuditStore) (last : CampaignStepResult) : Except ResumeError CampaignStepResult :=
  match audit.get last.run_id with
  | some record =>
    let simulated := record.evidence.any fun e => e.execution_mode == "simulated"
    let cleaned := ["SUCCESS", "NOT_APPLICABLE"].contains record.cleanup_status
    if !record.is_terminal || (!simulated && !cleaned) then .error (.NotResumable "stage cleanup is unconfirmed")
    else if record.status = COMPLETED then .ok { last with
      status := record.status
      mttd_ms := record.measurements.mttd_ms
      mttr_ms := record.measurements.mttr_ms
      detected := record.measurements.blue_team_detected
      evidence := record.evidence }
    else .ok last
  | none =>
    -- cancellation was recorded before the stage was admitted
    if last.status = CANCELLED ∧ last.run_id = "" then .ok last
    else .error (.NotResumable "previous stage audit is unavailable; cannot prove safe retry")

def prepare_resume (store : CampaignRunStore) (audit : AuditStore) (id now : String) :
    Except ResumeError CampaignRun × CampaignRunStore :=
  match store.get id with
  | none => (.error .NotFound, store)
  | some current =>
    if !current.is_resumable then (.error (.NotResumable current.status), store)
    else match current.step_results.getLast?.filter fun r => r.status ≠ COMPLETED with
      | some last => match reconcile audit last with
        | .error e => (.error e, store)
        | .ok stored => (store.set (current.set_last fun _ => stored)).begin_resume id now
      | none => store.begin_resume id now

/-- One transaction on a stored run. -/
def CampaignRunStore.update (self : CampaignRunStore) (id now : String) (change : CampaignRun → CampaignRun) :
    Except IoError (CampaignRun × CampaignRunStore) :=
  match self.get id with
  | none => .error (.other "campaign run disappeared")
  | some run =>
    let saved := { change run with updated_utc := now }
    .ok (saved, (self.set saved).prune)

/-- A stage of a run: its step and the id its scenario runs under. -/
structure Stage where
  step : CampaignStep
  run_id : String
  deriving DecidableEq

/-- The durable intent of a stage. -/
def Stage.pending (self : Stage) : CampaignStepResult where
  step_order := self.step.order
  scenario_id := self.step.scenario_id
  run_id := self.run_id
  status := RUNNING
  mttd_ms := 0
  mttr_ms := 0
  detected := false
  evidence := none

/-- What a stage came to, as the audit tells it. -/
def Stage.result (self : Stage) (audit : Option AuditRecord) : CampaignStepResult where
  step_order := self.step.order
  scenario_id := self.step.scenario_id
  run_id := self.run_id
  status := (audit.map AuditRecord.status).getD FAILED
  mttd_ms := (audit.map fun r => r.measurements.mttd_ms).getD 0
  mttr_ms := (audit.map fun r => r.measurements.mttr_ms).getD 0
  detected := audit.any fun r => r.measurements.blue_team_detected
  evidence := audit.bind AuditRecord.evidence

/-- The status of a run after a stage. A failed audit commit admits neither the
next stage nor a resume. -/
def verdict (outcome : Bool) (status : String) (cancelled last : Bool) : String :=
  if !outcome && [QUEUED, RUNNING].contains status then INTERRUPTED
  else if status = CANCELLED then CANCELLED
  else if status ≠ COMPLETED ∨ outcome = false then FAILED
  else if cancelled then CANCELLED
  else if last then COMPLETED
  else RUNNING

namespace CampaignRun

def cancel (self : CampaignRun) : CampaignRun := { self with status := CANCELLED }

def intend (stage : Stage) (self : CampaignRun) : CampaignRun :=
  { self with status := RUNNING, step_results := self.step_results ++ [stage.pending] }

/-- The intent of a stage that is cancelled before its admission. -/
def withdraw (self : CampaignRun) : CampaignRun :=
  ({ self with status := CANCELLED } : CampaignRun).set_last fun last => { last with status := CANCELLED, run_id := "" }

def record (result : CampaignStepResult) (terminal : String) (self : CampaignRun) : CampaignRun :=
  { self.set_last fun _ => result with status := terminal }

def complete (self : CampaignRun) : CampaignRun := { self with status := COMPLETED }

end CampaignRun

/-- Live control of a campaign worker: whether it is cancelled, and the admitted
scenario run of its active stage. -/
structure CampaignControl where
  cancelled : Bool
  current : Option String
  deriving DecidableEq

namespace CampaignControl

def default : CampaignControl := ⟨false, none⟩

/-- Request cancellation. Returns the active stage run to cancel. -/
def cancel (self : CampaignControl) : Option String × CampaignControl := (self.current, { self with cancelled := true })

/-- Record the admitted stage run. Returns whether a cancellation arrived before. -/
def set_current (self : CampaignControl) (run : Option String) : Bool × CampaignControl :=
  (self.cancelled && run.isSome, { self with current := run })

end CampaignControl

end asmodeus.control_plane
