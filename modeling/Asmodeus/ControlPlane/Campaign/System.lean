import Asmodeus.ControlPlane.Admission
import Asmodeus.ControlPlane.CampaignExecution
import Asmodeus.ControlPlane.Execution.System
import Asmodeus.ControlPlane.Persistent

open asmodeus.common asmodeus.telemetry

namespace asmodeus.control_plane

open campaign_run

/-- The id of the campaign run with a number. -/
def next_campaign_run_id (run_namespace : RunNamespace) (n : UInt64) : String := "c" ++ next_run_id run_namespace n

/-- The queued record is in the audit, and the run has entered the map of runs. -/
def Phase.entered (phase : Phase) : Bool := phase.admitted && decide (phase ≠ .appended)

/-- Where a campaign worker stands. -/
inductive CampaignPhase
  | launched
  | registered
  | looping
  | stopping
  | intending (stage : Stage)
  | intended (stage : Stage)
  | withdrawing
  | starting (stage : Stage)
  | admitting (stage : Stage) (handle : Nat)
  | cancelling (stage : Stage) (handle : Nat)
  | awaiting (stage : Stage) (handle : Nat)
  | reading (stage : Stage) (outcome : Bool)
  | judging (result : CampaignStepResult) (outcome : Bool)
  | recording (result : CampaignStepResult) (terminal : String)
  | completing
  | closing
  | returned
  deriving DecidableEq

/-- The admission of the run is committed, and its worker goes on. -/
def CampaignPhase.is_active : CampaignPhase → Bool
  | .launched | .registered | .closing | .returned => false
  | _ => true

/-- A campaign worker with its copy of the run and its control. -/
structure CampaignWorker where
  run : CampaignRun
  role : Role
  resume : Bool
  control : CampaignControl
  phase : CampaignPhase

/-- Where a cancellation stands. An abort passes over the scenario runs, then
collects the campaigns and sweeps them one by one. -/
inductive CancelPhase
  | aborting (request : Nat)
  | collecting
  | sweeping
  | looking (id : String)
  | flagging (worker : Nat)
  | stopping (worker : Nat) (run_id : String)
  deriving DecidableEq

/-- A cancellation of one campaign run or, over a queue, of all of them.
`found` are the workers it has flagged, `active` those at its start. -/
structure CancelRequest where
  role : Role
  queue : List String
  phase : CancelPhase
  found : List Nat
  active : List Nat

/-- A scenario that was started for a stage of a campaign run. -/
structure Attempt where
  campaign_run : String
  index : Nat
  run_id : String
  deriving DecidableEq

/-- The campaigns of the control plane over the executions they share. `controls`
maps a campaign run to its worker, `issued` are the ids given out and `attempts`
the scenarios started for stages, the latest first. -/
structure CampaignState where
  exec : ExecutionState
  ready : Bool
  catalog : Catalog
  run_namespace : RunNamespace
  campaigns : Persistent CampaignCatalog
  campaign_runs : Persistent CampaignRunStore
  workers : List CampaignWorker
  controls : List (String × Nat)
  requests : List CancelRequest
  issued : List String
  attempts : List Attempt

namespace CampaignState

/-- A process that was never started. -/
def initial (audit_path state_dir : Bool) (catalog : Catalog) (run_namespace : RunNamespace) : CampaignState where
  exec := .initial audit_path
  ready := false
  catalog := catalog
  run_namespace := run_namespace
  campaigns := ⟨.seeded, state_dir⟩
  campaign_runs := ⟨.default, state_dir⟩
  workers := []
  controls := []
  requests := []
  issued := []
  attempts := []

/-- The process is gone, and with it everything in its memory. -/
def crashed (self : CampaignState) (exec : ExecutionState) : CampaignState :=
  { self with
    exec := exec
    ready := false
    campaigns := self.campaigns.reload .seeded
    campaign_runs := self.campaign_runs.reload .default
    workers := []
    controls := []
    requests := [] }

def set_worker (self : CampaignState) (index : Nat) (w : CampaignWorker) : CampaignState :=
  { self with workers := self.workers.set index w }

def set_phase (self : CampaignState) (index : Nat) (w : CampaignWorker) (phase : CampaignPhase) : CampaignState :=
  self.set_worker index { w with phase := phase }

def set_request (self : CampaignState) (index : Nat) (r : CancelRequest) : CampaignState :=
  { self with requests := self.requests.set index r }

/-- The startup over the recovered audit. The snapshot has to pass its validation,
and its interrupted runs are marked before anything is served. -/
def startup (self : CampaignState) (catalog : Catalog) (run_namespace : RunNamespace) (now : String) (disk : Disk) :
    Option CampaignState :=
  if self.exec.is_serving && !self.ready then
    match self.campaign_runs.value.validate with
    | .error _ => some (self.crashed self.exec.crash)
    | .ok () => match self.campaign_runs.update disk fun store => .ok ((), store.recover_interrupted now) with
      | (.error _, _) => some (self.crashed self.exec.crash)
      | (.ok (), runs) => some { self with
          ready := true
          catalog := catalog
          run_namespace := run_namespace
          campaign_runs := runs }
  else none

/-- A step of the executions by anybody else. Run ids are never given out twice. -/
def execute (env : Env) (self : CampaignState) (label : ExecutionLabel) : Option CampaignState :=
  match label with
  | .start id entry role selected now =>
    if self.ready = false ∨ id ∈ self.issued then none
    else (self.exec.step env (.start id entry role selected now)).map fun exec =>
      { self with exec := exec, issued := id :: self.issued }
  | label =>
    if self.exec.is_serving && !self.ready && !(label matches .crash) then none
    else (self.exec.step env label).map fun exec =>
      match exec.process with
      | .down => self.crashed exec
      | _ => { self with exec := exec }

def register_campaign (self : CampaignState) (role : Role) (campaign : Campaign) (disk : Disk) : Option CampaignState :=
  match checked_campaign self.catalog role campaign with
  | .error _ => none
  | .ok checked =>
    let (_, campaigns) := self.campaigns.update disk fun catalog => .ok ((), catalog.register checked)
    some { self with campaigns := campaigns }

theorem register_campaign_ok {self : CampaignState} {role : Role} {campaign checked : Campaign} {disk : Disk}
    (h : checked_campaign self.catalog role campaign = .ok checked) :
    self.register_campaign role campaign disk = some { self with
      campaigns := (self.campaigns.update disk fun catalog => .ok ((), catalog.register checked)).2 } := by
  unfold register_campaign
  rw [h]

def delete_campaign (self : CampaignState) (role : Role) (id : String) (disk : Disk) : Option CampaignState :=
  if may_manage_campaigns role then
    let (_, campaigns) := self.campaigns.update disk fun catalog => .ok ((), catalog.deregister id)
    some { self with campaigns := campaigns }
  else none

/-- `run_campaign` up to the spawn of the worker. -/
def run_campaign (self : CampaignState) (role : Role) (id : String) (target_override : Option String)
    (timeout_sec : Option UInt32) (n : UInt64) (now : String) : Option CampaignState :=
  match self.campaigns.value.get id with
  | none => none
  | some campaign =>
    let run := CampaignRun.queued (next_campaign_run_id self.run_namespace n) campaign role target_override
      timeout_sec now
    if run.id ∈ self.issued then none
    else if authorized self.catalog run role then
      some { self with
        issued := run.id :: self.issued
        workers := self.workers ++ [⟨run, role, false, .default, .launched⟩] }
    else none

theorem run_campaign_ok {self : CampaignState} {role : Role} {id now : String} {target_override : Option String}
    {timeout_sec : Option UInt32} {n : UInt64} {campaign : Campaign} {run : CampaignRun}
    (hfound : self.campaigns.value.get id = some campaign)
    (hrun : CampaignRun.queued (next_campaign_run_id self.run_namespace n) campaign role target_override
      timeout_sec now =
      run)
    (hfresh : run.id ∉ self.issued) (hauthorized : authorized self.catalog run role = true) :
    self.run_campaign role id target_override timeout_sec n now = some { self with
      issued := run.id :: self.issued
      workers := self.workers ++ [⟨run, role, false, .default, .launched⟩] } := by
  unfold run_campaign
  simp only [hfound, hrun, if_neg hfresh, if_pos hauthorized]

/-- `resume_campaign_run` up to the spawn of the worker. -/
def resume_campaign_run (self : CampaignState) (role : Role) (id : String) : Option CampaignState :=
  match self.campaign_runs.value.get id with
  | none => none
  | some run =>
    if authorized self.catalog run role then
      some { self with workers := self.workers ++ [⟨run, role, true, .default, .launched⟩] }
    else none

/-- The worker enters its control into the map, once no other worker of the run is
there. -/
def register (self : CampaignState) (index : Nat) (w : CampaignWorker) : CampaignState :=
  match KeyedList.find Prod.fst w.run.id self.controls with
  | some _ => self.set_phase index w .returned
  | none => { self.set_phase index w .registered with controls := self.controls ++ [(w.run.id, index)] }

/-- The transaction that admits a run. -/
def admission (self : CampaignState) (w : CampaignWorker) (now : String) (store : CampaignRunStore) :
    Except ResumeError CampaignRun × CampaignRunStore :=
  if w.resume then prepare_resume store self.exec.audit w.run.id now else (.ok w.run, store.insert w.run)

def save_admission (self : CampaignState) (index : Nat) (w : CampaignWorker) (now : String) (disk : Disk) :
    CampaignState :=
  match self.campaign_runs.update disk fun store => .ok (self.admission w now store) with
  | (.ok (.ok run), runs) => { self.set_worker index { w with run := run, phase :=
    .looping } with campaign_runs := runs }
  | (.ok (.error _), runs) => { self.set_phase index w .closing with campaign_runs := runs }
  | (.error _, runs) => { self.set_phase index w .closing with campaign_runs := runs }

/-- The head of the loop over the stages. -/
def check (self : CampaignState) (index : Nat) (w : CampaignWorker) (n : UInt64) : Option CampaignState :=
  match w.run.steps[w.run.next_step]? with
  | none => some (self.set_phase index w .completing)
  | some step =>
    if w.control.cancelled then some (self.set_phase index w .stopping)
    else
      let id := next_run_id self.run_namespace n
      if id ∈ self.issued then none
      else some { self.set_phase index w (.intending ⟨step, id⟩) with issued := id :: self.issued }

/-- A commit of the worker to its stored run. Its failure ends the worker. -/
def save (self : CampaignState) (index : Nat) (w : CampaignWorker) (now : String) (disk : Disk)
    (change : CampaignRun → CampaignRun) (next : CampaignRun → CampaignPhase) : CampaignState :=
  match self.campaign_runs.update disk fun store => store.update w.run.id now change with
  | (.ok run, runs) => { self.set_worker index { w with run := run, phase := next run } with campaign_runs := runs }
  | (.error _, runs) => { self.set_phase index w .closing with campaign_runs := runs }

def commit (self : CampaignState) (index : Nat) (w : CampaignWorker) (now : String) (disk : Disk) :
    Option CampaignState :=
  match w.phase with
  | .stopping => some (self.save index w now disk CampaignRun.cancel fun _ => .closing)
  | .intending stage => some (self.save index w now disk (CampaignRun.intend stage) fun _ => .intended stage)
  | .withdrawing => some (self.save index w now disk CampaignRun.withdraw fun _ => .closing)
  | .recording result terminal => some (self.save index w now disk (CampaignRun.record result terminal) fun run =>
      if run.status ≠ RUNNING then .closing else .looping)
  | .completing => some (self.save index w now disk CampaignRun.complete fun _ => .closing)
  | _ => none

/-- The stage is started under the id its intent holds. -/
def start (env : Env) (self : CampaignState) (index : Nat) (w : CampaignWorker) (stage : Stage)
    (selected : Option String) (now : String) : Option CampaignState :=
  match self.catalog.get stage.step.scenario_id with
  | none => none
  | some entry =>
    (self.exec.step env (.start stage.run_id entry.toScenarioEntry w.role selected now)).map fun exec =>
      { self.set_phase index w (.admitting stage self.exec.workers.length) with
        exec := exec
        attempts := ⟨w.run.id, w.run.step_results.length - 1, stage.run_id⟩ :: self.attempts }

/-- The admission of the stage returns. An admitted stage is recorded in the control. -/
def enter (self : CampaignState) (index : Nat) (w : CampaignWorker) (stage : Stage) (handle : Nat) :
    Option CampaignState :=
  match self.exec.workers[handle]? with
  | none => none
  | some x =>
    if x.phase = .refused then some (self.set_phase index w (.reading stage false))
    else if x.phase.entered then
      let (cancelled, control) := w.control.set_current (some stage.run_id)
      some (self.set_worker index { w with
        control := control
        phase := if cancelled then .cancelling stage handle else .awaiting stage handle })
    else none

/-- The scenario of the stage completes. -/
def finish (self : CampaignState) (index : Nat) (w : CampaignWorker) (stage : Stage) (handle : Nat) :
    Option CampaignState :=
  match self.exec.workers[handle]? with
  | none => none
  | some x =>
    if x.phase.ended then some (self.set_worker index { w with
      control := (w.control.set_current none).2
      phase := .reading stage x.succeeded })
    else none

/-- The verdict on a stage. -/
def judge (self : CampaignState) (index : Nat) (w : CampaignWorker) (result : CampaignStepResult) (outcome : Bool) :
    CampaignState :=
  let last := decide (w.run.next_step = w.run.steps.length)
  self.set_phase index w (.recording result (verdict outcome result.status w.control.cancelled last))

/-- The worker leaves the map of controls. -/
def close (self : CampaignState) (index : Nat) (w : CampaignWorker) : CampaignState :=
  { self.set_phase index w .returned with controls := self.controls.filter fun entry => decide (entry.1 ≠ w.run.id) }

/-- The handler of a cancellation up to its look at the controls. -/
def cancel_campaign_run (self : CampaignState) (role : Role) (id : String) : Option CampaignState :=
  match self.campaign_runs.value.get id with
  | none => none
  | some run =>
    if authorized self.catalog run role then
      some { self with requests := self.requests ++ [⟨role, [], .looking id, [], []⟩] }
    else none

/-- The workers whose admission is committed and that have not come to their end. -/
def active (self : CampaignState) : List Nat :=
  (List.range self.workers.length).filter fun index => self.workers[index]?.any fun w => w.phase.is_active

def abort_all (env : Env) (self : CampaignState) (role : Role) : Option CampaignState :=
  (self.exec.step env (.begin_abort role)).map fun exec => { self with
    exec := exec
    requests := self.requests ++ [⟨role, [], .aborting self.exec.stops.length, [], self.active⟩] }

/-- The steps of a cancellation. -/
def cancel_step (env : Env) (self : CampaignState) (index : Nat) (r : CancelRequest) : Option CampaignState :=
  match r.phase with
  | .aborting request => (self.exec.step env (.stop_pass request)).map fun exec =>
      { self.set_request index { r with phase := .collecting } with exec := exec }
  | .collecting => some (self.set_request index { r with queue := self.controls.map Prod.fst, phase := .sweeping })
  | .sweeping => match r.queue with
    | [] => none
    | id :: queue =>
      let next := if (self.campaign_runs.value.get id).any fun run => authorized self.catalog run r.role then
        CancelPhase.looking id else .sweeping
      some (self.set_request index { r with queue := queue, phase := next })
  | .looking id => match KeyedList.find Prod.fst id self.controls with
    | none => some (self.set_request index { r with phase := .sweeping })
    | some entry => some (self.set_request index { r with phase := .flagging entry.2 })
  | .flagging worker => match self.workers[worker]? with
    | none => none
    | some w =>
      let (current, control) := w.control.cancel
      let next := match current with
        | some run_id => CancelPhase.stopping worker run_id
        | none => .sweeping
      some ((self.set_worker worker { w with control := control }).set_request index
        { r with phase := next, found := worker :: r.found })
  | .stopping _ run_id => (self.exec.step env (.cancel_scenario run_id)).map fun exec =>
      { self.set_request index { r with phase := .sweeping } with exec := exec }

end CampaignState

/-- The atomic steps of the campaign handlers, workers and cancellations, and of
everybody else's executions. -/
inductive CampaignLabel
  | exec (label : ExecutionLabel)
  | startup (catalog : Catalog) (run_namespace : RunNamespace) (now : String) (disk : Disk)
  | register_campaign (role : Role) (campaign : Campaign) (disk : Disk)
  | delete_campaign (role : Role) (id : String) (disk : Disk)
  | run_campaign (role : Role) (id : String) (target_override : Option String) (timeout_sec : Option UInt32)
    (n : UInt64) (now : String)
  | resume_campaign_run (role : Role) (id : String)
  | register (index : Nat)
  | admission (index : Nat) (now : String) (disk : Disk)
  | check (index : Nat) (n : UInt64)
  | commit (index : Nat) (now : String) (disk : Disk)
  | recheck (index : Nat)
  | start (index : Nat) (selected : Option String) (now : String)
  | refuse (index : Nat)
  | enter (index : Nat)
  | cancel_stage (index : Nat)
  | finish (index : Nat)
  | read (index : Nat)
  | judge (index : Nat)
  | close (index : Nat)
  | cancel_campaign_run (role : Role) (id : String)
  | abort_all (role : Role)
  | cancel (request : Nat)

namespace CampaignState

/-- One step of a worker. -/
def work (env : Env) (self : CampaignState) (index : Nat) (label : CampaignLabel) (w : CampaignWorker) :
    Option CampaignState :=
  match label, w.phase with
  | .register _, .launched => some (self.register index w)
  | .admission _ now disk, .registered => some (self.save_admission index w now disk)
  | .check _ n, .looping => self.check index w n
  | .commit _ now disk, _ => self.commit index w now disk
  | .recheck _, .intended stage =>
    some (self.set_phase index w (if w.control.cancelled then .withdrawing else .starting stage))
  | .start _ selected now, .starting stage => self.start env index w stage selected now
  | .refuse _, .starting stage => some (self.set_phase index w (.reading stage false))
  | .enter _, .admitting stage handle => self.enter index w stage handle
  | .cancel_stage _, .cancelling stage handle => (self.exec.step env (.cancel_scenario stage.run_id)).map fun exec =>
      { self.set_phase index w (.awaiting stage handle) with exec := exec }
  | .finish _, .awaiting stage handle => self.finish index w stage handle
  | .read _, .reading stage outcome =>
    some (self.set_phase index w (.judging (stage.result (self.exec.audit.get stage.run_id)) outcome))
  | .judge _, .judging result outcome => some (self.judge index w result outcome)
  | .close _, .closing => some (self.close index w)
  | _, _ => none

/-- Only the executions and the startup move while the process is not ready. -/
def step (env : Env) (self : CampaignState) (label : CampaignLabel) : Option CampaignState :=
  match label with
  | .exec label => self.execute env label
  | .startup catalog run_namespace now disk => self.startup catalog run_namespace now disk
  | label =>
    if self.ready then
      match label with
      | .register_campaign role campaign disk => self.register_campaign role campaign disk
      | .delete_campaign role id disk => self.delete_campaign role id disk
      | .run_campaign role id target_override timeout_sec n now =>
        self.run_campaign role id target_override timeout_sec n now
      | .resume_campaign_run role id => self.resume_campaign_run role id
      | .cancel_campaign_run role id => self.cancel_campaign_run role id
      | .abort_all role => self.abort_all env role
      | .cancel request => self.requests[request]?.bind (self.cancel_step env request)
      | .register index | .admission index _ _ | .check index _ | .commit index _ _ | .recheck index | .start index _ _
      | .refuse index | .enter index | .cancel_stage index | .finish index | .read index | .judge index
      | .close index => self.workers[index]?.bind (self.work env index label)
      | _ => none
    else none

end CampaignState

end asmodeus.control_plane
