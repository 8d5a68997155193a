import Asmodeus.ControlPlane.Campaign.System

open asmodeus.common asmodeus.telemetry

namespace asmodeus.control_plane

open campaign_run

/-- What a worker commits in a phase, and the phase after it. -/
inductive CampaignPhase.Saves : CampaignPhase → (CampaignRun → CampaignRun) → (CampaignRun → CampaignPhase) → Prop
  | cancel : Saves .stopping CampaignRun.cancel fun _ => .closing
  | intend (stage : Stage) : Saves (.intending stage) (CampaignRun.intend stage) fun _ => .intended stage
  | withdraw : Saves .withdrawing CampaignRun.withdraw fun _ => .closing
  | record (result : CampaignStepResult) (terminal : String) :
      Saves (.recording result terminal) (CampaignRun.record result terminal)
        fun run => if run.status ≠ RUNNING then .closing else .looping
  | complete : Saves .completing CampaignRun.complete fun _ => .closing

/-- The worker that takes the step. -/
def CampaignLabel.worker : CampaignLabel → Option Nat
  | .register index | .admission index _ _ | .check index _ | .commit index _ _ | .recheck index
  | .start index _ _ | .refuse index | .enter index | .cancel_stage index | .finish index | .read index
  | .judge index | .close index => some index
  | _ => none

/-- A flagged worker with an active stage leaves its scenario to be cancelled. -/
def CancelPhase.after (worker : Nat) : Option String → CancelPhase
  | some run_id => .stopping worker run_id
  | none => .sweeping

namespace CampaignState

/-- What one step of a worker can do, with everything its guards established. -/
inductive Works (env : Env) (s : CampaignState) (index : Nat) (w : CampaignWorker) :
    CampaignLabel → CampaignState → Prop
  | turn_away (hphase : w.phase = .launched) (hheld : (KeyedList.find Prod.fst w.run.id s.controls).isSome = true) :
      Works env s index w (.register index) (s.set_phase index w .returned)
  | register (hphase : w.phase = .launched) (hfree : KeyedList.find Prod.fst w.run.id s.controls = none) :
      Works env s index w (.register index)
        { s.set_phase index w .registered with controls := s.controls ++ [(w.run.id, index)] }
  | admitted (now : String) (disk : Disk) (run : CampaignRun) (next : CampaignRunStore) (hphase : w.phase = .registered)
      (hadmission : s.admission w now s.campaign_runs.value = (.ok run, next))
      (hdisk : s.campaign_runs.path = true → disk = .ok ()) :
      Works env s index w (.admission index now disk)
        { s.set_worker index { w with run := run, phase := .looping } with
          campaign_runs := { s.campaign_runs with value := next } }
  | reject (now : String) (disk : Disk) (e : ResumeError) (next : CampaignRunStore) (hphase : w.phase = .registered)
      (hadmission : s.admission w now s.campaign_runs.value = (.error e, next))
      (hdisk : s.campaign_runs.path = true → disk = .ok ()) :
      Works env s index w (.admission index now disk)
        { s.set_phase index w .closing with campaign_runs := { s.campaign_runs with value := next } }
  | unadmitted (now : String) (disk : Disk) (hphase : w.phase = .registered) (hdisk : disk ≠ .ok ()) :
      Works env s index w (.admission index now disk) (s.set_phase index w .closing)
  | complete (n : UInt64) (hphase : w.phase = .looping) (hdone : w.run.steps[w.run.next_step]? = none) :
      Works env s index w (.check index n) (s.set_phase index w .completing)
  | stop (n : UInt64) (hphase : w.phase = .looping) (hcancelled : w.control.cancelled = true) :
      Works env s index w (.check index n) (s.set_phase index w .stopping)
  | intend (n : UInt64) (step : CampaignStep) (hphase : w.phase = .looping)
      (hstep : w.run.steps[w.run.next_step]? = some step) (hgoing : w.control.cancelled = false)
      (hfresh : next_run_id s.run_namespace n ∉ s.issued) :
      Works env s index w (.check index n)
        { s.set_phase index w (.intending ⟨step, next_run_id s.run_namespace n⟩) with
          issued := next_run_id s.run_namespace n :: s.issued }
  | save (now : String) (disk : Disk) (change : CampaignRun → CampaignRun) (phase : CampaignRun → CampaignPhase)
      (run : CampaignRun) (next : CampaignRunStore) (hsaves : w.phase.Saves change phase)
      (hupdate : s.campaign_runs.value.update w.run.id now change = .ok (run, next)) :
      Works env s index w (.commit index now disk)
        { s.set_worker index { w with run := run, phase := phase run } with
          campaign_runs := { s.campaign_runs with value := next } }
  | unsaved (now : String) (disk : Disk) (change : CampaignRun → CampaignRun) (phase : CampaignRun → CampaignPhase)
      (hsaves : w.phase.Saves change phase) :
      Works env s index w (.commit index now disk) (s.set_phase index w .closing)
  | withdraw (stage : Stage) (hphase : w.phase = .intended stage) (hcancelled : w.control.cancelled = true) :
      Works env s index w (.recheck index) (s.set_phase index w .withdrawing)
  | recheck (stage : Stage) (hphase : w.phase = .intended stage) (hgoing : w.control.cancelled = false) :
      Works env s index w (.recheck index) (s.set_phase index w (.starting stage))
  | start (stage : Stage) (entry : CatalogEntry) (selected : Option String) (now : String) (exec : ExecutionState)
      (hphase : w.phase = .starting stage) (hentry : s.catalog.get stage.step.scenario_id = some entry)
      (hexec : s.exec.step env (.start stage.run_id entry.toScenarioEntry w.role selected now) = some exec) :
      Works env s index w (.start index selected now)
        { s.set_phase index w (.admitting stage s.exec.workers.length) with
          exec := exec
          attempts := ⟨w.run.id, w.run.step_results.length - 1, stage.run_id⟩ :: s.attempts }
  | refuse (stage : Stage) (hphase : w.phase = .starting stage) :
      Works env s index w (.refuse index) (s.set_phase index w (.reading stage false))
  | refused (stage : Stage) (handle : Nat) (x : Worker) (hphase : w.phase = .admitting stage handle)
      (hx : s.exec.workers[handle]? = some x) (hrefused : x.phase = .refused) :
      Works env s index w (.enter index) (s.set_phase index w (.reading stage false))
  | enter (stage : Stage) (handle : Nat) (x : Worker) (hphase : w.phase = .admitting stage handle)
      (hx : s.exec.workers[handle]? = some x) (hentered : x.phase.entered = true) :
      Works env s index w (.enter index)
        (s.set_worker index { w with
          control := { w.control with current := some stage.run_id }
          phase := if w.control.cancelled then .cancelling stage handle else .awaiting stage handle })
  | cancel_stage (stage : Stage) (handle : Nat) (exec : ExecutionState) (hphase : w.phase = .cancelling stage handle)
      (hexec : s.exec.step env (.cancel_scenario stage.run_id) = some exec) :
      Works env s index w (.cancel_stage index) { s.set_phase index w (.awaiting stage handle) with exec := exec }
  | finish (stage : Stage) (handle : Nat) (x : Worker) (hphase : w.phase = .awaiting stage handle)
      (hx : s.exec.workers[handle]? = some x) (hended : x.phase.ended = true) :
      Works env s index w (.finish index)
        (s.set_worker index { w with
          control := { w.control with current := none }
          phase := .reading stage x.succeeded })
  | read (stage : Stage) (outcome : Bool) (hphase : w.phase = .reading stage outcome) :
      Works env s index w (.read index)
        (s.set_phase index w (.judging (stage.result (s.exec.audit.get stage.run_id)) outcome))
  | judge (result : CampaignStepResult) (outcome : Bool) (hphase : w.phase = .judging result outcome) :
      Works env s index w (.judge index) (s.judge index w result outcome)
  | close (hphase : w.phase = .closing) : Works env s index w (.close index) (s.close index w)

/-- What one step of a cancellation can do. -/
inductive Cancels (env : Env) (s : CampaignState) (index : Nat) (r : CancelRequest) : CampaignState → Prop
  | abort (request : Nat) (exec : ExecutionState) (hphase : r.phase = .aborting request)
      (hexec : s.exec.step env (.stop_pass request) = some exec) :
      Cancels env s index r { s.set_request index { r with phase := .collecting } with exec := exec }
  | collect (hphase : r.phase = .collecting) :
      Cancels env s index r (s.set_request index { r with queue := s.controls.map Prod.fst, phase := .sweeping })
  | sweep (id : String) (queue : List String) (run : CampaignRun) (hphase : r.phase = .sweeping)
      (hqueue : r.queue = id :: queue) (hrun : s.campaign_runs.value.get id = some run)
      (hauthorized : authorized s.catalog run r.role = true) :
      Cancels env s index r (s.set_request index { r with queue := queue, phase := .looking id })
  | skip (id : String) (queue : List String) (hphase : r.phase = .sweeping) (hqueue : r.queue = id :: queue)
      (hskip : ∀ run, s.campaign_runs.value.get id = some run → authorized s.catalog run r.role = false) :
      Cancels env s index r (s.set_request index { r with queue := queue, phase := .sweeping })
  | miss (id : String) (hphase : r.phase = .looking id) (hnone : KeyedList.find Prod.fst id s.controls = none) :
      Cancels env s index r (s.set_request index { r with phase := .sweeping })
  | find (id : String) (entry : String × Nat) (hphase : r.phase = .looking id)
      (hentry : KeyedList.find Prod.fst id s.controls = some entry) :
      Cancels env s index r (s.set_request index { r with phase := .flagging entry.2 })
  | flag (worker : Nat) (w : CampaignWorker) (hphase : r.phase = .flagging worker) (hw : s.workers[worker]? = some w) :
      Cancels env s index r
        ((s.set_worker worker { w with control := { w.control with cancelled := true } }).set_request index
          { r with phase := .after worker w.control.current, found := worker :: r.found })
  | cancel_scenario (worker : Nat) (run_id : String) (exec : ExecutionState)
      (hphase : r.phase = .stopping worker run_id)
      (hexec : s.exec.step env (.cancel_scenario run_id) = some exec) :
      Cancels env s index r { s.set_request index { r with phase := .sweeping } with exec := exec }

/-- What one step of the campaigns can do. -/
inductive Moves (env : Env) (s : CampaignState) : CampaignLabel → CampaignState → Prop
  | start (id : String) (entry : ScenarioEntry) (role : Role) (selected : Option String) (now : String)
      (exec : ExecutionState) (hready : s.ready = true) (hfresh : id ∉ s.issued)
      (hexec : s.exec.step env (.start id entry role selected now) = some exec) :
      Moves env s (.exec (.start id entry role selected now)) { s with exec := exec, issued := id :: s.issued }
  | exec (label : ExecutionLabel) (exec : ExecutionState)
      (hother : ∀ id entry role selected now, label ≠ .start id entry role selected now)
      (hexec : s.exec.step env label = some exec) (hlive : exec.process ≠ .down) :
      Moves env s (.exec label) { s with exec := exec }
  | crash (label : ExecutionLabel) (exec : ExecutionState) (hexec : s.exec.step env label = some exec)
      (hdown : exec.process = .down) : Moves env s (.exec label) (s.crashed exec)
  | abandon (catalog : Catalog) (run_namespace : RunNamespace) (now : String) (disk : Disk)
      (hserving : s.exec.is_serving = true) (hready : s.ready = false) :
      Moves env s (.startup catalog run_namespace now disk) (s.crashed s.exec.crash)
  | startup (catalog : Catalog) (run_namespace : RunNamespace) (now : String) (disk : Disk)
      (hserving : s.exec.is_serving = true) (hready : s.ready = false)
      (hvalid : s.campaign_runs.value.validate = .ok ()) :
      Moves env s (.startup catalog run_namespace now disk) { s with
        ready := true
        catalog := catalog
        run_namespace := run_namespace
        campaign_runs := { s.campaign_runs with value := s.campaign_runs.value.recover_interrupted now } }
  | register_campaign (role : Role) (campaign checked : Campaign) (disk : Disk)
      (hready : s.ready = true) (hchecked : checked_campaign s.catalog role campaign = .ok checked) :
      Moves env s (.register_campaign role campaign disk)
        { s with campaigns := { s.campaigns with value := s.campaigns.value.register checked } }
  | delete_campaign (role : Role) (id : String) (disk : Disk) (hready : s.ready = true) :
      Moves env s (.delete_campaign role id disk)
        { s with campaigns := { s.campaigns with value := s.campaigns.value.deregister id } }
  | unregistered (role : Role) (campaign : Campaign) (disk : Disk) :
    Moves env s (.register_campaign role campaign disk) s
  | undeleted (role : Role) (id : String) (disk : Disk) : Moves env s (.delete_campaign role id disk) s
  | launch (role : Role) (id : String) (campaign : Campaign) (target_override : Option String)
      (timeout_sec : Option UInt32) (n : UInt64) (now : String) (run : CampaignRun) (hready : s.ready = true)
      (hcampaign : s.campaigns.value.get id = some campaign)
      (hrun : run = .queued (next_campaign_run_id s.run_namespace n) campaign role target_override timeout_sec now)
      (hfresh : run.id ∉ s.issued) (hauthorized : authorized s.catalog run role = true) :
      Moves env s (.run_campaign role id target_override timeout_sec n now) { s with
        issued := run.id :: s.issued
        workers := s.workers ++ [⟨run, role, false, .default, .launched⟩] }
  | resume (role : Role) (id : String) (run : CampaignRun) (hready : s.ready = true)
      (hrun : s.campaign_runs.value.get id = some run) (hauthorized : authorized s.catalog run role = true) :
      Moves env s (.resume_campaign_run role id)
        { s with workers := s.workers ++ [⟨run, role, true, .default, .launched⟩] }
  | cancel_campaign_run (role : Role) (id : String) (hready : s.ready = true) :
      Moves env s (.cancel_campaign_run role id)
        { s with requests := s.requests ++ [⟨role, [], .looking id, [], []⟩] }
  | abort_all (role : Role) (exec : ExecutionState) (hready : s.ready = true)
      (hexec : s.exec.step env (.begin_abort role) = some exec) :
      Moves env s (.abort_all role) { s with
        exec := exec
        requests := s.requests ++ [⟨role, [], .aborting s.exec.stops.length, [], s.active⟩] }
  | cancel (request : Nat) (r : CancelRequest) (next : CampaignState) (hready : s.ready = true)
      (hrequest : s.requests[request]? = some r) (hcancels : s.Cancels env request r next) :
      Moves env s (.cancel request) next
  | work (index : Nat) (w : CampaignWorker) (label : CampaignLabel) (next : CampaignState) (hready : s.ready = true)
      (hw : s.workers[index]? = some w) (hworks : s.Works env index w label next) : Moves env s label next

section

variable {env : Env} {s next : CampaignState} {index : Nat} {w : CampaignWorker}

theorem register_works (hphase : w.phase = .launched) : s.Works env index w (.register index) (s.register index w) := by
  unfold register
  split
  · rename_i hheld
    exact .turn_away hphase (by rw [hheld]; rfl)
  · exact .register hphase ‹_›

theorem save_admission_works {now : String} {disk : Disk} (hphase : w.phase = .registered) :
    s.Works env index w (.admission index now disk) (s.save_admission index w now disk) := by
  unfold save_admission
  cases hupdate : s.campaign_runs.update disk fun store => .ok (s.admission w now store) with
  | mk result runs =>
    obtain ⟨e, rfl, rfl⟩ | ⟨rfl, rfl, hdisk⟩ := Persistent.update_ok_cases hupdate
    · refine .unadmitted now disk hphase ?_
      rintro rfl
      cases hupdate.symm.trans (Persistent.update_of_ok rfl)
    · cases hadmission : s.admission w now s.campaign_runs.value with
      | mk answer store =>
        cases answer with
        | ok run => exact .admitted now disk run store hphase hadmission hdisk
        | error e => exact .reject now disk e store hphase hadmission hdisk

theorem check_works {n : UInt64} (hphase : w.phase = .looping) (h : s.check index w n = some next) :
    s.Works env index w (.check index n) next := by
  unfold check at h
  split at h
  · exact Option.some.inj h ▸ .complete n hphase ‹_›
  · rename_i step hstep
    split at h
    · exact Option.some.inj h ▸ .stop n hphase ‹_›
    · rename_i hgoing
      dsimp only at h
      split at h
      · cases h
      · exact Option.some.inj h ▸ .intend n step hphase hstep (Bool.eq_false_iff.mpr hgoing) ‹_›

theorem save_works {now : String} {disk : Disk} {change : CampaignRun → CampaignRun}
    {phase : CampaignRun → CampaignPhase} (hsaves : w.phase.Saves change phase) :
    s.Works env index w (.commit index now disk) (s.save index w now disk change phase) := by
  unfold save
  cases hupdate : s.campaign_runs.update disk fun store => store.update w.run.id now change with
  | mk result runs =>
    obtain ⟨e, rfl, rfl⟩ | ⟨run, store, rfl, hrun, rfl⟩ := Persistent.update_cases hupdate
    · exact .unsaved now disk change phase hsaves
    · exact .save now disk change phase run store hsaves hrun

theorem commit_works {now : String} {disk : Disk} (h : s.commit index w now disk = some next) :
    s.Works env index w (.commit index now disk) next := by
  unfold commit at h
  split at h
  · exact Option.some.inj h ▸ save_works (by rw [‹w.phase = _›]; exact .cancel)
  · exact Option.some.inj h ▸ save_works (by rw [‹w.phase = _›]; exact .intend _)
  · exact Option.some.inj h ▸ save_works (by rw [‹w.phase = _›]; exact .withdraw)
  · exact Option.some.inj h ▸ save_works (by rw [‹w.phase = _›]; exact .record _ _)
  · exact Option.some.inj h ▸ save_works (by rw [‹w.phase = _›]; exact .complete)
  · cases h

theorem start_works {stage : Stage} {selected : Option String} {now : String} (hphase : w.phase = .starting stage)
    (h : s.start env index w stage selected now = some next) : s.Works env index w
    (.start index selected now) next := by
  unfold start at h
  split at h
  · cases h
  · obtain ⟨exec, hexec, rfl⟩ := Option.map_eq_some_iff.mp h
    exact .start stage _ selected now exec hphase ‹_› hexec

theorem enter_works {stage : Stage} {handle : Nat} (hphase : w.phase = .admitting stage handle)
    (h : s.enter index w stage handle = some next) : s.Works env index w (.enter index) next := by
  unfold enter at h
  split at h
  · cases h
  · rename_i x hx
    split at h
    · exact Option.some.inj h ▸ .refused stage handle x hphase hx ‹_›
    · split at h
      · have henter : Works env s index w (.enter index) _ := .enter stage handle x hphase hx ‹_›
        simp only [CampaignControl.set_current, Option.isSome_some, Bool.and_true] at h
        exact Option.some.inj h ▸ henter
      · cases h

theorem finish_works {stage : Stage} {handle : Nat} (hphase : w.phase = .awaiting stage handle)
    (h : s.finish index w stage handle = some next) : s.Works env index w (.finish index) next := by
  unfold finish at h
  split at h
  · cases h
  · rename_i x hx
    split at h
    · exact Option.some.inj h ▸ .finish stage handle x hphase hx ‹_›
    · cases h

theorem cancel_step_cancels {r : CancelRequest} (h : s.cancel_step env index r = some next) :
    s.Cancels env index r next := by
  unfold cancel_step at h
  split at h
  · obtain ⟨exec, hexec, rfl⟩ := Option.map_eq_some_iff.mp h
    exact .abort _ exec ‹_› hexec
  · exact Option.some.inj h ▸ .collect ‹_›
  · split at h
    · cases h
    · rename_i id queue hqueue
      cases hrun : s.campaign_runs.value.get id with
      | none =>
        rw [hrun] at h
        exact Option.some.inj h ▸ .skip id queue ‹_› hqueue fun run hget => by cases hrun.symm.trans hget
      | some run =>
        rw [hrun] at h
        cases hauthorized : authorized s.catalog run r.role with
        | true =>
          rw [Option.any_some, hauthorized] at h
          exact Option.some.inj h ▸ .sweep id queue run ‹_› hqueue hrun hauthorized
        | false =>
          rw [Option.any_some, hauthorized] at h
          refine Option.some.inj h ▸ .skip id queue ‹_› hqueue fun other hget => ?_
          obtain rfl := Option.some.inj (hrun.symm.trans hget)
          exact hauthorized
  · split at h
    · exact Option.some.inj h ▸ .miss _ ‹_› ‹_›
    · exact Option.some.inj h ▸ .find _ _ ‹_› ‹_›
  · split at h
    · cases h
    · rename_i w hw
      exact Option.some.inj h ▸ .flag _ w ‹_› hw
  · obtain ⟨exec, hexec, rfl⟩ := Option.map_eq_some_iff.mp h
    exact .cancel_scenario _ _ exec ‹_› hexec

theorem work_works {label : CampaignLabel} (hlabel : label.worker = some index)
    (h : s.work env index label w = some next) : s.Works env index w label next := by
  unfold work at h
  split at h
  · obtain rfl := Option.some.inj hlabel
    exact Option.some.inj h ▸ register_works ‹_›
  · obtain rfl := Option.some.inj hlabel
    exact Option.some.inj h ▸ save_admission_works ‹_›
  · obtain rfl := Option.some.inj hlabel
    exact check_works ‹_› h
  · obtain rfl := Option.some.inj hlabel
    exact commit_works h
  · rename_i hphase
    obtain rfl := Option.some.inj hlabel
    cases hcancelled : w.control.cancelled with
    | true =>
      rw [hcancelled] at h
      exact Option.some.inj h ▸ .withdraw _ hphase hcancelled
    | false =>
      rw [hcancelled] at h
      exact Option.some.inj h ▸ .recheck _ hphase hcancelled
  · obtain rfl := Option.some.inj hlabel
    exact start_works ‹_› h
  · obtain rfl := Option.some.inj hlabel
    exact Option.some.inj h ▸ .refuse _ ‹_›
  · obtain rfl := Option.some.inj hlabel
    exact enter_works ‹_› h
  · obtain rfl := Option.some.inj hlabel
    obtain ⟨exec, hexec, rfl⟩ := Option.map_eq_some_iff.mp h
    exact .cancel_stage _ _ exec ‹_› hexec
  · obtain rfl := Option.some.inj hlabel
    exact finish_works ‹_› h
  · obtain rfl := Option.some.inj hlabel
    exact Option.some.inj h ▸ .read _ _ ‹_›
  · obtain rfl := Option.some.inj hlabel
    exact Option.some.inj h ▸ .judge _ _ ‹_›
  · obtain rfl := Option.some.inj hlabel
    exact Option.some.inj h ▸ .close ‹_›
  · cases h

theorem execute_moves {label : ExecutionLabel} (h : s.execute env label = some next) :
    s.Moves env (.exec label) next := by
  unfold execute at h
  split at h
  · split at h
    · cases h
    · rename_i hguard
      rw [not_or, Bool.not_eq_false] at hguard
      obtain ⟨exec, hexec, rfl⟩ := Option.map_eq_some_iff.mp h
      exact .start _ _ _ _ _ exec hguard.1 hguard.2 hexec
  · rename_i hother
    obtain ⟨-, h⟩ := Option.ite_none_left_eq_some.mp h
    obtain ⟨exec, hexec, hnext⟩ := Option.map_eq_some_iff.mp h
    split at hnext
    · subst hnext
      exact .crash _ exec hexec ‹_›
    · rename_i hlive
      subst hnext
      exact .exec _ exec (fun id entry role selected now heq => hother id entry role selected now heq) hexec hlive

theorem startup_moves {catalog : Catalog} {run_namespace : RunNamespace} {now : String} {disk : Disk}
    (h : s.startup catalog run_namespace now disk = some next) :
    s.Moves env (.startup catalog run_namespace now disk) next := by
  unfold startup at h
  split at h
  · rename_i hguard
    rw [Bool.and_eq_true, Bool.not_eq_true'] at hguard
    obtain ⟨hserving, hready⟩ := hguard
    split at h
    · exact Option.some.inj h ▸ .abandon catalog run_namespace now disk hserving hready
    · rename_i hvalid
      cases hupdate : s.campaign_runs.update disk fun store => .ok ((), store.recover_interrupted now) with
      | mk result runs =>
        rw [hupdate] at h
        obtain ⟨e, rfl, rfl⟩ | ⟨rfl, rfl, -⟩ := Persistent.update_ok_cases hupdate
        · exact Option.some.inj h ▸ .abandon catalog run_namespace now disk hserving hready
        · exact Option.some.inj h ▸ .startup catalog run_namespace now disk hserving hready hvalid
  · cases h

theorem register_campaign_moves {role : Role} {campaign : Campaign} {disk : Disk} (hready : s.ready = true)
    (h : s.register_campaign role campaign disk = some next) :
      s.Moves env (.register_campaign role campaign disk) next := by
  unfold register_campaign at h
  split at h
  · cases h
  · rename_i checked hchecked
    cases hupdate : s.campaigns.update disk fun catalog => .ok ((), catalog.register checked) with
    | mk result campaigns =>
      rw [hupdate] at h
      obtain ⟨e, rfl, rfl⟩ | ⟨rfl, rfl, -⟩ := Persistent.update_ok_cases hupdate
      · exact Option.some.inj h ▸ .unregistered role campaign disk
      · exact Option.some.inj h ▸ .register_campaign role campaign checked disk hready hchecked

theorem delete_campaign_moves {role : Role} {id : String} {disk : Disk} (hready : s.ready = true)
    (h : s.delete_campaign role id disk = some next) : s.Moves env (.delete_campaign role id disk) next := by
  unfold delete_campaign at h
  split at h
  · cases hupdate : s.campaigns.update disk fun catalog => .ok ((), catalog.deregister id) with
    | mk result campaigns =>
      rw [hupdate] at h
      obtain ⟨e, rfl, rfl⟩ | ⟨rfl, rfl, -⟩ := Persistent.update_ok_cases hupdate
      · exact Option.some.inj h ▸ .undeleted role id disk
      · exact Option.some.inj h ▸ .delete_campaign role id disk hready
  · cases h

theorem run_campaign_moves {role : Role} {id : String} {target_override : Option String} {timeout_sec : Option UInt32}
    {n : UInt64} {now : String} (hready : s.ready = true)
    (h : s.run_campaign role id target_override timeout_sec n now = some next) :
    s.Moves env (.run_campaign role id target_override timeout_sec n now) next := by
  unfold run_campaign at h
  split at h
  · cases h
  · rename_i campaign hcampaign
    dsimp only at h
    split at h
    · cases h
    · split at h
      · exact Option.some.inj h ▸ .launch role id campaign target_override timeout_sec n now _ hready hcampaign
          rfl ‹_› ‹_›
      · cases h

theorem resume_campaign_run_moves {role : Role} {id : String} (hready : s.ready = true)
    (h : s.resume_campaign_run role id = some next) : s.Moves env (.resume_campaign_run role id) next := by
  unfold resume_campaign_run at h
  split at h
  · cases h
  · rename_i run hrun
    split at h
    · exact Option.some.inj h ▸ .resume role id run hready hrun ‹_›
    · cases h

theorem cancel_campaign_run_moves {role : Role} {id : String} (hready : s.ready = true)
    (h : s.cancel_campaign_run role id = some next) : s.Moves env (.cancel_campaign_run role id) next := by
  unfold cancel_campaign_run at h
  split at h
  · cases h
  · split at h
    · exact Option.some.inj h ▸ .cancel_campaign_run role id hready
    · cases h

/-- Every step is one of the moves. -/
theorem step_moves {label : CampaignLabel} (h : s.step env label = some next) : s.Moves env label next := by
  unfold step at h
  split at h
  · exact execute_moves h
  · exact startup_moves h
  · split at h
    · rename_i hready
      have hwork {index : Nat} {label : CampaignLabel} (hlabel : label.worker = some index)
          (hwork : s.workers[index]?.bind (s.work env index label) = some next) : s.Moves env label next := by
        obtain ⟨w, hw, hworks⟩ := Option.bind_eq_some_iff.mp hwork
        exact .work index w label next hready hw (work_works hlabel hworks)
      split at h
      · exact register_campaign_moves hready h
      · exact delete_campaign_moves hready h
      · exact run_campaign_moves hready h
      · exact resume_campaign_run_moves hready h
      · exact cancel_campaign_run_moves hready h
      · obtain ⟨exec, hexec, rfl⟩ := Option.map_eq_some_iff.mp h
        exact .abort_all _ exec hready hexec
      · obtain ⟨r, hr, hcancel⟩ := Option.bind_eq_some_iff.mp h
        exact .cancel _ r next hready hr (cancel_step_cancels hcancel)
      all_goals first | exact hwork rfl h | cases h
    · cases h

end

end CampaignState

end asmodeus.control_plane
