import Asmodeus.Runner.Deadline

open asmodeus.dsl UnixPath
open asmodeus.control_plane (EventKind RunnerEvent)

namespace asmodeus.runner

/-- What a statement asks of the host, over what stands for the sandbox directory. -/
inductive Operation (δ : Type)
  | create (target_dir : String) (dir : δ)
  | throttle (cpu_limit_percent : UInt32)
  | start (spec : NetChaosSpec)
  | revert
  | canary (dir : δ) (file_count chunk_size_kb : UInt32)
  | create_dir_all (dir : δ)
  | write (dir : δ) (i size : Nat)
  | injector (id : String) (dir : δ) (file_count chunk_size_kb : UInt32)
  | inject (id : String) (dir : δ) (file_count chunk_size_kb : UInt32)
  | clean (id : String) (dir : δ)
  | sleep (stop : Nat)
  | remove_dir_all (dir : δ)
  deriving DecidableEq

def Operation.map {δ ε : Type} (f : δ → ε) : Operation δ → Operation ε
  | .create target_dir dir => .create target_dir (f dir)
  | .throttle cpu_limit_percent => .throttle cpu_limit_percent
  | .start spec => .start spec
  | .revert => .revert
  | .canary dir file_count chunk_size_kb => .canary (f dir) file_count chunk_size_kb
  | .create_dir_all dir => .create_dir_all (f dir)
  | .write dir i size => .write (f dir) i size
  | .injector id dir file_count chunk_size_kb => .injector id (f dir) file_count chunk_size_kb
  | .inject id dir file_count chunk_size_kb => .inject id (f dir) file_count chunk_size_kb
  | .clean id dir => .clean id (f dir)
  | .sleep stop => .sleep stop
  | .remove_dir_all dir => .remove_dir_all (f dir)

/-- The registered name of an action's injector. The other two have none. -/
def injector_id : Action → String
  | .K8sEscapeProbe => "K8S_ESCAPE_SIMULATION"
  | .C2Beacon => "C2_BEACONING_SIMULATION"
  | .CredentialCanary => "CREDENTIAL_ACCESS_CANARY"
  | .LogTamperCanary => "LOG_TAMPER_CANARY"
  | .PersistenceCanary => "PERSISTENCE_CRON_CANARY"
  | .ExfiltrationCanary => "DATA_EXFILTRATION_CANARY"
  | .WatchdogProbe => "DEFENSE_IMPAIRMENT_CANARY"
  | .LatencySpike | .SyntheticCanaryEncrypt => ""

/-- The directory a request gets below the signed one. -/
def sandbox_dir (plan : ExecutionPlan) (req : ExecuteRequest) : List Char :=
  join plan.target_dir.toList req.run_id.toList

/-- What a statement asks of the host under a plan, wherever the sandbox is. -/
def Pc.operation (plan : ExecutionPlan) : Pc → Option (Operation Unit)
  | .creating => some (.create plan.target_dir ())
  | .checking _ => some (.throttle plan.cpu_limit_percent)
  | .session => some (.start (net_chaos_spec plan))
  | .reverting _ => some .revert
  | .making_canary => some (.canary () plan.file_count plan.chunk_size_kb)
  | .making_dir => some (.create_dir_all ())
  | .writing i _ => some (.write () i (plan.chunk_size_kb.toNat * 1024))
  | .making_injector => some (.injector (injector_id plan.action) () plan.file_count plan.chunk_size_kb)
  | .injection => some (.inject (injector_id plan.action) () plan.file_count plan.chunk_size_kb)
  | .cleaning _ _ => some (.clean (injector_id plan.action) ())
  | .waiting _ stop => some (.sleep stop)
  | .pausing _ _ stop => some (.sleep stop)
  | .removing _ => some (.remove_dir_all ())
  | .dropping _ => some (.remove_dir_all ())
  | _ => none

namespace Worker

/-- The next request to the host. -/
def operation (w : Worker) : Option (Operation (List Char)) :=
  match w.pc with
  | .creating => some (.create w.plan.target_dir (join w.plan.target_dir.toList w.req.run_id.toList))
  | .checking _ => some (.throttle w.plan.cpu_limit_percent)
  | .session => some (.start (net_chaos_spec w.plan))
  | .reverting _ => some .revert
  | .making_canary => some (.canary w.sandbox.path w.plan.file_count w.plan.chunk_size_kb)
  | .making_dir => some (.create_dir_all w.sandbox.path)
  | .writing i _ => some (.write w.sandbox.path i (w.plan.chunk_size_kb.toNat * 1024))
  | .making_injector =>
    some (.injector (injector_id w.plan.action) w.sandbox.path w.plan.file_count w.plan.chunk_size_kb)
  | .injection => some (.inject (injector_id w.plan.action) w.sandbox.path w.plan.file_count w.plan.chunk_size_kb)
  | .cleaning _ _ => some (.clean (injector_id w.plan.action) w.sandbox.path)
  | .waiting _ stop => some (.sleep stop)
  | .pausing _ _ stop => some (.sleep stop)
  | .removing _ => some (.remove_dir_all w.sandbox.path)
  | .dropping _ => some (.remove_dir_all w.sandbox.path)
  | _ => none

/-- What a call asks of the host, in order. -/
def operations (w : Worker) : List (Reading × Outcome) → List (Operation (List Char))
  | [] => []
  | (r, o) :: rest => w.operation.toList ++ (w.step r o).operations rest

/-- The worker of another request in the same place. -/
def rename (w : Worker) (req : ExecuteRequest) : Worker :=
  { w with
    req := req
    sandbox := ⟨if w.sandbox.path = [] then [] else sandbox_dir w.plan req⟩
    events := w.events.map fun ev => { ev with run_id := req.run_id } }

end Worker

/-- A request whose sandbox name and signed directory are in scope. -/
structure Placeable (plan : ExecutionPlan) (req : ExecuteRequest) : Prop where
  target_dir : path_in_scope plan.target_dir = true
  run_id : req.run_id ≠ "" ∧ req.run_id.utf8ByteSize ≤ 96 ∧ req.run_id.toList.all run_id_char = true

theorem Placeable.in_scope {plan : ExecutionPlan} {req : ExecuteRequest} (h : Placeable plan req) :
    path_in_scope (String.ofList (sandbox_dir plan req)) = true :=
  join_in_scope h.target_dir (run_id_name h.run_id.1 h.run_id.2.2)

theorem Placeable.ne_nil {plan : ExecutionPlan} {req : ExecuteRequest} (h : Placeable plan req) :
    sandbox_dir plan req ≠ [] := by
  obtain ⟨hhead, -⟩ := path_in_scope_components h.in_scope
  rw [String.toList_ofList] at hhead
  intro hnil
  rw [hnil] at hhead
  cases hhead

theorem Placeable.create {plan : ExecutionPlan} {req : ExecuteRequest} (h : Placeable plan req)
    (file_system : List Char → Except String Unit) :
    Sandbox.create plan.target_dir req.run_id file_system =
      (file_system (sandbox_dir plan req)).map fun _ => ⟨sandbox_dir plan req⟩ := by
  rw [Sandbox.create, h.target_dir, h.run_id.2.2, decide_eq_false h.run_id.1,
    decide_eq_false (Nat.not_lt.mpr h.run_id.2.1)]
  cases hcreated : file_system (sandbox_dir plan req) with
  | error e =>
    rw [sandbox_dir] at hcreated
    simp [hcreated, Except.map]
  | ok _ =>
    rw [sandbox_dir] at hcreated
    simp [hcreated, Except.map, sandbox_dir]

theorem Placeable.make_injector {plan : ExecutionPlan} {req : ExecuteRequest} (h : Placeable plan req) :
    make_injector (sandbox_dir plan req) = .ok () := by
  rw [runner.make_injector, h.in_scope, if_pos rfl]

section

variable {w : Worker} {r : Reading} {o : Outcome}

/-- The statements with a sandbox in scope. -/
def Pc.placed : Pc → Bool
  | .starting | .creating | .rejecting _ | .returned _ => false
  | _ => true

/-- The sandbox is where the plan and the run id say. -/
def Placed (w : Worker) : Prop := w.pc.placed = true → w.sandbox.path = sandbox_dir w.plan w.req

theorem passed_sandbox (w : Worker) (point : CheckPoint) : (w.passed point).sandbox = w.sandbox := by
  cases point with
  | entry =>
    unfold Worker.passed
    dsimp only
    split <;> rfl
  | dwell_end d => cases d <;> rfl
  | _ => rfl

theorem stopped_sandbox (w : Worker) (e : InjectError) (point : CheckPoint) :
    (w.stopped e point).sandbox = w.sandbox := by
  cases point with
  | dwell d stop => cases d <;> rfl
  | dwell_end d => cases d <;> rfl
  | _ => rfl

theorem next_file_sandbox (w : Worker) (i bytes : Nat) (r : Reading) :
    (w.next_file i bytes r).sandbox = w.sandbox := by
  unfold Worker.next_file
  split <;> rfl

theorem revert_sandbox (w : Worker) (o : Outcome) : (w.revert o).sandbox = w.sandbox := by
  unfold Worker.revert
  split
  · rfl
  · split <;> rfl

theorem clean_injector_sandbox (w : Worker) (o : Outcome) : (w.clean_injector o).sandbox = w.sandbox := by
  unfold Worker.clean_injector
  split <;> rfl

theorem step_sandbox (hpc : w.pc ≠ .creating) : (w.step r o).sandbox = w.sandbox := by
  unfold Worker.step
  cases hat : w.pc with
  | creating => exact absurd hat hpc
  | checking point =>
    dsimp only
    split
    · rfl
    · exact passed_sandbox w point
    · exact stopped_sandbox w _ point
  | reverting waited => cases waited <;> exact revert_sandbox w o
  | cleaning waited injected => cases waited <;> exact clean_injector_sandbox w o
  | making_dir =>
    dsimp only
    split
    · rfl
    · exact next_file_sandbox w ..
  | pausing i bytes stop =>
    dsimp only
    split
    · rfl
    · exact next_file_sandbox w ..
  | session | making_canary | writing | making_injector | injection | waiting | removing =>
    dsimp only
    split <;> rfl
  | _ => rfl

theorem Placed.step (hw : Placed w) (hplace : Placeable w.plan w.req) : Placed (w.step r o) := by
  intro hplaced
  cases hpc : w.pc with
  | starting =>
    rw [Worker.step, hpc] at hplaced
    cases hplaced
  | creating =>
    rw [Worker.step, hpc] at hplaced ⊢
    dsimp only at hplaced ⊢
    rw [hplace.create] at hplaced ⊢
    cases ho : o.sandbox with
    | error e =>
      rw [ho] at hplaced
      cases hplaced
    | ok _ => rfl
  | rejecting e =>
    rw [Worker.step, hpc] at hplaced
    cases hplaced
  | returned cleaned =>
    rw [Worker.step, hpc] at hplaced
    dsimp only at hplaced
    rw [hpc] at hplaced
    cases hplaced
  | _ =>
    have hsandbox := step_sandbox (r := r) (o := o) (w := w) (by rw [hpc]; exact Pc.noConfusion)
    have hfixed : Fixed w (w.step r o) := fixed_step (by rw [hpc]; exact Pc.noConfusion)
    rw [hsandbox, hfixed.plan, hfixed.req]
    exact hw (by rw [hpc]; rfl)

/-- The deadline of one of the two requests has passed at a check, that of the other
has not. -/
def Parted (w : Worker) (req' : ExecuteRequest) (r : Reading) : Prop :=
  (∃ point, w.pc = .checking point) ∧
    ¬ (timeout_ms w.req w.plan ≤ r.now - w.start ↔ timeout_ms req' w.plan ≤ r.now - w.start)

variable {req' : ExecuteRequest}

theorem emit_rename (w : Worker) (state : String) (r : Reading) :
    (w.rename req').emit state r = (w.emit state r).rename req' := by
  simp only [Worker.emit, Worker.rename, List.map_append, List.map_cons, List.map_nil]
  rfl

theorem passed_rename (w : Worker) (point : CheckPoint) :
    (w.rename req').passed point = (w.passed point).rename req' := by
  cases point with
  | entry =>
    unfold Worker.passed
    dsimp only [Worker.rename]
    split <;> rfl
  | dwell_end d => cases d <;> rfl
  | _ => rfl

theorem stopped_rename (w : Worker) (e : InjectError) (point : CheckPoint) :
    (w.rename req').stopped e point = (w.stopped e point).rename req' := by
  cases point with
  | dwell d stop => cases d <;> rfl
  | dwell_end d => cases d <;> rfl
  | _ => rfl

theorem next_file_rename (w : Worker) (i bytes : Nat) (r : Reading) :
    (w.rename req').next_file i bytes r = (w.next_file i bytes r).rename req' := by
  have hplan : (w.rename req').plan = w.plan := rfl
  rw [Worker.next_file, Worker.next_file, hplan]
  by_cases hmore : i < w.plan.file_count.toNat
  · rw [if_pos hmore, if_pos hmore]
    rfl
  · rw [if_neg hmore, if_neg hmore]
    rfl

theorem revert_rename (w : Worker) (o : Outcome) : (w.rename req').revert o = (w.revert o).rename req' := by
  unfold Worker.revert
  dsimp only [Worker.rename]
  split
  · rfl
  · split <;> rfl

theorem clean_injector_rename (w : Worker) (o : Outcome) :
    (w.rename req').clean_injector o = (w.clean_injector o).rename req' := by
  unfold Worker.clean_injector
  split <;> rfl

/-- Two requests of one plan go the same way at a check their deadlines agree on. -/
theorem check_rename (hparted : ¬ Parted w req' r) {point : CheckPoint} (hpc : w.pc = .checking point) :
    check (timeout_ms req' w.plan) w.start r = check (timeout_ms w.req w.plan) w.start r := by
  have hsame := not_not.mp fun hne => hparted ⟨⟨point, hpc⟩, hne⟩
  simp only [check, hsame]

theorem step_rename (hw : Placed w) (hplace : Placeable w.plan w.req) (hplace' : Placeable w.plan req')
    (hparted : ¬ Parted w req' r) : (w.rename req').step r o = (w.step r o).rename req' := by
  have hat : (w.rename req').pc = w.pc := rfl
  unfold Worker.step
  rw [hat]
  cases hpc : w.pc with
  | starting =>
    dsimp only
    exact congrArg (fun next : Worker => { next with pc := .creating }) (emit_rename { w with start := r.now } _ r)
  | creating =>
    dsimp only
    rw [show (w.rename req').plan = w.plan from rfl, show (w.rename req').req = req' from rfl, hplace.create,
      hplace'.create]
    cases o.sandbox with
    | error e => rfl
    | ok _ =>
      dsimp only [Except.map, Worker.rename]
      rw [if_neg hplace.ne_nil]
  | rejecting e =>
    simp only [Worker.rename, List.map_append, List.map_cons, List.map_nil]
    rfl
  | arming => exact congrArg (fun next : Worker => { next with pc := .injecting }) (emit_rename w _ r)
  | injecting => exact congrArg (fun next : Worker => { next with pc := .checking .entry }) (emit_rename w _ r)
  | checking point =>
    dsimp only
    rw [show check (timeout_ms (w.rename req').req (w.rename req').plan) (w.rename req').start r =
      check (timeout_ms w.req w.plan) w.start r from check_rename hparted hpc]
    split
    · rfl
    · exact passed_rename w point
    · exact stopped_rename w _ point
  | session =>
    dsimp only
    rw [show (w.rename req').plan = w.plan from rfl]
    split <;> rfl
  | reverting waited =>
    cases waited with
    | error e => exact congrArg (fun next : Worker => { next with pc := .leaving (.error e) }) (revert_rename w o)
    | ok _ => exact congrArg (fun next : Worker => { next with pc := .leaving (.ok report0) }) (revert_rename w o)
  | making_canary =>
    have hpath := hw (by rw [hpc]; rfl)
    have hpath' : (w.rename req').sandbox.path = sandbox_dir w.plan req' := by
      rw [Worker.rename, if_neg (hpath ▸ hplace.ne_nil)]
    dsimp only
    rw [hpath, hpath', hplace.make_injector, hplace'.make_injector]
    rfl
  | making_dir =>
    dsimp only
    split
    · rfl
    · exact next_file_rename w ..
  | writing i bytes =>
    dsimp only
    split <;> rfl
  | pausing i bytes stop =>
    dsimp only
    split
    · rfl
    · exact next_file_rename w ..
  | making_injector =>
    have hpath := hw (by rw [hpc]; rfl)
    have hpath' : (w.rename req').sandbox.path = sandbox_dir w.plan req' := by
      rw [Worker.rename, if_neg (hpath ▸ hplace.ne_nil)]
    dsimp only
    rw [hpath, hpath', hplace.make_injector, hplace'.make_injector]
    rfl
  | injection =>
    dsimp only
    split <;> rfl
  | cleaning waited injected =>
    cases waited with
    | error e =>
      exact congrArg (fun next : Worker => { next with pc := .leaving (.error e) }) (clean_injector_rename w o)
    | ok _ => exact congrArg (fun next : Worker => { next with pc := .leaving injected }) (clean_injector_rename w o)
  | waiting d stop =>
    dsimp only
    split <;> rfl
  | leaving result => exact congrArg (fun next : Worker => { next with pc := .removing result }) (emit_rename w _ r)
  | removing result =>
    dsimp only
    rw [show (w.rename req').remove_dir_all o = w.remove_dir_all o from rfl]
    split <;> rfl
  | settling result => rfl
  | reporting result =>
    simp only [Worker.rename, List.map_append, List.map_cons, List.map_nil]
    rfl
  | dropping cleaned => rfl
  | returned cleaned => rfl

theorem rename_placed (hw : Placed w) (hplace : Placeable w.plan w.req) : Placed (w.rename req') := by
  intro hplaced
  rw [Worker.rename, if_neg (hw hplaced ▸ hplace.ne_nil)]

theorem operation_placed (hw : Placed w) :
    w.operation = (w.pc.operation w.plan).map (.map fun _ => sandbox_dir w.plan w.req) := by
  unfold Worker.operation
  cases hpc : w.pc with
  | making_canary | making_dir | writing | making_injector | injection | cleaning | removing | dropping =>
    dsimp only
    rw [hw (by rw [hpc]; rfl)]
    rfl
  | _ => rfl

end

/-- The deadlines of two requests agree at every check of a call. -/
def Together (req' : ExecuteRequest) (w : Worker) : List (Reading × Outcome) → Prop
  | [] => True
  | (r, o) :: rest => ¬ Parted w req' r ∧ Together req' (w.step r o) rest

section

variable {plan : ExecutionPlan} {req req' : ExecuteRequest}

theorem step_request (w : Worker) (r : Reading) (o : Outcome) :
    (w.step r o).req = w.req ∧ (w.step r o).plan = w.plan := by
  by_cases hpc : w.pc = .starting
  · rw [Worker.step, hpc]
    exact ⟨rfl, rfl⟩
  · have hfixed := fixed_step (r := r) (o := o) hpc
    exact ⟨hfixed.req, hfixed.plan⟩

/-- What a call asks of the host is what the plan says, in the directory of its run. -/
theorem operations_planned (hplace : Placeable plan req) {w : Worker} (hw : Placed w) (hreq : w.req = req)
    (hplan : w.plan = plan) (steps : List (Reading × Outcome)) :
    ∃ ops : List (Operation Unit), (∀ op ∈ ops, ∃ pc, Pc.operation plan pc = some op) ∧
      w.operations steps = ops.map (.map fun _ => sandbox_dir plan req) := by
  induction steps generalizing w with
  | nil => exact ⟨[], fun op hop => absurd hop List.not_mem_nil, rfl⟩
  | cons pair rest ih =>
    obtain ⟨r, o⟩ := pair
    subst hreq hplan
    obtain ⟨hreq', hplan'⟩ := step_request w r o
    obtain ⟨ops, hops, heq⟩ := ih (hw.step hplace) hreq' hplan'
    refine ⟨(w.pc.operation w.plan).toList ++ ops, fun op hop => ?_, ?_⟩
    · rcases List.mem_append.mp hop with hhead | hrest
      · exact ⟨w.pc, Option.mem_toList.mp hhead⟩
      · exact hops op hrest
    · rw [Worker.operations, heq, operation_placed hw, List.map_append, Option.toList_map]

/-- Requests that ask for the same deadline are never told apart. -/
theorem together_of_timeout (htimeout : timeout_ms req' plan = timeout_ms req plan) {w : Worker} (hreq : w.req = req)
    (hplan : w.plan = plan) (steps : List (Reading × Outcome)) : Together req' w steps := by
  induction steps generalizing w with
  | nil => trivial
  | cons pair rest ih =>
    obtain ⟨hreq', hplan'⟩ := step_request w pair.1 pair.2
    refine ⟨fun hparted => hparted.2 ?_, ih (hreq'.trans hreq) (hplan'.trans hplan)⟩
    rw [hreq, hplan, htimeout]

/-- Two calls under one plan go the same way while their deadlines agree. -/
theorem run_rename (hplace : Placeable plan req) (hplace' : Placeable plan req') {w : Worker} (hw : Placed w)
    (hreq : w.req = req) (hplan : w.plan = plan) {steps : List (Reading × Outcome)}
    (htogether : Together req' w steps) :
    (w.rename req').run steps = (w.run steps).rename req' ∧
      ∃ ops : List (Operation Unit), w.operations steps = ops.map (.map fun _ => sandbox_dir plan req) ∧
        (w.rename req').operations steps = ops.map (.map fun _ => sandbox_dir plan req') := by
  induction steps generalizing w with
  | nil => exact ⟨rfl, [], rfl, rfl⟩
  | cons pair rest ih =>
    obtain ⟨r, o⟩ := pair
    subst hreq hplan
    obtain ⟨hparted, htogether⟩ := htogether
    obtain ⟨hreq', hplan'⟩ := step_request w r o
    obtain ⟨hrun, ops, hops, hops'⟩ := ih (hw.step hplace) hreq' hplan' htogether
    have hstep := step_rename (o := o) hw hplace hplace' hparted
    refine ⟨?_, (w.pc.operation w.plan).toList ++ ops, ?_, ?_⟩
    · rw [Worker.run, Worker.run, hstep]
      exact hrun
    · rw [Worker.operations, hops, operation_placed hw, List.map_append, Option.toList_map]
    · rw [Worker.operations, hstep, hops', operation_placed (rename_placed hw hplace), List.map_append,
        Option.toList_map]
      rfl

end

section

variable {is_valid : List UInt8 → List UInt8 → List UInt8 → Bool} {serde : Serde} {trusted_key : Option (List UInt8)}
  {req : ExecuteRequest} {plan : ExecutionPlan}

theorem Validated.placeable (h : Validated is_valid serde trusted_key req plan) : Placeable plan req := by
  obtain ⟨text, manifest, -, hmanifest, hplan, -⟩ := h.signed
  obtain ⟨-, haccepted⟩ := parse_and_validate_manifest_ok hmanifest
  exact ⟨accepted_target_in_scope haccepted (ExecutionPlan.from_manifest_spec hplan), h.run_id⟩

/-- A request shortens the signed deadline or leaves it. -/
theorem Validated.timeout_le (h : Validated is_valid serde trusted_key req plan) :
    (timeout req plan).toNat ≤ plan.max_duration_sec.toNat := by
  unfold timeout
  split
  · exact Nat.le_refl _
  · exact UInt32.le_iff_toNat_le.mp h.timeout_sec

/-- No check passes after a deadline. -/
theorem check_deadline {deadline start : Nat} {r : Reading} (hlate : deadline ≤ r.now - start) :
    ∃ e, check deadline start r = .stopped e := by
  by_cases hflag : (r.cancelled || r.closed) = true
  · exact ⟨_, by rw [check, if_pos hflag]⟩
  · exact ⟨_, by rw [check, if_neg hflag, if_pos hlate]⟩

end

/-- Only signed content steers the runner. Two accepted requests with the same manifest
bytes run the same plan: while no check tells their deadlines apart, the calls differ in
the name of the sandbox and of the run alone, and the deadline is at most the signed one. -/
theorem signed_content_steers (is_valid : List UInt8 → List UInt8 → List UInt8 → Bool) (serde : Serde)
    {trusted_key trusted_key' : Option (List UInt8)} {req req' : ExecuteRequest} {plan plan' : ExecutionPlan}
    (haccept : validate is_valid serde trusted_key req = .ok plan)
    (haccept' : validate is_valid serde trusted_key' req' = .ok plan') (hbytes : req.manifest = req'.manifest) :
    plan' = plan ∧
    ((timeout req plan).toNat ≤ plan.max_duration_sec.toNat ∧ plan.max_duration_sec.toNat ≤ 300 ∧
      ∀ start r, 1000 * plan.max_duration_sec.toNat ≤ r.now - start →
        ∃ e, check (timeout_ms req plan) start r = .stopped e) ∧
    (∀ backend steps, ∃ ops : List (Operation Unit), (∀ op ∈ ops, ∃ pc, Pc.operation plan pc = some op) ∧
      (Worker.spawn backend req plan).operations steps = ops.map (.map fun _ => sandbox_dir plan req)) ∧
    ∀ backend steps, Together req' (.spawn backend req plan) steps →
      (Worker.spawn backend req' plan').run steps = ((Worker.spawn backend req plan).run steps).rename req' ∧
      ∃ ops : List (Operation Unit),
        (Worker.spawn backend req plan).operations steps = ops.map (.map fun _ => sandbox_dir plan req) ∧
        (Worker.spawn backend req' plan').operations steps = ops.map (.map fun _ => sandbox_dir plan' req') := by
  have hvalid := validate_ok haccept
  have hvalid' := validate_ok haccept'
  obtain rfl : plan' = plan := (hvalid.plan_unique hvalid' hbytes).symm
  have hplaced (backend : String) : Placed (.spawn backend req plan') := fun h => by cases h
  refine ⟨rfl, ⟨hvalid.timeout_le, hvalid.deadline, fun start r hlate => check_deadline ?_⟩, fun backend steps =>
    operations_planned hvalid.placeable (hplaced backend) rfl rfl steps, fun backend steps htogether =>
    run_rename hvalid.placeable hvalid'.placeable (hplaced backend) rfl rfl htogether⟩
  have htimeout := hvalid.timeout_le
  rw [timeout_ms]
  omega

theorem default_requests_steered : (Worker.spawn "sim" (default_request "run_2") default_plan).run
      (List.replicate 20 (calm_reading 0, calm_outcome (.ok ()))) =
    ((Worker.spawn "sim" (default_request "run_1") default_plan).run
      (List.replicate 20 (calm_reading 0, calm_outcome (.ok ())))).rename (default_request "run_2") := by
  have hvalid : validate default_is_valid default_manifest_serde (some default_key) (default_request "run_1") =
      .ok default_plan := default_request_validated (by decide) (by decide) (by decide)
  have hvalid' : validate default_is_valid default_manifest_serde (some default_key) (default_request "run_2") =
      .ok default_plan := default_request_validated (by decide) (by decide) (by decide)
  have hbytes : (default_request "run_1").manifest = (default_request "run_2").manifest := by
    simp only [default_request]
  obtain ⟨-, -, -, hsame⟩ := signed_content_steers default_is_valid default_manifest_serde hvalid hvalid' hbytes
  have htimeout : timeout_ms (default_request "run_2") default_plan =
      timeout_ms (default_request "run_1") default_plan := rfl
  exact (hsame "sim" _ (together_of_timeout htimeout rfl rfl _)).1

end asmodeus.runner
