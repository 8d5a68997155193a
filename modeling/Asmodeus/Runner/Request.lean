import Asmodeus.Lib.Utf8
import Asmodeus.Runner.Sandbox

open asmodeus.dsl Fallible

namespace asmodeus.runner

structure ExecuteRequest where
  scenario_id : String
  manifest : List UInt8
  signature : List UInt8
  public_key : List UInt8
  target_dir : String
  file_count : UInt32
  chunk_size_kb : UInt32
  run_id : String
  timeout_sec : UInt32
  deriving DecidableEq

/-- The gRPC statuses of the runner. -/
inductive Status
  | failed_precondition (message : String)
  | permission_denied (message : String)
  | invalid_argument (message : String)
  | resource_exhausted (message : String)
  | not_found (message : String)
  deriving DecidableEq

/-- The early return of a failed check. -/
def refuse_if (bad : Bool) (status : Status) : Except Status Unit := if bad then .error status else .ok ()

theorem refuse_if_ok {bad : Bool} {status : Status} (h : refuse_if bad status = .ok ()) : bad = false := by
  unfold refuse_if at h
  split at h
  · cases h
  · rename_i hbad
    exact Bool.eq_false_iff.mpr hbad

section

-- The verification of a signature over a message under a key.
variable (is_valid : List UInt8 → List UInt8 → List UInt8 → Bool) (serde : Serde)

def trusted (trusted_key : Option (List UInt8)) : Except Status (List UInt8) :=
  match trusted_key with
  | some key => .ok key
  | none => .error (.failed_precondition "runner trusted key is not configured")

def manifest_text (manifest : List UInt8) : Except Status String :=
  match Utf8.decode manifest with
  | some text => .ok (String.ofList text)
  | none => .error (.invalid_argument "manifest must be UTF-8")

/-- A manifest error on the wire. -/
def invalid_argument {α : Type} (result : Except ManifestValidationError α) : Except Status α :=
  match result with
  | .ok a => .ok a
  | .error e => .error (.invalid_argument e.display)

/-- `RunnerService::validate` of a service with a trusted key. -/
def validate (trusted_key : Option (List UInt8)) (req : ExecuteRequest) : Except Status ExecutionPlan := do
  let key ← trusted trusted_key
  refuse_if (decide (key ≠ req.public_key) || !is_valid req.manifest req.signature key)
    (.permission_denied "signature invalid or signing key untrusted")
  let text ← manifest_text req.manifest
  let manifest ← invalid_argument (parse_and_validate_manifest serde text)
  let plan ← invalid_argument (ExecutionPlan.from_manifest manifest)
  refuse_if (decide (manifest.metadata.id ≠ req.scenario_id) || decide (plan.target_dir ≠ req.target_dir) ||
      decide (plan.file_count ≠ req.file_count) || decide (plan.chunk_size_kb ≠ req.chunk_size_kb))
    (.invalid_argument "request parameters differ from signed manifest")
  refuse_if (decide (req.run_id = "") || decide (96 < req.run_id.utf8ByteSize) ||
      !req.run_id.toList.all run_id_char)
    (.invalid_argument "run_id must be 1..96 ASCII identifier characters")
  refuse_if (decide (plan.max_duration_sec < req.timeout_sec))
    (.invalid_argument "timeout may not extend signed safety deadline")
  return plan

/-- What an accepted request says about its plan. -/
structure Validated (trusted_key : Option (List UInt8)) (req : ExecuteRequest) (plan : ExecutionPlan) : Prop where
  key : trusted_key = some req.public_key
  signature : is_valid req.manifest req.signature req.public_key = true
  signed : ∃ text manifest, Utf8.decode req.manifest = some text ∧
    parse_and_validate_manifest serde (String.ofList text) = .ok manifest ∧
    ExecutionPlan.from_manifest manifest = .ok plan ∧ manifest.metadata.id = req.scenario_id
  target_dir : plan.target_dir = req.target_dir
  file_count : plan.file_count = req.file_count
  chunk_size_kb : plan.chunk_size_kb = req.chunk_size_kb
  run_id : req.run_id ≠ "" ∧ req.run_id.utf8ByteSize ≤ 96 ∧ req.run_id.toList.all run_id_char = true
  timeout_sec : req.timeout_sec ≤ plan.max_duration_sec

variable {is_valid serde} {trusted_key : Option (List UInt8)} {req : ExecuteRequest} {plan : ExecutionPlan}

theorem invalid_argument_ok {α : Type} {result : Except ManifestValidationError α} {a : α}
    (h : invalid_argument result = .ok a) : result = .ok a := by
  unfold invalid_argument at h
  split at h
  · rw [Except.ok.inj h]
  · cases h

theorem manifest_text_ok {manifest : List UInt8} {text : String} (h : manifest_text manifest = .ok text) :
    ∃ chars, Utf8.decode manifest = some chars ∧ text = String.ofList chars := by
  unfold manifest_text at h
  split at h
  · rename_i chars hchars
    exact ⟨chars, hchars, (Except.ok.inj h).symm⟩
  · cases h

theorem validate_ok (h : validate is_valid serde trusted_key req = .ok plan) :
    Validated is_valid serde trusted_key req plan := by
  unfold validate at h
  obtain ⟨key, hkey, h⟩ := bind_ok h
  obtain ⟨_, hsignature, h⟩ := bind_ok h
  obtain ⟨text, htext, h⟩ := bind_ok h
  obtain ⟨manifest, hmanifest, h⟩ := bind_ok h
  obtain ⟨plan', hplan, h⟩ := bind_ok h
  obtain ⟨_, hsame, h⟩ := bind_ok h
  obtain ⟨_, hrun_id, h⟩ := bind_ok h
  obtain ⟨_, htimeout, h⟩ := bind_ok h
  obtain rfl := Except.ok.inj h
  have hsignature := refuse_if_ok hsignature
  have hsame := refuse_if_ok hsame
  have hrun_id := refuse_if_ok hrun_id
  simp only [Bool.or_eq_false_iff, decide_eq_false_iff_not, not_not, Bool.not_eq_false'] at hsignature hsame hrun_id
  obtain ⟨rfl, hvalid⟩ := hsignature
  obtain ⟨⟨⟨hid, hdir⟩, hfiles⟩, hchunk⟩ := hsame
  obtain ⟨chars, hchars, rfl⟩ := manifest_text_ok htext
  refine ⟨?_, hvalid, ⟨chars, manifest, hchars, invalid_argument_ok hmanifest, invalid_argument_ok hplan, hid⟩,
    hdir, hfiles, hchunk, ⟨hrun_id.1.1, Nat.not_lt.mp hrun_id.1.2, hrun_id.2⟩,
    UInt32.not_lt.mp (of_decide_eq_false (refuse_if_ok htimeout))⟩
  unfold trusted at hkey
  split at hkey
  · rw [Except.ok.inj hkey]
  · cases hkey

/-- Nothing else is asked of a request. -/
theorem Validated.accepted (h : Validated is_valid serde trusted_key req plan) :
    validate is_valid serde trusted_key req = .ok plan := by
  obtain ⟨text, manifest, htext, hmanifest, hplan, hid⟩ := h.signed
  have hsignature : (decide (req.public_key ≠ req.public_key) ||
      !is_valid req.manifest req.signature req.public_key) = false := by
    simp [h.signature]
  have hsame : (decide (manifest.metadata.id ≠ req.scenario_id) || decide (plan.target_dir ≠ req.target_dir) ||
      decide (plan.file_count ≠ req.file_count) || decide (plan.chunk_size_kb ≠ req.chunk_size_kb)) = false := by
    simp [hid, h.target_dir, h.file_count, h.chunk_size_kb]
  have hrun_id : (decide (req.run_id = "") || decide (96 < req.run_id.utf8ByteSize) ||
      !req.run_id.toList.all run_id_char) = false := by
    rw [decide_eq_false h.run_id.1, decide_eq_false (Nat.not_lt.mpr h.run_id.2.1), h.run_id.2.2]
    rfl
  have htimeout : decide (plan.max_duration_sec < req.timeout_sec) = false :=
    decide_eq_false (UInt32.not_lt.mpr h.timeout_sec)
  have htrusted : trusted trusted_key = .ok req.public_key := by
    simp only [trusted, h.key]
  have hread : manifest_text req.manifest = .ok (String.ofList text) := by
    rw [manifest_text, htext]
  simp only [validate, htrusted, hsignature, hread, hmanifest, hplan, hsame, hrun_id, htimeout, invalid_argument,
    refuse_if, bind, Except.bind, Bool.false_eq_true, if_false]
  rfl

/-- The plan of an accepted request is decided by the signed bytes alone. -/
theorem Validated.plan_unique {req' : ExecuteRequest} {plan' : ExecutionPlan} {trusted_key' : Option (List UInt8)}
    (h : Validated is_valid serde trusted_key req plan) (h' : Validated is_valid serde trusted_key' req' plan')
    (hbytes : req.manifest = req'.manifest) : plan = plan' := by
  obtain ⟨text, manifest, htext, hmanifest, hplan, -⟩ := h.signed
  obtain ⟨text', manifest', htext', hmanifest', hplan', -⟩ := h'.signed
  rw [hbytes, htext', Option.some.injEq] at htext
  subst htext
  obtain rfl := Except.ok.inj (hmanifest.symm.trans hmanifest')
  exact Except.ok.inj (hplan.symm.trans hplan')

/-- The signed deadline of an accepted request. -/
theorem Validated.deadline (h : Validated is_valid serde trusted_key req plan) : plan.max_duration_sec.toNat ≤ 300 := by
  obtain ⟨text, manifest, -, hmanifest, hplan, -⟩ := h.signed
  rw [(ExecutionPlan.from_manifest_spec hplan).max_duration_sec.1]
  exact (parse_and_validate_manifest_ok hmanifest).2.max_duration_sec

end

def default_plan : ExecutionPlan where
  action := .SyntheticCanaryEncrypt
  target_dir := "/tmp/asmodeus-canary"
  file_count := 20
  chunk_size_kb := 64
  io_rate_per_sec := 0
  duration_ms := 0
  max_duration_sec := 60
  cpu_limit_percent := 25
  target_cidr := "127.0.0.1/32"
  iface := "lo"
  latency_ms := 100
  jitter_ms := 0
  loss_percent := 0

def default_key : List UInt8 := List.replicate 32 7
def default_signature : List UInt8 := List.replicate 64 1

def default_manifest_bytes : List UInt8 := Utf8.encode default_manifest_text.toList

theorem default_manifest_bytes_decode : Utf8.decode default_manifest_bytes = some default_manifest_text.toList :=
  Utf8.decode_encode default_manifest_text.toList

/-- A verification that knows one signature. -/
def default_is_valid (_ signature key : List UInt8) : Bool :=
  decide (signature = default_signature ∧ key = default_key)

def default_request (run_id : String) : ExecuteRequest where
  scenario_id := "SCN-RT-001"
  manifest := default_manifest_bytes
  signature := default_signature
  public_key := default_key
  target_dir := "/tmp/asmodeus-canary"
  file_count := 20
  chunk_size_kb := 64
  run_id := run_id
  timeout_sec := 0

theorem default_plan_compiled : ExecutionPlan.from_manifest default_manifest = .ok default_plan := by
  decide +kernel

theorem default_request_validated {run_id : String} (hne : run_id ≠ "") (hsize : run_id.utf8ByteSize ≤ 96)
    (hchars : run_id.toList.all run_id_char = true) :
    validate default_is_valid default_manifest_serde (some default_key) (default_request run_id) =
      .ok default_plan := by
  have hmanifest : (default_request run_id).manifest = default_manifest_bytes := by
    simp only [default_request]
  have htext := (congrArg Utf8.decode hmanifest).trans default_manifest_bytes_decode
  refine (Validated.accepted ⟨rfl, decide_eq_true ⟨rfl, rfl⟩,
    ⟨default_manifest_text.toList, default_manifest, htext, ?_, default_plan_compiled, rfl⟩, rfl, rfl, rfl,
      ⟨hne, hsize, hchars⟩, UInt32.zero_le⟩)
  rw [String.ofList_toList]
  exact default_manifest_accepted

end asmodeus.runner
