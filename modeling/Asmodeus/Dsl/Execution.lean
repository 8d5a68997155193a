import Asmodeus.Dsl.Manifest
import Asmodeus.Dsl.Net
import Asmodeus.Dsl.Path
import Asmodeus.Lib.Fallible

open UnixPath Fallible

namespace asmodeus.dsl

inductive Action
  | SyntheticCanaryEncrypt
  | K8sEscapeProbe
  | C2Beacon
  | CredentialCanary
  | LogTamperCanary
  | PersistenceCanary
  | ExfiltrationCanary
  | WatchdogProbe
  | LatencySpike
  deriving DecidableEq

def Action.all : List Action :=
  [.SyntheticCanaryEncrypt, .K8sEscapeProbe, .C2Beacon, .CredentialCanary, .LogTamperCanary, .PersistenceCanary,
    .ExfiltrationCanary, .WatchdogProbe, .LatencySpike]

/-- The serialized name of an action. -/
def Action.as_str : Action → String
  | .SyntheticCanaryEncrypt => "synthetic_canary_encrypt"
  | .K8sEscapeProbe => "k8s_escape_probe"
  | .C2Beacon => "c2_beacon"
  | .CredentialCanary => "credential_canary"
  | .LogTamperCanary => "log_tamper_canary"
  | .PersistenceCanary => "persistence_canary"
  | .ExfiltrationCanary => "exfiltration_canary"
  | .WatchdogProbe => "watchdog_probe"
  | .LatencySpike => "latency_spike"

/-- The action of a serialized name. -/
def Action.from_str (name : String) : Option Action := Action.all.find? fun action => decide (action.as_str = name)

/-- Compiled, bounded execution parameters shared by control plane and runner. -/
structure ExecutionPlan where
  action : Action
  target_dir : String
  file_count : UInt32
  chunk_size_kb : UInt32
  io_rate_per_sec : UInt32
  duration_ms : UInt32
  max_duration_sec : UInt32
  cpu_limit_percent : UInt32
  target_cidr : String
  iface : String
  latency_ms : UInt32
  jitter_ms : UInt32
  loss_percent : UInt8
  deriving DecidableEq

namespace ExecutionPlan

def invalid (message : String) : ManifestValidationError := .BudgetLimitExceeded message

/-- The early return of a failed check. -/
def reject_if (bad : Bool) (message : String) : Except ManifestValidationError Unit :=
  if bad then .error (invalid message) else .ok ()

def read_action (action_type : String) : Except ManifestValidationError Action :=
  match Action.from_str action_type with
  | some action => .ok action
  | none => .error (invalid ("unsupported action type: " ++ action_type))

/-- The parameters an action reads. -/
def allowed (action : Action) (name : String) : Bool :=
  decide (name = "duration_ms") || match action with
    | .SyntheticCanaryEncrypt => ["file_count", "chunk_size_kb", "io_rate_per_sec"].contains name
    | .C2Beacon => decide (name = "file_count")
    | .ExfiltrationCanary => decide (name = "chunk_size_kb")
    | .LatencySpike => ["latency_ms", "jitter_ms", "loss_percent", "iface"].contains name
    | _ => false

/-- The loop over the parameter names. -/
def check_parameters (action : Action) : List (String × Value) → Except ManifestValidationError Unit
  | [] => .ok ()
  | (name, _) :: rest =>
    if allowed action name then check_parameters action rest
    else .error (invalid ("unsupported parameter for this action: " ++ name))

def get (parameters : List (String × Value)) (name : String) : Option Value :=
  (parameters.find? fun p => decide (p.1 = name)).map Prod.snd

/-- An optional integer parameter with its bounds. -/
def number (parameters : List (String × Value)) (name : String) (default min max : UInt32) :
    Except ManifestValidationError UInt32 :=
  match get parameters name with
  | none => .ok default
  | some value => match value.as_u64 with
    | some n =>
      if min.toNat ≤ n ∧ n ≤ max.toNat then .ok (UInt32.ofNat n)
      else .error (invalid (name ++ " must be an integer in " ++ toString min ++ "..=" ++ toString max))
    | none => .error (invalid (name ++ " must be an integer in " ++ toString min ++ "..=" ++ toString max))

/-- The interface parameter. -/
def interface (parameters : List (String × Value)) : Except ManifestValidationError String :=
  match get parameters "iface" with
  | some (.String s) =>
    if s.utf8ByteSize ≠ 0 ∧ s.utf8ByteSize ≤ 15 then .ok s
    else .error (invalid "iface must be a nonempty string of at most 15 bytes")
  | some _ => .error (invalid "iface must be a nonempty string of at most 15 bytes")
  | none => .ok "lo"

/-- Milliseconds of a number of seconds, saturating. -/
def saturating_millis (seconds : UInt32) : UInt32 := UInt32.ofNat (min (seconds.toNat * 1000) (2 ^ 32 - 1))

/-- The directory an action works below. -/
def target_dir_of (m : ScenarioManifest) : String :=
  ((m.spec.target_scope.bind TargetScope.target_path).or m.spec.safety.canary_directory_only).getD
    "/tmp/asmodeus-canary"

/-- The narrower scope a manifest may ask for. -/
def check_scope (m : ScenarioManifest) (target_dir : String) : Except ManifestValidationError Unit :=
  match m.spec.safety.canary_directory_only with
  | some scope =>
    reject_if (!decide (startsWith target_dir.toList scope.toList)) "target_path must be inside canary_directory_only"
  | none => .ok ()

def from_manifest (m : ScenarioManifest) : Except ManifestValidationError ExecutionPlan := do
  let action ← read_action m.spec.action.action_type
  let parameters := m.spec.action.parameters
  check_parameters action parameters
  reject_if (decide (m.spec.safety.max_duration_sec = 0)) "max_duration_sec must be positive"
  reject_if (decide (m.spec.safety.cpu_limit_percent = 0)) "cpu_limit_percent must be positive"
  reject_if ((m.spec.target_scope.bind TargetScope.selector).any fun s => !s.isEmpty)
    "target_scope.selector is unsupported; select a registered runner by ID/tag"
  reject_if (!m.spec.safety.circuit_breaker_on_host_unresponsive)
    "disabling the control-channel lease is unsupported"
  let target_dir := target_dir_of m
  check_scope m target_dir
  let file_count ← number parameters "file_count" 20 1 (if action = .C2Beacon then 100 else 200)
  let chunk_size_kb ← number parameters "chunk_size_kb" 64 1 256
  reject_if (decide (20 * 1024 < file_count.toNat * chunk_size_kb.toNat)) "total canary data exceeds 20 MiB"
  let iface ← interface parameters
  let duration_ms ← number parameters "duration_ms" 0 0 120000
  reject_if (decide (saturating_millis m.spec.safety.max_duration_sec < duration_ms))
    "duration_ms exceeds max_duration_sec"
  let target_cidr := (m.spec.target_scope.bind TargetScope.target_cidr).getD "127.0.0.1/32"
  reject_if (decide (action ≠ .LatencySpike) && (m.spec.target_scope.bind TargetScope.target_cidr).isSome)
    "target_cidr is supported only by latency_spike"
  let io_rate_per_sec ← number parameters "io_rate_per_sec" 0 1 1000
  let latency_ms ← number parameters "latency_ms" 100 0 5000
  let jitter_ms ← number parameters "jitter_ms" 0 0 1000
  let loss_percent ← number parameters "loss_percent" 0 0 50
  return {
    action := action
    target_dir := target_dir
    file_count := file_count
    chunk_size_kb := chunk_size_kb
    io_rate_per_sec := io_rate_per_sec
    duration_ms := duration_ms
    max_duration_sec := m.spec.safety.max_duration_sec
    cpu_limit_percent := m.spec.safety.cpu_limit_percent
    target_cidr := target_cidr
    iface := iface
    latency_ms := latency_ms
    jitter_ms := jitter_ms
    loss_percent := UInt8.ofNat loss_percent.toNat }

theorem reject_if_ok {bad : Bool} {message : String} (h : reject_if bad message = .ok ()) : bad = false := by
  unfold reject_if at h
  split at h
  · cases h
  · rename_i hbad
    exact Bool.eq_false_iff.mpr hbad

/-- A number is its default or within its bounds. -/
theorem number_cases {parameters : List (String × Value)} {name : String} {default min max n : UInt32}
    (h : number parameters name default min max = .ok n) :
    n = default ∨ (min.toNat ≤ n.toNat ∧ n.toNat ≤ max.toNat) := by
  unfold number at h
  split at h
  · exact Or.inl (Except.ok.inj h).symm
  · split at h
    · split at h
      · rename_i k _ hbounds
        obtain rfl := Except.ok.inj h
        have hsmall : k < 2 ^ 32 := lt_of_le_of_lt hbounds.2 max.toNat_lt
        rw [UInt32.toNat_ofNat_of_lt' hsmall]
        exact Or.inr hbounds
      · cases h
    · cases h

theorem number_le {parameters : List (String × Value)} {name : String} {default min max n : UInt32}
    (h : number parameters name default min max = .ok n) (hdefault : default.toNat ≤ max.toNat) :
    n.toNat ≤ max.toNat := by
  obtain rfl | ⟨-, hle⟩ := number_cases h
  · exact hdefault
  · exact hle

theorem number_ge {parameters : List (String × Value)} {name : String} {default min max n : UInt32}
    (h : number parameters name default min max = .ok n) (hdefault : min.toNat ≤ default.toNat) :
    min.toNat ≤ n.toNat := by
  obtain rfl | ⟨hge, -⟩ := number_cases h
  · exact hdefault
  · exact hge

theorem saturating_millis_le (seconds : UInt32) : (saturating_millis seconds).toNat ≤ 1000 * seconds.toNat := by
  have hfits : min (seconds.toNat * 1000) (2 ^ 32 - 1) < UInt32.size := by
    rw [show UInt32.size = 2 ^ 32 from rfl]
    omega
  rw [saturating_millis, UInt32.toNat_ofNat_of_lt' hfits]
  omega

theorem interface_spec {parameters : List (String × Value)} {iface : String} (h : interface parameters = .ok iface) :
    (get parameters "iface" = none ∧ iface = "lo") ∨
      (get parameters "iface" = some (.String iface) ∧ iface.utf8ByteSize ≠ 0 ∧ iface.utf8ByteSize ≤ 15) := by
  unfold interface at h
  split at h
  · rename_i s hget
    split at h
    · rename_i hsize
      obtain rfl := Except.ok.inj h
      exact Or.inr ⟨hget, hsize⟩
    · cases h
  · cases h
  · rename_i hget
    exact Or.inl ⟨hget, (Except.ok.inj h).symm⟩

/-- What the compiler of a manifest promises about its plan. -/
structure Compiled (m : ScenarioManifest) (plan : ExecutionPlan) : Prop where
  action : Action.from_str m.spec.action.action_type = some plan.action
  target_dir : plan.target_dir = target_dir_of m
  scope : ∀ scope, m.spec.safety.canary_directory_only = some scope →
    startsWith plan.target_dir.toList scope.toList
  target_cidr : plan.target_cidr = (m.spec.target_scope.bind TargetScope.target_cidr).getD "127.0.0.1/32"
  data : plan.file_count.toNat * plan.chunk_size_kb.toNat ≤ 20480
  file_count : 1 ≤ plan.file_count.toNat ∧ plan.file_count.toNat ≤ 200
  chunk_size_kb : 1 ≤ plan.chunk_size_kb.toNat ∧ plan.chunk_size_kb.toNat ≤ 256
  io_rate_per_sec : plan.io_rate_per_sec.toNat ≤ 1000
  iface : interface m.spec.action.parameters = .ok plan.iface
  duration_ms : plan.duration_ms.toNat ≤ 120000 ∧ plan.duration_ms.toNat ≤ 1000 * plan.max_duration_sec.toNat
  max_duration_sec : plan.max_duration_sec = m.spec.safety.max_duration_sec ∧ 1 ≤ plan.max_duration_sec.toNat
  cpu_limit_percent : plan.cpu_limit_percent = m.spec.safety.cpu_limit_percent ∧ 1 ≤ plan.cpu_limit_percent.toNat
  latency_ms : plan.latency_ms.toNat ≤ 5000
  jitter_ms : plan.jitter_ms.toNat ≤ 1000
  loss_percent : plan.loss_percent.toNat ≤ 50

theorem check_scope_ok {m : ScenarioManifest} {target_dir : String} (h : check_scope m target_dir = .ok ()) :
    ∀ scope, m.spec.safety.canary_directory_only = some scope → startsWith target_dir.toList scope.toList := by
  intro scope hscope
  unfold check_scope at h
  rw [hscope] at h
  have hbad := reject_if_ok h
  rwa [Bool.not_eq_false', decide_eq_true_eq] at hbad

theorem one_le_of_ne_zero {n : UInt32} (h : decide (n = 0) = false) : 1 ≤ n.toNat := by
  have hne : n ≠ 0 := of_decide_eq_false h
  exact Nat.one_le_iff_ne_zero.mpr fun hzero => hne (UInt32.toNat_inj.mp hzero)

theorem from_manifest_spec {m : ScenarioManifest} {plan : ExecutionPlan} (h : from_manifest m = .ok plan) :
    Compiled m plan := by
  unfold from_manifest at h
  obtain ⟨action, haction, h⟩ := bind_ok h
  obtain ⟨_, -, h⟩ := bind_ok h
  obtain ⟨_, hduration, h⟩ := bind_ok h
  obtain ⟨_, hcpu, h⟩ := bind_ok h
  obtain ⟨_, -, h⟩ := bind_ok h
  obtain ⟨_, -, h⟩ := bind_ok h
  obtain ⟨_, hscope, h⟩ := bind_ok h
  obtain ⟨file_count, hfiles, h⟩ := bind_ok h
  obtain ⟨chunk_size_kb, hchunk, h⟩ := bind_ok h
  obtain ⟨_, hdata, h⟩ := bind_ok h
  obtain ⟨iface, hiface, h⟩ := bind_ok h
  obtain ⟨duration_ms, hdwell, h⟩ := bind_ok h
  obtain ⟨_, hdeadline, h⟩ := bind_ok h
  obtain ⟨_, -, h⟩ := bind_ok h
  obtain ⟨io_rate_per_sec, hrate, h⟩ := bind_ok h
  obtain ⟨latency_ms, hlatency, h⟩ := bind_ok h
  obtain ⟨jitter_ms, hjitter, h⟩ := bind_ok h
  obtain ⟨loss_percent, hloss, h⟩ := bind_ok h
  obtain rfl := Except.ok.inj h
  have hfiles_le : file_count.toNat ≤ 200 := by
    split at hfiles
    · exact (number_le hfiles (by decide)).trans (by decide)
    · exact number_le hfiles (by decide)
  have hloss_le : loss_percent.toNat ≤ 50 := number_le hloss (by decide)
  refine {
    action := ?_
    target_dir := rfl
    scope := check_scope_ok hscope
    target_cidr := rfl
    data := ?_
    file_count := ⟨number_ge hfiles (by decide), hfiles_le⟩
    chunk_size_kb := ⟨number_ge hchunk (by decide), number_le hchunk (by decide)⟩
    io_rate_per_sec := number_le hrate (by decide)
    iface := hiface
    duration_ms := ⟨number_le hdwell (by decide), ?_⟩
    max_duration_sec := ⟨rfl, one_le_of_ne_zero (reject_if_ok hduration)⟩
    cpu_limit_percent := ⟨rfl, one_le_of_ne_zero (reject_if_ok hcpu)⟩
    latency_ms := number_le hlatency (by decide)
    jitter_ms := number_le hjitter (by decide)
    loss_percent := ?_ }
  · unfold read_action at haction
    split at haction
    · rename_i found hfound
      rw [hfound, Except.ok.inj haction]
    · cases haction
  · exact Nat.not_lt.mp (of_decide_eq_false (reject_if_ok hdata))
  · have hle := UInt32.not_lt.mp (of_decide_eq_false (reject_if_ok hdeadline))
    exact (UInt32.le_iff_toNat_le.mp hle).trans (saturating_millis_le _)
  · change (UInt8.ofNat loss_percent.toNat).toNat ≤ 50
    rw [UInt8.toNat_ofNat_of_lt' (lt_of_le_of_lt hloss_le (by decide))]
    exact hloss_le

end ExecutionPlan

/-- The action type of a built-in scenario. -/
def action_for_scenario (id : String) : String :=
  if id = "RANSOMWARE_CANARY_SPIKE" then "synthetic_canary_encrypt"
  else if id = "K8S_ESCAPE_SIMULATION" then "k8s_escape_probe"
  else if id = "C2_BEACONING_SIMULATION" then "c2_beacon"
  else if id = "CREDENTIAL_ACCESS_CANARY" then "credential_canary"
  else if id = "LOG_TAMPER_CANARY" then "log_tamper_canary"
  else if id = "PERSISTENCE_CRON_CANARY" then "persistence_canary"
  else if id = "DATA_EXFILTRATION_CANARY" then "exfiltration_canary"
  else if id = "DEFENSE_IMPAIRMENT_CANARY" ∨ id = "AGENT_CRASH_ENDPOINT" then "watchdog_probe"
  else if id = "LATENCY_SPIKE_VM" ∨ id = "DNS_RPZ_SINKHOLE_DROP" then "latency_spike"
  else "unsupported"

/-- Complete typed fixture for built-in scenarios. -/
def synthetic_manifest (id target : String) (file_count chunk_size_kb : UInt32) : ScenarioManifest :=
  let action := action_for_scenario id
  let files : List (String × Value) :=
    if action = "synthetic_canary_encrypt" ∨ action = "c2_beacon" then
      [("file_count", .Number (.PosInt file_count.toNat))]
    else []
  let chunks : List (String × Value) :=
    if action = "synthetic_canary_encrypt" ∨ action = "exfiltration_canary" then
      [("chunk_size_kb", .Number (.PosInt chunk_size_kb.toNat))]
    else []
  { api_version := API_VERSION_V1ALPHA1
    metadata := ⟨id, id, .RedTeam, none, none, none, "medium", none⟩
    spec := ⟨some ⟨none, some target, none⟩, .default, ⟨.Synthetic, action, files ++ chunks⟩, ⟨"", none⟩⟩ }

end asmodeus.dsl
