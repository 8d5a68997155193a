import Asmodeus.Dsl.Execution
import Asmodeus.Dsl.Yaml

open Fallible

namespace asmodeus.dsl

/-- The early return of a failed check. -/
def require (holds : Bool) (error : ManifestValidationError) : Except ManifestValidationError Unit :=
  if holds then .ok () else .error error

/-- The first failing check of a list. -/
def for_each {α : Type} (check : α → Except ManifestValidationError Unit) :
    List α → Except ManifestValidationError Unit
  | [] => .ok ()
  | item :: rest => do
    check item
    for_each check rest

def check_technique (id : String) : Except ManifestValidationError Unit :=
  require (lookup_technique id).isSome (.UnknownMitreTechnique id)

/-- A single technique is the first of the list when both are given. -/
def check_mapping (metadata : ManifestMetadata) : Except ManifestValidationError Unit :=
  match metadata.mitre_technique, metadata.mitre_techniques with
  | some primary, some refs =>
    require (refs.head?.any fun r => Text.eqIgnoreAsciiCase r.technique_id primary) .InvalidMitreMapping
  | _, _ => .ok ()

/-- Validates a declarative manifest against INV-0 safety and budget limits. -/
def validate_manifest (manifest : ScenarioManifest) : Except ManifestValidationError Unit := do
  let spec := manifest.spec
  require (SUPPORTED_API_VERSIONS.contains manifest.api_version) (.InvalidApiVersion manifest.api_version)
  require spec.action.nature.is_permitted .NotSynthetic
  require (decide (spec.safety.max_duration_sec ≤ 300)) (.DurationLimitExceeded spec.safety.max_duration_sec)
  require (decide (spec.safety.cpu_limit_percent ≤ 85)) (.CpuLimitExceeded spec.safety.cpu_limit_percent)
  for_each (fun dir => require (path_in_scope dir) (.InvalidCanaryPath dir)) spec.safety.canary_directory_only.toList
  for_each (fun path => require (path_in_scope path) (.InvalidCanaryPath path))
    (spec.target_scope.bind TargetScope.target_path).toList
  for_each (fun cidr => require (net_target_in_scope cidr) (.InvalidNetworkTarget cidr))
    (spec.target_scope.bind TargetScope.target_cidr).toList
  for_each check_technique manifest.metadata.mitre_technique.toList
  for_each (fun r => check_technique r.technique_id) (manifest.metadata.mitre_techniques.getD [])
  check_mapping manifest.metadata
  for_each (fun f => require (Fidelity.parse f).isSome (.InvalidFidelity f)) manifest.metadata.fidelity.toList
  let _ ← ExecutionPlan.from_manifest manifest
  return ()

/-- The deserializers the manifest reader rests on: of JSON text, of an untyped
document, and of floats. -/
structure Serde where
  from_str : List Char → Except String ScenarioManifest
  from_value : Value → Except String ScenarioManifest
  parse_f64 : String → Option UInt64

/-- Parse a scenario manifest from JSON or YAML. -/
def parse_manifest (serde : Serde) (raw : String) : Except ManifestValidationError ScenarioManifest :=
  let trimmed := Lines.trim raw.toList
  if trimmed.head? = some '\x7b' then
    match serde.from_str trimmed with
    | .ok manifest => .ok manifest
    | .error e => .error (.ParseError e)
  else match parse_yaml_to_json_value serde.parse_f64 trimmed with
    | .error e => .error e
    | .ok value => match serde.from_value value with
      | .ok manifest => .ok manifest
      | .error e => .error (.ParseError e)

/-- Parse a scenario manifest from either JSON or YAML text and validate it. -/
def parse_and_validate_manifest (serde : Serde) (raw : String) :
    Except ManifestValidationError ScenarioManifest := do
  let manifest ← parse_manifest serde raw
  validate_manifest manifest
  return manifest

/-- A text with an opening brace goes to the JSON reader. -/
theorem parse_manifest_json {serde : Serde} {raw : String} {manifest : ScenarioManifest}
    (hbrace : raw.toList.head? = some '\x7b') (htrim : Lines.trim raw.toList = raw.toList)
    (hread : serde.from_str raw.toList = .ok manifest) : parse_manifest serde raw = .ok manifest := by
  rw [parse_manifest, htrim, if_pos hbrace, hread]

theorem require_ok {holds : Bool} {error : ManifestValidationError} (h : require holds error = .ok ()) :
    holds = true := by
  unfold require at h
  split at h
  · assumption
  · cases h

theorem for_each_ok {α : Type} {check : α → Except ManifestValidationError Unit} {items : List α}
    (h : for_each check items = .ok ()) : ∀ item ∈ items, check item = .ok () := by
  induction items with
  | nil => exact fun item hitem => absurd hitem List.not_mem_nil
  | cons head rest ih =>
    unfold for_each at h
    obtain ⟨_, hhead, h⟩ := bind_ok h
    intro item hitem
    rcases List.mem_cons.mp hitem with rfl | hitem
    · exact hhead
    · exact ih h item hitem

/-- What the gate promises about a manifest it accepts. -/
structure Accepted (manifest : ScenarioManifest) : Prop where
  api_version : SUPPORTED_API_VERSIONS.contains manifest.api_version = true
  nature : manifest.spec.action.nature = .Synthetic
  max_duration_sec : manifest.spec.safety.max_duration_sec.toNat ≤ 300
  cpu_limit_percent : manifest.spec.safety.cpu_limit_percent.toNat ≤ 85
  canary_directory_only : ∀ dir, manifest.spec.safety.canary_directory_only = some dir → path_in_scope dir = true
  target_path : ∀ path, manifest.spec.target_scope.bind TargetScope.target_path = some path →
    path_in_scope path = true
  target_cidr : ∀ cidr, manifest.spec.target_scope.bind TargetScope.target_cidr = some cidr →
    net_target_in_scope cidr = true
  techniques : ∀ r ∈ manifest.metadata.mitre_techniques.getD [], is_known_id r.technique_id = true
  technique : ∀ id, manifest.metadata.mitre_technique = some id → is_known_id id = true
  mapping : check_mapping manifest.metadata = .ok ()
  plan : ∃ plan, ExecutionPlan.from_manifest manifest = .ok plan

theorem validate_manifest_spec {manifest : ScenarioManifest} (h : validate_manifest manifest = .ok ()) :
    Accepted manifest := by
  unfold validate_manifest at h
  obtain ⟨_, hversion, h⟩ := bind_ok h
  obtain ⟨_, hnature, h⟩ := bind_ok h
  obtain ⟨_, hduration, h⟩ := bind_ok h
  obtain ⟨_, hcpu, h⟩ := bind_ok h
  obtain ⟨_, hcanary, h⟩ := bind_ok h
  obtain ⟨_, hpath, h⟩ := bind_ok h
  obtain ⟨_, hcidr, h⟩ := bind_ok h
  obtain ⟨_, htechnique, h⟩ := bind_ok h
  obtain ⟨_, htechniques, h⟩ := bind_ok h
  obtain ⟨_, hmapping, h⟩ := bind_ok h
  obtain ⟨_, -, h⟩ := bind_ok h
  obtain ⟨plan, hplan, -⟩ := bind_ok h
  have hduration_le := UInt32.le_iff_toNat_le.mp (of_decide_eq_true (require_ok hduration))
  have hcpu_le := UInt32.le_iff_toNat_le.mp (of_decide_eq_true (require_ok hcpu))
  exact {
    api_version := require_ok hversion
    nature := of_decide_eq_true (require_ok hnature)
    max_duration_sec := hduration_le
    cpu_limit_percent := hcpu_le
    canary_directory_only := fun dir hdir =>
      require_ok (for_each_ok hcanary dir (by rw [hdir]; exact List.mem_singleton_self dir))
    target_path := fun path hsome => require_ok
      (for_each_ok hpath path (by rw [hsome]; exact List.mem_singleton_self path))
    target_cidr := fun cidr hsome => require_ok
      (for_each_ok hcidr cidr (by rw [hsome]; exact List.mem_singleton_self cidr))
    techniques := fun r hr => require_ok (for_each_ok htechniques r hr)
    technique := fun id hid => require_ok (for_each_ok htechnique id (by rw [hid]; exact List.mem_singleton_self id))
    mapping := hmapping
    plan := ⟨plan, hplan⟩ }

/-- An empty list of techniques comes without a single one. -/
theorem Accepted.no_technique {manifest : ScenarioManifest} (haccepted : Accepted manifest)
    (hempty : manifest.metadata.mitre_techniques = some []) : manifest.metadata.mitre_technique = none := by
  have hmapping := haccepted.mapping
  unfold check_mapping at hmapping
  split at hmapping
  · rename_i primary refs _ hrefs
    obtain rfl := Option.some.inj (hrefs.symm.trans hempty)
    cases require_ok hmapping
  · rename_i hnone
    exact Option.eq_none_iff_forall_ne_some.mpr fun id hid => hnone id [] hid hempty

/-- All three sources of the directory are in scope. -/
theorem accepted_target_in_scope {manifest : ScenarioManifest} {plan : ExecutionPlan} (haccepted : Accepted manifest)
    (hcompiled : ExecutionPlan.Compiled manifest plan) : path_in_scope plan.target_dir = true := by
  rw [hcompiled.target_dir, ExecutionPlan.target_dir_of]
  cases hpath : manifest.spec.target_scope.bind TargetScope.target_path with
  | some path => exact haccepted.target_path path hpath
  | none =>
    cases hdir : manifest.spec.safety.canary_directory_only with
    | some dir => exact haccepted.canary_directory_only dir hdir
    | none =>
      change path_in_scope "/tmp/asmodeus-canary" = true
      decide

theorem accepted_cidr_in_scope {manifest : ScenarioManifest} {plan : ExecutionPlan} (haccepted : Accepted manifest)
    (hcompiled : ExecutionPlan.Compiled manifest plan) : net_target_in_scope plan.target_cidr = true := by
  rw [hcompiled.target_cidr]
  cases hcidr : manifest.spec.target_scope.bind TargetScope.target_cidr with
  | some cidr => exact haccepted.target_cidr cidr hcidr
  | none =>
    change net_target_in_scope "127.0.0.1/32" = true
    decide +kernel

/-- What the gate accepts has been parsed and validated. -/
theorem parse_and_validate_manifest_ok {serde : Serde} {raw : String} {manifest : ScenarioManifest}
    (h : parse_and_validate_manifest serde raw = .ok manifest) :
    parse_manifest serde raw = .ok manifest ∧ Accepted manifest := by
  unfold parse_and_validate_manifest at h
  obtain ⟨parsed, hparsed, h⟩ := bind_ok h
  obtain ⟨_, hvalid, h⟩ := bind_ok h
  obtain rfl := Except.ok.inj h
  exact ⟨hparsed, validate_manifest_spec hvalid⟩

/-- A text that the JSON reader takes for a valid manifest passes the gate. -/
theorem parsed_json {serde : Serde} {raw : String} {manifest : ScenarioManifest}
    (hopen : raw.toList.head? = some '\x7b') (hclose : raw.toList.getLast? = some '\x7d')
    (hread : serde.from_str raw.toList = .ok manifest) (hvalid : validate_manifest manifest = .ok ()) :
    parse_and_validate_manifest serde raw = .ok manifest := by
  have hparse := parse_manifest_json hopen (Lines.trim_eq_self hopen hclose (by decide) (by decide)) hread
  rw [parse_and_validate_manifest, hparse]
  change (validate_manifest manifest >>= fun _ => _) = _
  rw [hvalid]
  rfl

end asmodeus.dsl
