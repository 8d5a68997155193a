import Asmodeus.Common.Rbac
import Asmodeus.Dsl.Fidelity
import Asmodeus.Dsl.Mitre

open asmodeus.common

namespace asmodeus.dsl

/-- A number of an untyped document. A float is kept as its bits. -/
inductive Number
  | PosInt (n : Nat)
  | NegInt (n : Int)
  | Float (bits : UInt64)
  deriving DecidableEq

/-- An untyped document. -/
inductive Value
  | Null
  | Bool (b : Bool)
  | Number (n : Number)
  | String (s : String)
  | Array (items : List Value)
  | Object (fields : List (String × Value))

def Value.as_u64 : Value → Option Nat
  | .Number (.PosInt n) => some n
  | _ => none

/-- INV-0 discriminator. -/
inductive ActionNature
  | Synthetic
  | Operational
  deriving DecidableEq

def ActionNature.is_permitted (self : ActionNature) : Bool := decide (self = .Synthetic)

def API_VERSION_V1ALPHA1 : String := "asmodeus.io/v1alpha1"
def API_VERSION_V1ALPHA2 : String := "asmodeus.io/v1alpha2"

/-- Every manifest `apiVersion` this build accepts. -/
def SUPPORTED_API_VERSIONS : List String := [API_VERSION_V1ALPHA1, API_VERSION_V1ALPHA2]

structure ManifestMetadata where
  id : String
  name : String
  category : Category
  mitre_technique : Option String
  fidelity : Option String
  mitre_techniques : Option (List TechniqueRef)
  severity : String
  description : Option String

structure TargetScope where
  selector : Option (List (String × String))
  target_path : Option String
  target_cidr : Option String

/-- Safety constraints enforced by the circuit breaker. -/
structure SafetySpec where
  max_duration_sec : UInt32
  cpu_limit_percent : UInt32
  canary_directory_only : Option String
  circuit_breaker_on_host_unresponsive : Bool

def SafetySpec.default : SafetySpec := ⟨60, 25, none, true⟩

/-- Action specification. The parameters are read by name, in no order. -/
structure ActionSpec where
  nature : ActionNature
  action_type : String
  parameters : List (String × Value)

structure ExpectedOutcome where
  detector : String
  expected_mttd_max_ms : Option Nat

structure ManifestSpec where
  target_scope : Option TargetScope
  safety : SafetySpec
  action : ActionSpec
  expected_outcome : ExpectedOutcome

/-- Complete declarative scenario manifest. -/
structure ScenarioManifest where
  api_version : String
  metadata : ManifestMetadata
  spec : ManifestSpec

/-- Reason a manifest fails declarative validation. -/
inductive ManifestValidationError
  | InvalidApiVersion (version : String)
  | NotSynthetic
  | InvalidCanaryPath (path : String)
  | InvalidNetworkTarget (cidr : String)
  | CpuLimitExceeded (percent : UInt32)
  | DurationLimitExceeded (seconds : UInt32)
  | UnknownMitreTechnique (id : String)
  | InvalidFidelity (value : String)
  | InvalidMitreMapping
  | BudgetLimitExceeded (message : String)
  | ParseError (message : String)
  deriving DecidableEq

def ManifestValidationError.display : ManifestValidationError → String
  | .InvalidApiVersion v =>
    "unsupported apiVersion '" ++ v ++ "', expected one of 'asmodeus.io/v1alpha1', 'asmodeus.io/v1alpha2'"
  | .NotSynthetic => "INV-0 violation: action nature must be 'synthetic'"
  | .InvalidCanaryPath p => "canary path '" ++ p ++ "' is outside permitted canary sandbox"
  | .InvalidNetworkTarget c => "network target '" ++ c ++ "' is outside reserved test net blocks"
  | .CpuLimitExceeded c => "cpu limit " ++ toString c ++ "% exceeds safe budget of 85%"
  | .DurationLimitExceeded d => "max duration " ++ toString d ++ "s exceeds maximum limit of 300s"
  | .UnknownMitreTechnique t => "unknown MITRE technique '" ++ t ++ "'"
  | .InvalidMitreMapping => "mitre_technique must match the first mitre_techniques entry"
  | .InvalidFidelity v => "invalid fidelity '" ++ v ++ "', expected 'marker_only', 'behavioral' or 'unspecified'"
  | .BudgetLimitExceeded msg => "resource budget exceeded: " ++ msg
  | .ParseError msg => "manifest parse error: " ++ msg

namespace ScenarioManifest

/-- Whether this manifest uses the legacy schema. -/
def is_legacy (self : ScenarioManifest) : Bool := decide (self.api_version = API_VERSION_V1ALPHA1)

/-- The fidelity of the executor behind an action type. -/
def implemented (action_type : String) : Fidelity :=
  if action_type = "synthetic_canary_encrypt" ∨ action_type = "latency_spike" then .Behavioral else .MarkerOnly

/-- The fidelity this manifest's results may be trusted at. A legacy manifest is
never promoted. -/
def effective_fidelity (self : ScenarioManifest) : Fidelity :=
  if self.is_legacy then .Unspecified
  else
    let declared := (self.metadata.fidelity.bind Fidelity.parse).getD .Unspecified
    declared.min (implemented self.spec.action.action_type)

/-- Stable primary projection. -/
def primary_technique (self : ScenarioManifest) : Option MitreTechnique :=
  let first := (self.metadata.mitre_techniques.bind List.head?).map TechniqueRef.technique_id
  (first.or self.metadata.mitre_technique).bind lookup_technique

def technique_fidelity (self : ScenarioManifest) (id : String) (ceiling : Fidelity) : Fidelity :=
  if self.spec.action.action_type = "synthetic_canary_encrypt" ∧ Text.eqIgnoreAsciiCase id "T1486" = true then ceiling
  else ceiling.min .MarkerOnly

/-- The scenario's technique references, resolved to a uniform list. -/
def resolved_technique_refs (self : ScenarioManifest) : List TechniqueRef :=
  let ceiling := self.effective_fidelity
  match self.metadata.mitre_techniques with
  | some refs => refs.map fun r =>
      ⟨r.technique_id, r.fidelity.min (self.technique_fidelity r.technique_id ceiling)⟩
  | none => match self.metadata.mitre_technique with
    | some id => [⟨id, self.technique_fidelity id ceiling⟩]
    | none => []

/-- A manifest that declares a behavioral fidelity under the current schema. -/
structure Declares (m : ScenarioManifest) : Prop where
  current : m.api_version ≠ API_VERSION_V1ALPHA1
  fidelity : ∃ declared, m.metadata.fidelity = some declared ∧ Fidelity.parse declared = some .Behavioral

theorem effective_behavioral {self : ScenarioManifest} (h : self.effective_fidelity = .Behavioral) : self.Declares := by
  unfold effective_fidelity at h
  split at h
  · cases h
  · rename_i hcurrent
    obtain ⟨hdeclared, -⟩ := Fidelity.min_behavioral.mp h
    refine ⟨fun hlegacy => hcurrent (decide_eq_true hlegacy), ?_⟩
    cases hfidelity : self.metadata.fidelity with
    | none =>
      rw [hfidelity] at hdeclared
      cases hdeclared
    | some declared =>
      refine ⟨declared, rfl, ?_⟩
      rw [hfidelity, Option.bind_some] at hdeclared
      cases hparse : Fidelity.parse declared with
      | none =>
        rw [hparse] at hdeclared
        cases hdeclared
      | some fidelity =>
        rw [hparse, Option.getD_some] at hdeclared
        rw [hdeclared]

theorem technique_behavioral {self : ScenarioManifest} {id : String} {ceiling : Fidelity}
    (h : self.technique_fidelity id ceiling = .Behavioral) :
    self.spec.action.action_type = "synthetic_canary_encrypt" ∧ Text.eqIgnoreAsciiCase id "T1486" = true ∧
      ceiling = .Behavioral := by
  unfold technique_fidelity at h
  split at h
  · rename_i hcanary
    exact ⟨hcanary.1, hcanary.2, h⟩
  · cases (Fidelity.min_behavioral.mp h).2

/-- The manifest names the technique, behavioral where the reference says so itself. -/
def Names (self : ScenarioManifest) (id : String) : Prop :=
  match self.metadata.mitre_techniques with
  | some refs => ∃ r ∈ refs, r.technique_id = id ∧ r.fidelity = .Behavioral
  | none => self.metadata.mitre_technique = some id

/-- A reference stays behavioral only where the manifest declares it so, the executor
is the canary encryptor, and the technique is the one it performs. -/
theorem resolved_behavioral {self : ScenarioManifest} {r : TechniqueRef} (hr : r ∈ self.resolved_technique_refs)
    (hbehavioral : r.fidelity = .Behavioral) :
    self.Declares ∧ self.spec.action.action_type = "synthetic_canary_encrypt" ∧
      Text.eqIgnoreAsciiCase r.technique_id "T1486" = true ∧ self.Names r.technique_id := by
  unfold resolved_technique_refs at hr
  dsimp only at hr
  split at hr
  · rename_i refs hrefs
    obtain ⟨declared, hdeclared, rfl⟩ := List.mem_map.mp hr
    obtain ⟨hown, htechnique⟩ := Fidelity.min_behavioral.mp hbehavioral
    obtain ⟨haction, hid, hceiling⟩ := technique_behavioral htechnique
    rw [Names, hrefs]
    exact ⟨effective_behavioral hceiling, haction, hid, declared, hdeclared, rfl, hown⟩
  · rename_i hrefs
    split at hr
    · rename_i id hid
      obtain rfl := List.mem_singleton.mp hr
      obtain ⟨haction, hcase, hceiling⟩ := technique_behavioral hbehavioral
      rw [Names, hrefs]
      exact ⟨effective_behavioral hceiling, haction, hcase, hid⟩
    · cases hr

end ScenarioManifest

end asmodeus.dsl
