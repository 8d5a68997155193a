import Asmodeus.ControlPlane.Catalog
import Mathlib.Data.List.Sort

open asmodeus.common asmodeus.telemetry

namespace asmodeus.control_plane

/-- A single step in a multi-stage attack campaign. -/
structure CampaignStep where
  order : Nat
  scenario_id : String
  deriving DecidableEq

/-- A multi-stage attack campaign definition. -/
structure Campaign where
  id : String
  name : String
  description : String
  steps : List CampaignStep
  deriving DecidableEq

/-- Execution result for an individual step within a campaign run. -/
structure CampaignStepResult where
  step_order : Nat
  scenario_id : String
  run_id : String
  status : String
  mttd_ms : UInt64
  mttr_ms : UInt64
  detected : Bool
  evidence : Option RunEvidence
  deriving DecidableEq

/-- The step a result is about. -/
def CampaignStepResult.step (self : CampaignStepResult) : CampaignStep := ⟨self.step_order, self.scenario_id⟩

structure CampaignCatalog where
  campaigns : List Campaign

namespace CampaignCatalog

/-- Seed the canonical attack campaigns. -/
def seeded : CampaignCatalog where
  campaigns :=
    [⟨"CAMP-RANSOMWARE-CHAIN", "Ransomware APT Attack Path",
        "Multi-stage simulated ransomware kill-chain: Credential Dumping -> Scheduled Persistence -> C2 Beaconing " ++
          "-> Mass Canary Data Encryption (MITRE T1003, T1053, T1071, T1486)",
        [⟨1, "CREDENTIAL_ACCESS_CANARY"⟩, ⟨2, "PERSISTENCE_CRON_CANARY"⟩, ⟨3, "C2_BEACONING_SIMULATION"⟩,
          ⟨4, "RANSOMWARE_CANARY_SPIKE"⟩]⟩,
      ⟨"CAMP-K8S-ESCAPE-CHAOS", "K8s Escape & Infrastructure Chaos Chain",
        "Container breakout combined with network latency chaos and DNS RPZ sinkhole outage (MITRE T1611 & FTT §4.2)",
        [⟨1, "K8S_ESCAPE_SIMULATION"⟩, ⟨2, "LATENCY_SPIKE_VM"⟩, ⟨3, "DNS_RPZ_SINKHOLE_DROP"⟩]⟩,
      ⟨"CAMP-PERSISTENCE-EXFIL", "Stealth Persistence & Exfiltration Chain",
        "Stealth persistence followed by log tampering and data exfiltration (MITRE T1053, T1070, T1041)",
        [⟨1, "PERSISTENCE_CRON_CANARY"⟩, ⟨2, "LOG_TAMPER_CANARY"⟩, ⟨3, "DATA_EXFILTRATION_CANARY"⟩]⟩]

def get (self : CampaignCatalog) (id : String) : Option Campaign :=
  self.campaigns.find? fun c => Text.eqIgnoreAsciiCase c.id id

/-- Register a campaign, replacing any existing campaign with the same id. -/
def register (self : CampaignCatalog) (campaign : Campaign) : CampaignCatalog :=
  match self.campaigns.findIdx? fun c => Text.eqIgnoreAsciiCase c.id campaign.id with
  | some pos => ⟨self.campaigns.set pos campaign⟩
  | none => ⟨self.campaigns ++ [campaign]⟩

def deregister (self : CampaignCatalog) (id : String) : CampaignCatalog :=
  ⟨self.campaigns.filter fun c => !Text.eqIgnoreAsciiCase c.id id⟩

end CampaignCatalog

/-- The errors of the campaign handlers. -/
inductive ApiError
  | Forbidden (message : String)
  | Unprocessable (message : String)
  | NotFound (message : String)
  | Conflict (message : String)
  | Internal (message : String)
  deriving DecidableEq

/-- Nobody may manage campaigns who may neither manage nor launch scenarios. -/
def may_manage_campaigns (role : Role) : Bool :=
  role.can .ManageScenarios || role.can .RunRedTeam || decide (role = .Admin)

/-- One step of a campaign to be registered, after the one before it. -/
def check_step (catalog : Catalog) (role : Role) (previous : Option CampaignStep) (step : CampaignStep) :
    Except ApiError Unit :=
  if step.order = 0 ∨ previous.map CampaignStep.order = some step.order then
    .error (.Unprocessable "campaign step order must be positive and unique")
  else match catalog.get step.scenario_id with
    | none => .error (.NotFound ("scenario not found: " ++ step.scenario_id))
    | some entry =>
      if role.can entry.category.required_capability then .ok ()
      else .error (.Forbidden "role may not register this scenario category")

def check_steps (catalog : Catalog) (role : Role) : Option CampaignStep → List CampaignStep → Except ApiError Unit
  | _, [] => .ok ()
  | previous, step :: steps => do
    check_step catalog role previous step
    check_steps catalog role (some step) steps

/-- `register_campaign` up to its transaction: the campaign with its steps in order. -/
def checked_campaign (catalog : Catalog) (role : Role) (campaign : Campaign) : Except ApiError Campaign :=
  if !may_manage_campaigns role then .error (.Forbidden "role may not register attack campaigns")
  else if Lines.trim campaign.id.toList = [] then .error (.Unprocessable "campaign id cannot be empty")
  else if campaign.steps = [] then .error (.Unprocessable "campaign steps cannot be empty")
  else do
    let sorted := { campaign with steps := campaign.steps.insertionSort fun a b => a.order ≤ b.order }
    check_steps catalog role none sorted.steps
    return sorted

/-- A plan with steps in the strict order of their positive numbers. -/
structure Planned (steps : List CampaignStep) : Prop where
  nonempty : steps ≠ []
  positive : ∀ step ∈ steps, step.order ≠ 0
  increasing : steps.Pairwise fun a b => a.order < b.order

def CampaignCatalog.Planned (self : CampaignCatalog) :
    Prop := ∀ campaign ∈ self.campaigns, control_plane.Planned campaign.steps

theorem CampaignCatalog.seeded_planned : seeded.Planned := by
  intro campaign hcampaign
  simp only [seeded, List.mem_cons, List.not_mem_nil, or_false] at hcampaign
  rcases hcampaign with rfl | rfl | rfl
  all_goals exact ⟨by decide, by decide, by decide⟩

theorem check_step_ok {catalog : Catalog} {role : Role} {previous : Option CampaignStep} {step : CampaignStep}
    (h : check_step catalog role previous step = .ok ()) :
    step.order ≠ 0 ∧ previous.map CampaignStep.order ≠ some step.order ∧ (catalog.get step.scenario_id).isSome := by
  unfold check_step at h
  split at h
  · cases h
  · rename_i horder
    rw [not_or] at horder
    split at h
    · cases h
    · rename_i hget
      exact ⟨horder.1, horder.2, by rw [hget]; rfl⟩

/-- Sorted steps that differ from their neighbours are in strict order. -/
theorem check_steps_ok {catalog : Catalog} {role : Role} {previous : Option CampaignStep} {steps : List CampaignStep}
    (h : check_steps catalog role previous steps = .ok ())
    (hsorted : (previous.toList ++ steps).Pairwise fun a b => a.order ≤ b.order) :
    (∀ step ∈ steps, step.order ≠ 0 ∧ (catalog.get step.scenario_id).isSome) ∧
      (previous.toList ++ steps).Pairwise fun a b => a.order < b.order := by
  induction steps generalizing previous with
  | nil =>
    refine ⟨fun step hstep => absurd hstep List.not_mem_nil, ?_⟩
    rw [List.append_nil]
    cases previous with
    | none => exact List.Pairwise.nil
    | some step => exact List.pairwise_singleton _ step
  | cons step steps ih =>
    obtain ⟨_, hstep, hrest⟩ := Fallible.bind_ok h
    obtain ⟨hpositive, hnext, hknown⟩ := check_step_ok hstep
    have htail : (step :: steps).Pairwise fun a b => a.order ≤ b.order :=
      hsorted.sublist (List.sublist_append_right _ _)
    obtain ⟨hsteps, hincreasing⟩ := ih hrest htail
    refine ⟨?_, ?_⟩
    · intro other hother
      rcases List.mem_cons.mp hother with rfl | hother
      · exact ⟨hpositive, hknown⟩
      · exact hsteps other hother
    · cases previous with
      | none => exact hincreasing
      | some before =>
        refine List.pairwise_cons.mpr ⟨fun other hother => ?_, hincreasing⟩
        have hle : before.order ≤ step.order := (List.pairwise_cons.mp hsorted).1 step List.mem_cons_self
        have hlt : before.order < step.order := lt_of_le_of_ne hle fun heq => hnext (congrArg some heq)
        rcases List.mem_cons.mp hother with rfl | hother
        · exact hlt
        · exact hlt.trans ((List.pairwise_cons.mp hincreasing).1 other hother)

theorem checked_campaign_planned {catalog : Catalog} {role : Role} {campaign checked : Campaign}
    (h : checked_campaign catalog role campaign = .ok checked) : Planned checked.steps := by
  unfold checked_campaign at h
  split at h
  · cases h
  · split at h
    · cases h
    · split at h
      · cases h
      · rename_i hsteps
        obtain ⟨_, hchecked, h⟩ := Fallible.bind_ok h
        obtain rfl := Except.ok.inj h
        obtain ⟨hall, hincreasing⟩ := check_steps_ok hchecked (List.pairwise_insertionSort _ _)
        refine ⟨fun hempty => hsteps ?_, fun step hstep => (hall step hstep).1, hincreasing⟩
        have hlength := congrArg List.length hempty
        rw [List.length_insertionSort] at hlength
        exact List.length_eq_zero_iff.mp hlength

theorem CampaignCatalog.Planned.register {catalog : CampaignCatalog} (hplanned : catalog.Planned) {campaign : Campaign}
    (hcampaign : control_plane.Planned campaign.steps) : (catalog.register campaign).Planned := by
  intro other hother
  unfold CampaignCatalog.register at hother
  split at hother
  · rcases List.mem_or_eq_of_mem_set hother with hother | rfl
    · exact hplanned other hother
    · exact hcampaign
  · rcases List.mem_append.mp hother with hother | hother
    · exact hplanned other hother
    · exact List.mem_singleton.mp hother ▸ hcampaign

theorem CampaignCatalog.Planned.deregister {catalog : CampaignCatalog} (hplanned : catalog.Planned) (id : String) :
    (catalog.deregister id).Planned :=
  fun other hother => hplanned other (List.mem_filter.mp hother).1

theorem CampaignCatalog.Planned.get {catalog : CampaignCatalog} (hplanned : catalog.Planned) {id : String}
    {campaign : Campaign} (hget : catalog.get id = some campaign) : control_plane.Planned campaign.steps :=
  hplanned campaign (List.mem_of_find?_eq_some hget)

end asmodeus.control_plane
