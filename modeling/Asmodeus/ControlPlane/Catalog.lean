import Asmodeus.ControlPlane.Execution.Revisions
import Asmodeus.Dsl.Validation
import Asmodeus.Lib.KeyedList
import Asmodeus.Lib.Utf8

open asmodeus.common asmodeus.dsl

namespace asmodeus.control_plane

/-- The fidelity profile of a built-in scenario. -/
structure ProfileDef where
  scenario_id : String
  fidelity : Fidelity
  techniques : List String

/-- The scenario's technique references, each at the profile's fidelity. -/
def ProfileDef.technique_refs (self : ProfileDef) : List TechniqueRef :=
  self.techniques.map fun id => ⟨id, self.fidelity⟩

/-- The pinned fidelity mapping of every built-in scenario. -/
def PROFILES : List ProfileDef :=
  [⟨"RANSOMWARE_CANARY_SPIKE", .Behavioral, ["T1486"]⟩,
    ⟨"K8S_ESCAPE_SIMULATION", .MarkerOnly, ["T1611"]⟩,
    ⟨"C2_BEACONING_SIMULATION", .MarkerOnly, ["T1071", "T1071.001", "T1071.004", "T1568"]⟩,
    ⟨"CREDENTIAL_ACCESS_CANARY", .MarkerOnly, ["T1003"]⟩,
    ⟨"LOG_TAMPER_CANARY", .MarkerOnly, ["T1070"]⟩,
    ⟨"PERSISTENCE_CRON_CANARY", .MarkerOnly, ["T1053"]⟩,
    ⟨"DATA_EXFILTRATION_CANARY", .MarkerOnly, ["T1041"]⟩,
    ⟨"DEFENSE_IMPAIRMENT_CANARY", .MarkerOnly, ["T1562", "T1562.001"]⟩,
    ⟨"LATENCY_SPIKE_VM", .Behavioral, []⟩,
    ⟨"AGENT_CRASH_ENDPOINT", .MarkerOnly, ["T1562"]⟩,
    ⟨"DNS_RPZ_SINKHOLE_DROP", .Behavioral, []⟩]

def profile_for (scenario_id : String) : Option ProfileDef :=
  PROFILES.find? fun p => decide (p.scenario_id = scenario_id)

/-- One entry in the catalog. -/
structure CatalogEntry extends ScenarioEntry where
  target_path : String
  detector : String
  fidelity : Fidelity
  technique_refs : List TechniqueRef
  description : String
  manifest : List UInt8
  signature : List UInt8
  sim_mttd_ms : Nat
  sim_mttr_ms : Nat

/-- The scenario catalog plus the trusted signing public key. Entries are kept under
their id, in the order they were first added. -/
structure Catalog where
  entries : List CatalogEntry
  public_key : List UInt8
  secret_key : Option (List UInt8)

/-- The technique as an admission records it. -/
def recorded_technique (technique : Option MitreTechnique) : Option (String × String) :=
  technique.map fun m => (m.id, m.tactic)

/-- The arguments of one built-in scenario. -/
structure Builtin where
  id : String
  name : String
  category : Category
  detector : String
  mitre : Option MitreTechnique
  severity : String
  description : String
  mttd : Nat
  mttr : Nat

def builtins : List Builtin :=
  [⟨"RANSOMWARE_CANARY_SPIKE", "Ransomware Canary Encryption Spike", .RedTeam, "ferrum_ebpf_kernel_probe",
      lookup_technique "T1486", "high", "Mass file encryption spike with reversible XOR on synthetic canary docs",
      142, 280⟩,
    ⟨"K8S_ESCAPE_SIMULATION", "K8s Container Escape Simulation", .RedTeam, "ferrum_admission_controller",
      lookup_technique "T1611", "critical",
      "Container escape probe targeting simulated hostPath and container sockets", 95, 210⟩,
    ⟨"C2_BEACONING_SIMULATION", "C2 Beaconing & Dynamic Resolution Simulation", .RedTeam,
      "bsdm_proxy_dns_sinkhole", lookup_technique "T1071", "high",
      "Periodic synthetic HTTP/DNS beaconing with jitter to test domains", 110, 230⟩,
    ⟨"CREDENTIAL_ACCESS_CANARY", "Credential Access Honeytoken Canary", .RedTeam, "lariska_honeytoken_sentinel",
      lookup_technique "T1003", "high", "Decoy honeytoken credentials access probe within canary scope", 85, 170⟩,
    ⟨"LOG_TAMPER_CANARY", "Indicator Removal & Log Tamper Canary", .RedTeam, "ferrum_audit_log_watcher",
      lookup_technique "T1070", "medium",
      "Synthetic log truncation and indicator deletion in canary directory", 75, 160⟩,
    ⟨"PERSISTENCE_CRON_CANARY", "Persistence Scheduled Task Canary", .RedTeam, "lariska_persistence_guard",
      lookup_technique "T1053", "medium", "Decoy scheduled task installation in synthetic canary directory",
      120, 250⟩,
    ⟨"DATA_EXFILTRATION_CANARY", "Data Exfiltration Over C2 Canary", .RedTeam, "bsdm_proxy_swg_monitor",
      lookup_technique "T1041", "high", "Synthetic staged data exfiltration probe via loopback test channel",
      130, 290⟩,
    ⟨"DEFENSE_IMPAIRMENT_CANARY", "Defense Impairment & Tool Disable Canary", .RedTeam, "lariska_watchdog",
      lookup_technique "T1562", "high", "Benign signal interruption probe testing endpoint agent watchdog",
      50, 140⟩,
    ⟨"LATENCY_SPIKE_VM", "Scanner Drift & Network Latency Chaos", .Chaos, "apex_gateway_failover", none, "high",
      "Synthetic network latency and packet loss on test RFC 5737 / loopback segment", 60, 180⟩,
    ⟨"AGENT_CRASH_ENDPOINT", "Endpoint Agent Crash Chaos", .Chaos, "lariska_watchdog", lookup_technique "T1562",
      "critical", "Unscheduled agent termination test to verify 5s recovery window", 40, 120⟩,
    ⟨"DNS_RPZ_SINKHOLE_DROP", "DNS RPZ Resolver Outage Chaos", .Chaos, "bsdm_proxy_failover", none, "high",
      "Primary DNS RPZ sinkhole outage simulation to verify DoH fail-closed", 45, 130⟩]

/-- Every built-in scenario works below this directory. -/
def builtin_target : String := "/tmp/asmodeus-canary/"

def Builtin.manifest (b : Builtin) : ScenarioManifest :=
  let typed := synthetic_manifest b.id builtin_target 20 64
  { typed with
    metadata := { typed.metadata with
      name := b.name
      category := b.category
      mitre_technique := b.mitre.map MitreTechnique.id
      severity := b.severity
      description := some b.description }
    spec := { typed.spec with expected_outcome := ⟨b.detector, some b.mttd⟩ } }

/-- The entry of a built-in scenario over its serialized manifest. -/
def Builtin.entry (b : Builtin) (manifest signature : List UInt8) : CatalogEntry where
  id := b.id
  name := b.name
  category := b.category
  mitre := recorded_technique b.mitre
  severity := b.severity
  target_path := builtin_target
  detector := b.detector
  fidelity := match profile_for b.id with
    | some p => p.fidelity
    | none => .Unspecified
  technique_refs := match profile_for b.id with
    | some p => p.technique_refs
    | none => []
  description := b.description
  manifest := manifest
  signature := signature
  sim_mttd_ms := b.mttd
  sim_mttr_ms := b.mttr

/-- The entry of an external manifest. -/
def external_entry (content : String) (manifest : ScenarioManifest) (plan : ExecutionPlan)
    (signature : List UInt8) : CatalogEntry where
  id := manifest.metadata.id
  name := manifest.metadata.name
  category := manifest.metadata.category
  mitre := recorded_technique manifest.primary_technique
  severity := manifest.metadata.severity
  target_path := plan.target_dir
  detector := manifest.spec.expected_outcome.detector
  fidelity := manifest.effective_fidelity
  technique_refs := manifest.resolved_technique_refs
  description := manifest.metadata.description.getD ""
  manifest := Utf8.encode content.toList
  signature := signature
  sim_mttd_ms := manifest.spec.expected_outcome.expected_mttd_max_ms.getD 60
  sim_mttr_ms := 150

/-- An item of a directory. Its content is missing where it cannot be read as text. -/
structure DirEntry where
  is_file : Bool
  extension : Option String
  content : Option String

/-- What the file system says about a path. -/
inductive Directory
  | missing
  | unreadable (error : String)
  | listed (items : List (Except String DirEntry))

namespace Catalog

def get (self : Catalog) (id : String) : Option CatalogEntry := KeyedList.find (fun e => e.id) id self.entries

section

-- The Ed25519 signature of a message under a secret key, and its verification.
variable (sign : List UInt8 → List UInt8 → Except String (List UInt8))
variable (is_valid : List UInt8 → List UInt8 → List UInt8 → Bool)
-- The serializer and the deserializers of manifests.
variable (to_vec : ScenarioManifest → List UInt8) (serde : Serde)

/-- Seed the canonical scenarios, self-signed. -/
def seeded (public_key secret_key : List UInt8) : Catalog where
  entries := builtins.map fun b =>
    let manifest := to_vec b.manifest
    b.entry manifest (Except.toOption (sign secret_key manifest) |>.getD [])
  public_key := public_key
  secret_key := some secret_key

/-- The signature of an external manifest, empty without a key. -/
def sign_external (self : Catalog) (raw : List UInt8) : List UInt8 :=
  match self.secret_key with
  | some key => match sign key raw with
    | .ok signature => signature
    | .error _ => []
  | none => []

/-- One item of the directory. Anything but a readable, valid manifest is skipped. -/
def read_item (self : Catalog) (item : DirEntry) : Except String (Option CatalogEntry) :=
  let extension := String.ofList ((item.extension.getD "").toList.map Char.toLower)
  if !item.is_file || !(["yaml", "yml", "json"].contains extension) then .ok none
  else match item.content with
    | none => .ok none
    | some content => match parse_and_validate_manifest serde content with
      | .error _ => .ok none
      | .ok manifest => match ExecutionPlan.from_manifest manifest with
        | .error e => .error e.display
        | .ok plan =>
          .ok (some (external_entry content manifest plan (self.sign_external sign (Utf8.encode content.toList))))

def load_items (self : Catalog) (count : Nat) : List (Except String DirEntry) → Catalog × Except String Nat
  | [] => (self, .ok count)
  | .error e :: _ => (self, .error e)
  | .ok item :: rest => match self.read_item sign serde item with
    | .error e => (self, .error e)
    | .ok none => self.load_items count rest
    | .ok (some entry) =>
      { self with entries := KeyedList.upsert (fun e => e.id) self.entries entry }.load_items (count + 1) rest

/-- Load external scenario manifests from a directory. Returns the number loaded. -/
def load_from_dir (self : Catalog) : Directory → Catalog × Except String Nat
  | .missing => (self, .ok 0)
  | .unreadable e => (self, .error e)
  | .listed items => self.load_items sign serde 0 items

/-- Sign every entry with an operator key. -/
def sign_entries (key public_key : List UInt8) : List CatalogEntry → Except String (List CatalogEntry)
  | [] => .ok []
  | entry :: rest => match sign key entry.manifest with
    | .error e => .error e
    | .ok signature =>
      if is_valid entry.manifest signature public_key then
        (sign_entries key public_key rest).map ({ entry with signature := signature } :: ·)
      else .error "inconsistent scenario signing key"

def use_signing_key (self : Catalog) (key public_key : List UInt8) : Except String Catalog :=
  (sign_entries sign is_valid key public_key self.entries).map fun entries => ⟨entries, public_key, some key⟩

/-- The operator's key, if there is one, replaces the seeded one. -/
def use_configured_key (self : Catalog) (public_key_from_secret_key : List UInt8 → Except String (List UInt8))
    (signing_key : Option (Except String (List UInt8))) (runner_endpoint : Bool) : Except String Catalog :=
  match signing_key with
  | some read => do
    let key ← read
    let public_key ← public_key_from_secret_key key
    self.use_signing_key sign is_valid key public_key
  | none =>
    if runner_endpoint then .error "ASMODEUS_SCENARIO_SIGNING_KEY is required for a configured runner" else .ok self

/-- External manifests are read from the configured directory. -/
def use_configured_dir (self : Catalog) (dir : Option Directory) : Except String Catalog :=
  match dir with
  | none => .ok self
  | some .missing => .error "ASMODEUS_SCENARIOS_DIR must be an existing directory"
  | some dir => match self.load_from_dir sign serde dir with
    | (_, .error e) => .error e
    | (loaded, .ok _) => .ok loaded

/-- The catalog of a process, over the seeded one. -/
def from_env (self : Catalog) (public_key_from_secret_key : List UInt8 → Except String (List UInt8))
    (signing_key : Option (Except String (List UInt8))) (runner_endpoint : Bool) (dir : Option Directory) :
    Except String Catalog := do
  let signed ← self.use_configured_key sign is_valid public_key_from_secret_key signing_key runner_endpoint
  signed.use_configured_dir sign serde dir

/-- The catalogs a process can hold: seeded, signed with an operator key, and
extended by any number of directories. -/
inductive Built : Catalog → Prop
  | seeded (public_key secret_key : List UInt8) : Built (seeded sign to_vec public_key secret_key)
  | signed {catalog catalog' : Catalog} {key public_key : List UInt8} (hbuilt : Built catalog)
    (hsigned : catalog.use_signing_key sign is_valid key public_key = .ok catalog') : Built catalog'
  | loaded {catalog : Catalog} (hbuilt : Built catalog) (dir : Directory) :
    Built (catalog.load_from_dir sign serde dir).1

/-- Where an entry comes from. -/
inductive Sourced (entry : CatalogEntry) : Prop
  | builtin (b : Builtin) (signature : List UInt8) (hb : b ∈ builtins)
    (hentry : entry = b.entry (to_vec b.manifest) signature)
  | external (content : String) (manifest : ScenarioManifest) (plan : ExecutionPlan) (signature : List UInt8)
    (hmanifest : parse_and_validate_manifest serde content = .ok manifest)
    (hplan : ExecutionPlan.from_manifest manifest = .ok plan)
    (hentry : entry = external_entry content manifest plan signature)

variable {sign is_valid to_vec serde}

theorem from_env_built {catalog catalog' : Catalog} {public_of : List UInt8 → Except String (List UInt8)}
    {signing_key : Option (Except String (List UInt8))} {runner_endpoint : Bool} {dir : Option Directory}
    (hbuilt : Built sign is_valid to_vec serde catalog)
    (henv : catalog.from_env sign is_valid serde public_of signing_key runner_endpoint dir = .ok catalog') :
    Built sign is_valid to_vec serde catalog' := by
  obtain ⟨signed, hsigned, henv⟩ := Fallible.bind_ok henv
  have hbuilt' : Built sign is_valid to_vec serde signed := by
    unfold use_configured_key at hsigned
    split at hsigned
    · obtain ⟨key, -, hsigned⟩ := Fallible.bind_ok hsigned
      obtain ⟨public_key, -, hsigned⟩ := Fallible.bind_ok hsigned
      exact hbuilt.signed hsigned
    · split at hsigned
      · cases hsigned
      · exact Except.ok.inj hsigned ▸ hbuilt
  unfold use_configured_dir at henv
  split at henv
  · exact Except.ok.inj henv ▸ hbuilt'
  · cases henv
  · rename_i dir _ _
    split at henv
    · cases henv
    · rename_i loaded count hload
      have hloaded := hbuilt'.loaded dir
      rw [hload] at hloaded
      exact Except.ok.inj henv ▸ hloaded

theorem Sourced.resign {entry : CatalogEntry} (h : Sourced to_vec serde entry) (signature : List UInt8) :
    Sourced to_vec serde { entry with signature := signature } := by
  cases h with
  | builtin b old hb hentry => exact .builtin b signature hb (by rw [hentry]; rfl)
  | external content manifest plan old hmanifest hplan hentry =>
    exact .external content manifest plan signature hmanifest hplan (by rw [hentry]; rfl)

theorem sign_entries_sourced {key public_key : List UInt8} {entries signed : List CatalogEntry}
    (h : sign_entries sign is_valid key public_key entries = .ok signed)
    (hsourced : ∀ entry ∈ entries, Sourced to_vec serde entry) : ∀ entry ∈ signed, Sourced to_vec serde entry := by
  induction entries generalizing signed with
  | nil =>
    obtain rfl := Except.ok.inj h
    exact hsourced
  | cons head rest ih =>
    unfold sign_entries at h
    split at h
    · cases h
    · split at h
      · cases hrest : sign_entries sign is_valid key public_key rest with
        | error e =>
          rw [hrest] at h
          cases h
        | ok tail =>
          rw [hrest] at h
          obtain rfl := Except.ok.inj h
          intro entry hentry
          rcases List.mem_cons.mp hentry with rfl | hentry
          · exact (hsourced head List.mem_cons_self).resign _
          · exact ih hrest (fun entry hmem => hsourced entry (List.mem_cons_of_mem _ hmem)) entry hentry
      · cases h

theorem read_item_sourced {catalog : Catalog} {item : DirEntry} {entry : CatalogEntry}
    (h : catalog.read_item sign serde item = .ok (some entry)) : Sourced to_vec serde entry := by
  unfold read_item at h
  dsimp only at h
  split at h
  · cases h
  · split at h
    · cases h
    · rename_i content _
      split at h
      · cases h
      · rename_i manifest hmanifest
        split at h
        · cases h
        · rename_i plan hplan
          exact .external content manifest plan _ hmanifest hplan (Option.some.inj (Except.ok.inj h)).symm

/-- The loader takes a JSON file that passes the gate. -/
theorem read_json_item (catalog : Catalog) {text : String} {manifest : ScenarioManifest} {plan : ExecutionPlan}
    (hparsed : parse_and_validate_manifest serde text = .ok manifest)
    (hplan : ExecutionPlan.from_manifest manifest = .ok plan) :
    catalog.read_item sign serde ⟨true, some "json", some text⟩ =
      .ok (some (external_entry text manifest plan (catalog.sign_external sign (Utf8.encode text.toList)))) := by
  have hextension : (!true || !(["yaml", "yml", "json"].contains
      (String.ofList (((some "json").getD "").toList.map Char.toLower)))) = false := by decide
  simp only [read_item, hextension, Bool.false_eq_true, if_false, hparsed, hplan]

theorem load_items_sourced {catalog : Catalog} {count : Nat} {items : List (Except String DirEntry)}
    (hsourced : ∀ entry ∈ catalog.entries, Sourced to_vec serde entry) :
    ∀ entry ∈ (catalog.load_items sign serde count items).1.entries, Sourced to_vec serde entry := by
  induction items generalizing catalog count with
  | nil => exact hsourced
  | cons head rest ih =>
    unfold load_items
    cases head with
    | error e => exact hsourced
    | ok item =>
      dsimp only
      split
      · exact hsourced
      · exact ih hsourced
      · rename_i entry hread
        refine ih fun other hother => ?_
        rcases KeyedList.mem_upsert hother with rfl | hother
        · exact read_item_sourced hread
        · exact hsourced other hother

/-- Every entry of a catalog is a built-in one or comes from a manifest the gate
accepts. -/
theorem Built.sourced {catalog : Catalog} (hbuilt : Built sign is_valid to_vec serde catalog) :
    ∀ entry ∈ catalog.entries, Sourced to_vec serde entry := by
  induction hbuilt with
  | seeded public_key secret_key =>
    intro entry hentry
    obtain ⟨b, hb, rfl⟩ := List.mem_map.mp hentry
    exact .builtin b _ hb rfl
  | signed hbuilt hsigned ih =>
    rename_i catalog catalog' key public_key
    unfold use_signing_key at hsigned
    cases hentries : sign_entries sign is_valid key public_key catalog.entries with
    | error e =>
      rw [hentries] at hsigned
      cases hsigned
    | ok entries =>
      rw [hentries] at hsigned
      obtain rfl := Except.ok.inj hsigned
      exact sign_entries_sourced hentries ih
  | loaded hbuilt dir ih =>
    cases dir with
    | missing => exact ih
    | unreadable e => exact ih
    | listed items => exact load_items_sourced ih

theorem builtin_ids_unique : (builtins.map Builtin.id).Nodup := by
  decide

theorem sign_entries_ids {key public_key : List UInt8} {entries signed : List CatalogEntry}
    (h : sign_entries sign is_valid key public_key entries = .ok signed) :
    signed.map (fun e => e.id) = entries.map fun e => e.id := by
  induction entries generalizing signed with
  | nil =>
    obtain rfl := Except.ok.inj h
    rfl
  | cons head rest ih =>
    unfold sign_entries at h
    split at h
    · cases h
    · split at h
      · cases hrest : sign_entries sign is_valid key public_key rest with
        | error e =>
          rw [hrest] at h
          cases h
        | ok tail =>
          rw [hrest] at h
          obtain rfl := Except.ok.inj h
          rw [List.map_cons, List.map_cons, ih hrest]
      · cases h

theorem load_items_unique {catalog : Catalog} {count : Nat} {items : List (Except String DirEntry)}
    (hunique : KeyedList.Unique (fun e : CatalogEntry => e.id) catalog.entries) :
    KeyedList.Unique (fun e : CatalogEntry => e.id) (catalog.load_items sign serde count items).1.entries := by
  induction items generalizing catalog count with
  | nil => exact hunique
  | cons head rest ih =>
    unfold load_items
    cases head with
    | error e => exact hunique
    | ok item =>
      dsimp only
      split
      · exact hunique
      · exact ih hunique
      · exact ih hunique.upsert

/-- A catalog has one entry under each id. -/
theorem Built.unique {catalog : Catalog} (hbuilt : Built sign is_valid to_vec serde catalog) :
    KeyedList.Unique (fun e : CatalogEntry => e.id) catalog.entries := by
  induction hbuilt with
  | seeded public_key secret_key =>
    rw [KeyedList.Unique, Catalog.seeded, List.map_map]
    exact builtin_ids_unique
  | signed hbuilt hsigned ih =>
    rename_i catalog catalog' key public_key
    unfold use_signing_key at hsigned
    cases hentries : sign_entries sign is_valid key public_key catalog.entries with
    | error e =>
      rw [hentries] at hsigned
      cases hsigned
    | ok entries =>
      rw [hentries] at hsigned
      obtain rfl := Except.ok.inj hsigned
      rw [KeyedList.Unique, sign_entries_ids hentries]
      exact ih
  | loaded hbuilt dir ih =>
    cases dir with
    | missing => exact ih
    | unreadable e => exact ih
    | listed items => exact load_items_unique ih

theorem Built.get_of_mem {catalog : Catalog} (hbuilt : Built sign is_valid to_vec serde catalog)
    {entry : CatalogEntry} (hentry : entry ∈ catalog.entries) : catalog.get entry.id = some entry :=
  hbuilt.unique.find_of_mem hentry

end

end Catalog

end asmodeus.control_plane
