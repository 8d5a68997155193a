import Asmodeus.ControlPlane.Registry
import Asmodeus.Lib.Json.Reader
import Asmodeus.Lib.Utf8
import Mathlib.Data.List.Sort

open asmodeus.common

namespace asmodeus.control_plane

structure RunnerConfig where
  id : String
  name : String
  endpoint : String
  tags : List String
  draining : Bool
  registered_at_utc : UInt64
  deriving DecidableEq

/-- Versioned configuration; heartbeat observations are never durable. -/
structure RegistrySnapshot where
  version : UInt32
  require_runner : Bool
  runners : List RunnerConfig
  deriving DecidableEq

def RunnerConfig.json_fields (self : RunnerConfig) : List (String × Json) :=
  [("id", .str self.id), ("name", .str self.name), ("endpoint", .str self.endpoint),
    ("tags", .arr (self.tags.map .str)), ("draining", .bool self.draining),
    ("registered_at_utc", .num self.registered_at_utc.toNat)]

def RegistrySnapshot.json_fields (self : RegistrySnapshot) : List (String × Json) :=
  [("version", .num self.version.toNat), ("require_runner", .bool self.require_runner),
    ("runners", .arr (self.runners.map fun r => .obj r.json_fields))]

/-- `serde_json::to_vec_pretty`, as text. -/
def RegistrySnapshot.to_json (self : RegistrySnapshot) : List Char :=
  Json.render Json.pretty 0 (.obj self.json_fields)

/-- The parts of a parsed URL that the identity check looks at. -/
structure Url where
  scheme : String
  host_str : Option String
  username : String
  password : Option String
  fragment : Option String

/-- What the registry is given from outside: the URL parser, the transport's
own check of an endpoint, and the JSON reader of snapshots. -/
structure RegistryEnv where
  parse : String → Option Url
  from_shared : String → Bool
  reader : Json.Reader RegistrySnapshot RegistrySnapshot.to_json

def validate_identity (env : RegistryEnv) (id endpoint : String) : Except IoError Unit :=
  match env.parse endpoint with
  | none => .error ⟨.InvalidInput, "invalid runner endpoint URL"⟩
  | some url =>
    if env.from_shared endpoint = false then
      .error ⟨.InvalidInput, "invalid gRPC runner endpoint URI"⟩
    else if id = "" ∨ Lines.trim id.toList ≠ id.toList ∨ ¬ (url.scheme = "http" ∨ url.scheme = "https") ∨
        url.host_str = none ∨ url.username ≠ "" ∨ url.password.isSome ∨ url.fragment.isSome then
      .error ⟨.InvalidInput,
        "runner requires a nonempty trimmed id and an HTTP(S) endpoint without credentials or fragment"⟩
    else .ok ()

def RegisteredRunner.config (self : RegisteredRunner) : RunnerConfig :=
  ⟨self.record.id, self.record.name, self.record.endpoint, self.record.tags,
    decide (self.record.status = .Draining), self.record.registered_at_utc⟩

def RegistrySnapshot.from_data (data : RegistryData) : RegistrySnapshot :=
  ⟨1, data.require_runner, (data.runners.map RegisteredRunner.config).insertionSort fun a b => a.id ≤ b.id⟩

/-- The loop over the runners of a snapshot; `ids` are those seen before. -/
def validate_runners (env : RegistryEnv) : List String → List RunnerConfig → Except IoError Unit
  | _, [] => .ok ()
  | ids, runner :: runners =>
    match validate_identity env runner.id runner.endpoint with
    | .error e => .error ⟨.InvalidData, e.message⟩
    | .ok () =>
      if runner.id ∈ ids then .error ⟨.InvalidData, "duplicate runner id in snapshot"⟩
      else validate_runners env (runner.id :: ids) runners

def RegistrySnapshot.validate (env : RegistryEnv) (self : RegistrySnapshot) : Except IoError Unit :=
  if self.version ≠ 1 ∨ (self.require_runner = false ∧ self.runners ≠ []) then
    .error ⟨.InvalidData, "unsupported or inconsistent runner snapshot"⟩
  else validate_runners env [] self.runners

def RegistrySnapshot.decode (env : RegistryEnv) (bytes : List UInt8) : Except IoError RegistrySnapshot :=
  match Utf8.decode bytes with
  | none => .error ⟨.InvalidData, "invalid unicode code point"⟩
  | some text => match env.reader.from_str text with
    | .error e => .error ⟨.InvalidData, e⟩
    | .ok snapshot => match snapshot.validate env with
      | .error e => .error e
      | .ok () => .ok snapshot

def RunnerConfig.restored (self : RunnerConfig) (epoch : Nat) : RegisteredRunner :=
  ⟨⟨self.id, self.name, self.endpoint, self.tags, if self.draining then .Draining else .Unresponsive, none, 0, "",
    self.registered_at_utc⟩, epoch⟩

/-- Restored health is unknown. The entries allocate their tokens in turn. -/
def RegistrySnapshot.into_data (epoch : Nat) (self : RegistrySnapshot) : RegistryData :=
  ⟨self.runners.mapIdx fun index r => r.restored (epoch + index), self.require_runner⟩

/-- The bytes `write` leaves in the file. It replaces the file by a rename, so a
failed write leaves the file as it was. -/
def RegistrySnapshot.write (self : RegistrySnapshot) (disk : Disk) (file : Option (List UInt8)) :
    Except IoError Unit × Option (List UInt8) :=
  match disk with
  | .ok () => (.ok (), some (Utf8.encode self.to_json))
  | .error e => (.error e, file)

/-- A configuration whose runners have valid identities, each id once, and which
requires a runner once it has one. -/
structure RegistryData.Valid (env : RegistryEnv) (data : RegistryData) : Prop where
  unique : KeyedList.Unique RegisteredRunner.id data.runners
  identity : ∀ runner ∈ data.runners, validate_identity env runner.record.id runner.record.endpoint = .ok ()
  required : data.runners ≠ [] → data.require_runner = true

section

variable {env : RegistryEnv} {data : RegistryData}

theorem validate_runners_ok_iff {ids : List String} {runners : List RunnerConfig} :
    validate_runners env ids runners = .ok () ↔
      (∀ r ∈ runners, validate_identity env r.id r.endpoint = .ok ()) ∧ (runners.map RunnerConfig.id).Nodup ∧
        ∀ r ∈ runners, r.id ∉ ids := by
  induction runners generalizing ids with
  | nil => simp [validate_runners]
  | cons runner runners ih =>
    rw [validate_runners, List.forall_mem_cons, List.map_cons, List.nodup_cons, List.forall_mem_cons]
    cases hidentity : validate_identity env runner.id runner.endpoint with
    | error e => simp
    | ok _ =>
      dsimp only
      split
      · rename_i hseen
        simp [hseen]
      · rename_i hseen
        rw [ih]
        constructor
        · rintro ⟨hrest, hnodup, hfresh⟩
          refine ⟨⟨rfl, hrest⟩, ⟨fun hmem => ?_, hnodup⟩, hseen, fun r hr hmem => ?_⟩
          · obtain ⟨r, hr, hid⟩ := List.mem_map.mp hmem
            exact hfresh r hr (hid ▸ List.mem_cons_self)
          · exact hfresh r hr (List.mem_cons_of_mem _ hmem)
        · rintro ⟨⟨-, hrest⟩, ⟨hother, hnodup⟩, -, hfresh⟩
          refine ⟨hrest, hnodup, fun r hr hmem => ?_⟩
          rcases List.mem_cons.mp hmem with hid | hmem
          · exact hother (hid ▸ List.mem_map_of_mem hr)
          · exact hfresh r hr hmem

/-- Runners in the order of their ids, whatever order the map gave them in. -/
theorem from_data_sorted (data : RegistryData) :
    (RegistrySnapshot.from_data data).runners.Pairwise fun a b => a.id ≤ b.id :=
  List.pairwise_insertionSort _ _

theorem from_data_perm (data : RegistryData) :
    (RegistrySnapshot.from_data data).runners.Perm (data.runners.map RegisteredRunner.config) :=
  List.perm_insertionSort _ _

theorem RegistrySnapshot.validate_ok_iff {snapshot : RegistrySnapshot} :
    snapshot.validate env = .ok () ↔ snapshot.version = 1 ∧ (snapshot.runners ≠ [] → snapshot.require_runner = true) ∧
      (∀ r ∈ snapshot.runners, validate_identity env r.id r.endpoint = .ok ()) ∧
        (snapshot.runners.map RunnerConfig.id).Nodup := by
  rw [RegistrySnapshot.validate]
  split
  · rename_i hrefused
    refine iff_of_false (by simp) ?_
    rintro ⟨hversion, hrequired, -⟩
    rcases hrefused with hother | ⟨hrequire, hne⟩
    · exact hother hversion
    · exact absurd ((hrequired hne).symm.trans hrequire) (by decide)
  · rename_i haccepted
    rw [not_or, not_not, not_and] at haccepted
    have hrequired : snapshot.runners ≠ [] → snapshot.require_runner = true := by
      intro hne
      by_contra hrequire
      exact haccepted.2 (Bool.eq_false_iff.mpr hrequire) hne
    rw [validate_runners_ok_iff]
    constructor
    · rintro ⟨hidentity, hnodup, -⟩
      exact ⟨haccepted.1, hrequired, hidentity, hnodup⟩
    · rintro ⟨-, -, hidentity, hnodup⟩
      exact ⟨hidentity, hnodup, fun _ _ => List.not_mem_nil⟩

/-- The data is valid exactly when its snapshot passes the check of the reader. -/
theorem RegistryData.valid_iff : data.Valid env ↔ (RegistrySnapshot.from_data data).validate env = .ok () := by
  have hperm := from_data_perm data
  have hidentity : (∀ r ∈ (RegistrySnapshot.from_data data).runners, validate_identity env r.id r.endpoint = .ok ()) ↔
      ∀ r ∈ data.runners, validate_identity env r.record.id r.record.endpoint = .ok () := by
    simp only [hperm.mem_iff, List.forall_mem_map]
    exact Iff.rfl
  have hunique : ((RegistrySnapshot.from_data data).runners.map RunnerConfig.id).Nodup ↔
      KeyedList.Unique RegisteredRunner.id data.runners := by
    rw [(hperm.map RunnerConfig.id).nodup_iff, List.map_map]
    exact Iff.rfl
  have hempty : (RegistrySnapshot.from_data data).runners = [] ↔ data.runners = [] := by
    rw [← List.length_eq_zero_iff, hperm.length_eq, List.length_map, List.length_eq_zero_iff]
  rw [RegistrySnapshot.validate_ok_iff, hidentity, hunique, ne_eq, hempty]
  constructor
  · exact fun hvalid => ⟨rfl, hvalid.required, hvalid.identity, hvalid.unique⟩
  · rintro ⟨-, hrequired, hidentities, hids⟩
    exact ⟨hids, hidentities, hrequired⟩

/-- The bytes of a valid snapshot decode to it. -/
theorem RegistryData.Valid.decode (hvalid : data.Valid env) :
    RegistrySnapshot.decode env (Utf8.encode (RegistrySnapshot.from_data data).to_json) =
      .ok (RegistrySnapshot.from_data data) := by
  rw [RegistrySnapshot.decode, Utf8.decode_encode]
  dsimp only
  rw [env.reader.round_trip]
  dsimp only
  rw [RegistryData.valid_iff.mp hvalid]

theorem RunnerConfig.config_restored (config : RunnerConfig) (epoch : Nat) :
    (config.restored epoch).config = config := by
  obtain ⟨id, name, endpoint, tags, draining, registered⟩ := config
  cases draining <;> rfl

theorem RegistrySnapshot.config_into_data (epoch : Nat) (snapshot : RegistrySnapshot) :
    (snapshot.into_data epoch).runners.map RegisteredRunner.config = snapshot.runners := by
  refine List.ext_getElem (by simp [RegistrySnapshot.into_data]) fun i h₁ h₂ => ?_
  simp only [RegistrySnapshot.into_data, List.getElem_map, List.getElem_mapIdx]
  exact RunnerConfig.config_restored _ _

/-- A snapshot survives being loaded and taken again. -/
theorem from_data_into_data (data : RegistryData) (epoch : Nat) :
    RegistrySnapshot.from_data ((RegistrySnapshot.from_data data).into_data epoch) =
      RegistrySnapshot.from_data data := by
  have hsorted := from_data_sorted data
  conv_lhs => rw [RegistrySnapshot.from_data]
  rw [RegistrySnapshot.config_into_data, hsorted.insertionSort_eq]
  rfl

/-- A snapshot that passes its check loads as valid data. -/
theorem RegistrySnapshot.valid_into_data {snapshot : RegistrySnapshot} (hvalidate : snapshot.validate env = .ok ())
    (epoch : Nat) : (snapshot.into_data epoch).Valid env := by
  obtain ⟨-, hrequired, hidentity, hnodup⟩ := validate_ok_iff.mp hvalidate
  have hconfig := snapshot.config_into_data epoch
  refine ⟨?_, fun runner hrunner => ?_, fun hne => hrequired fun hnil => hne ?_⟩
  · have hids : (snapshot.into_data epoch).runners.map RegisteredRunner.id = snapshot.runners.map RunnerConfig.id := by
      rw [← hconfig, List.map_map]
      rfl
    rw [KeyedList.Unique, hids]
    exact hnodup
  · have hmem : runner.config ∈ snapshot.runners := hconfig ▸ List.mem_map_of_mem hrunner
    exact hidentity runner.config hmem
  · rw [RegistrySnapshot.into_data, hnil]
    rfl

theorem RegistrySnapshot.decode_ok {bytes : List UInt8} {snapshot : RegistrySnapshot}
    (hdecode : decode env bytes = .ok snapshot) : snapshot.validate env = .ok () := by
  unfold RegistrySnapshot.decode at hdecode
  split at hdecode
  · cases hdecode
  · split at hdecode
    · cases hdecode
    · split at hdecode
      · cases hdecode
      · rename_i hvalidate
        obtain rfl := Except.ok.inj hdecode
        exact hvalidate

end

theorem RunnerConfig.json_fields_injective : Function.Injective RunnerConfig.json_fields := by
  rintro ⟨id, name, endpoint, tags, draining, registered⟩ ⟨id', name', endpoint', tags', draining', registered'⟩ h
  have htags : Function.Injective (List.map Json.str) := List.map_injective_iff.mpr fun _ _ => Json.str.inj
  simpa [RunnerConfig.json_fields, UInt64.toNat_inj, htags.eq_iff] using h

theorem RegistrySnapshot.json_fields_injective : Function.Injective RegistrySnapshot.json_fields := by
  rintro ⟨version, require_runner, runners⟩ ⟨version', require_runner', runners'⟩ h
  have hrunners : Function.Injective (List.map fun r : RunnerConfig => Json.obj r.json_fields) :=
    List.map_injective_iff.mpr fun _ _ hobj => RunnerConfig.json_fields_injective (Json.obj.inj hobj)
  simpa [RegistrySnapshot.json_fields, UInt32.toNat_inj, hrunners.eq_iff] using h

theorem RegistrySnapshot.to_json_unambiguous : PrefixCode.Unambiguous RegistrySnapshot.to_json :=
  Json.render_obj_unambiguous Json.pretty RegistrySnapshot.json_fields_injective

/-- The outside of a registry with one known endpoint, for runs on fixed inputs. -/
noncomputable def loopback_env : RegistryEnv where
  parse endpoint :=
    if endpoint = "http://127.0.0.1:1" then some ⟨"http", some "127.0.0.1", "", none, none⟩ else none
  from_shared endpoint := decide (endpoint = "http://127.0.0.1:1")
  reader := .strict RegistrySnapshot.to_json_unambiguous

def loopback_runner : RunnerRecord := .new "probe" "Probe" "http://127.0.0.1:1" ["test"] 1

end asmodeus.control_plane
