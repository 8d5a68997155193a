import Asmodeus.Lib.FileTree.Calls
import Asmodeus.Runner.Worker
import Asmodeus.Telemetry.Timestamp

open FileTree UnixPath
open asmodeus.dsl
open asmodeus.telemetry (zero_padded)

namespace asmodeus.runner

/-- A path as the file system takes it. -/
abbrev FsPath := List Component

abbrev Fs (α : Type) := Program (Call Component) (fun call => call.verb.Reply) α

/-- File work that stops at its first error. -/
abbrev Io (α : Type) := ExceptT InjectError (Program (Call Component) fun call => call.verb.Reply) α

def errno_display : Errno → String
  | .NotFound => "No such file or directory (os error 2)"
  | .AlreadyExists => "File exists (os error 17)"
  | .NotADirectory => "Not a directory (os error 20)"
  | .IsADirectory => "Is a directory (os error 21)"
  | .DirectoryNotEmpty => "Directory not empty (os error 39)"
  | .Other message => message

/-- The `?` on an I/O result. -/
def Io.of {α : Type} (x : Fs (Except Errno α)) : Io α :=
  ExceptT.mk (x >>= fun result => .done (result.mapError fun e => .Io (errno_display e)))

namespace fs

def symlink_metadata (path : FsPath) : Fs (Except Errno Metadata) := .call ⟨path, .symlink_metadata⟩ .done
def metadata (path : FsPath) : Fs (Except Errno Metadata) := .call ⟨path, .metadata⟩ .done
def create_dir (path : FsPath) : Fs (Except Errno Unit) := .call ⟨path, .create_dir⟩ .done
def create (path : FsPath) : Fs (Except Errno Unit) := .call ⟨path, .create⟩ .done
def write_all (path : FsPath) (bytes : List UInt8) : Fs (Except Errno Unit) := .call ⟨path, .write_all bytes⟩ .done
def read (path : FsPath) : Fs (Except Errno (List UInt8)) := .call ⟨path, .read⟩ .done
def remove_file (path : FsPath) : Fs (Except Errno Unit) := .call ⟨path, .remove_file⟩ .done
def remove_dir (path : FsPath) : Fs (Except Errno Unit) := .call ⟨path, .remove_dir⟩ .done
def remove_dir_all (path : FsPath) : Fs (Except Errno Unit) := .call ⟨path, .remove_dir_all⟩ .done

/-- `Path::exists`. What cannot be looked at counts as absent. -/
def path_exists (path : FsPath) : Fs Bool := do
  let found ← metadata path
  return found.isOk

def is_dir (path : FsPath) : Fs Bool := do
  let found ← metadata path
  return found.toOption == some .dir

/-- `fs::create_dir_all` of a path whose names are given from the last one on. -/
def create_dir_all : FsPath → Fs (Except Errno Unit)
  | [] => .done (.error (.Other "failed to create whole tree"))
  | name :: above => do
    let path := (name :: above).reverse
    match ← create_dir path with
    | .ok () => return .ok ()
    | .error .NotFound =>
      match ← create_dir_all above with
      | .error e => return .error e
      | .ok () =>
        match ← create_dir path with
        | .ok () => return .ok ()
        | .error e => return if ← is_dir path then .ok () else .error e
    | .error e => return if ← is_dir path then .ok () else .error e

/-- `fs::write`. -/
def write (path : FsPath) (bytes : List UInt8) : Fs (Except Errno Unit) := do
  match ← create path with
  | .error e => return .error e
  | .ok () => write_all path bytes

end fs

def utf8 (text : String) : List UInt8 := text.toUTF8.toList

/-- `dir.join(name)`. -/
def entry_path (dir : List Char) (name : String) : FsPath := components (join dir name.toList)

def create_dir_all (dir : List Char) : Io Unit := .of (fs.create_dir_all (components dir).reverse)

def remove_file_idempotent (path : FsPath) : Io Unit := do
  match ← (fs.remove_file path : Fs _) with
  | .ok () => return ()
  | .error .NotFound => return ()
  | .error e => throw (.Io (errno_display e))

/-- A synthetic scenario executor. -/
structure ScenarioInjector where
  inject : Io Report
  cleanup : Io Unit

/-- Remove files of a directory, and the directory if nothing else is in it. -/
def cleanup_files (dir : List Char) (names : List String) : Io Unit := do
  if ← (fs.path_exists (components dir) : Fs _) then
    names.forM fun name => remove_file_idempotent (entry_path dir name)
    let _ ← (fs.remove_dir (components dir) : Fs _)

namespace CanaryInjector

/-- The byte of the reversible key stream. -/
def XOR_KEY : UInt8 := 0xA5

def file_name (i : Nat) : String := "canary_" ++ zero_padded 3 i ++ ".docx"

def chunk (chunk_size_kb : Nat) : List UInt8 := List.replicate (chunk_size_kb * 1024) 67

/-- One decoy file and its pass of the key stream. The bytes read back. -/
def encrypt_file (dir : List Char) (chunk_size_kb i : Nat) : Io Nat := do
  let path := entry_path dir (file_name i)
  Io.of (fs.create path)
  Io.of (fs.write_all path (chunk chunk_size_kb))
  let data ← Io.of (fs.read path)
  let data := data.map (· ^^^ XOR_KEY)
  Io.of (fs.write path data)
  return data.length

def encrypt_files (dir : List Char) (chunk_size_kb : Nat) : List Nat → Nat → Io Nat
  | [], bytes => return bytes
  | i :: rest, bytes => do
    let read ← encrypt_file dir chunk_size_kb i
    encrypt_files dir chunk_size_kb rest (bytes + (chunk chunk_size_kb).length + read)

/-- `inject`, whose checks always pass. -/
def inject (dir : List Char) (file_count chunk_size_kb : Nat) : Io Report := do
  create_dir_all dir
  let bytes_written ← encrypt_files dir chunk_size_kb (List.range file_count) 0
  return ⟨file_count, bytes_written⟩

def cleanup (dir : List Char) : Io Unit := do
  if ← (fs.path_exists (components dir) : Fs _) then
    Io.of (fs.remove_dir_all (components dir))

def new (dir : List Char) (file_count chunk_size_kb : Nat) : Except InjectError ScenarioInjector := do
  make_injector dir
  return ⟨inject dir file_count chunk_size_kb, cleanup dir⟩

end CanaryInjector

namespace K8sEscapeInjector

def probe_socket : List UInt8 := utf8 "CANARY_K8S_ESCAPE_SOCKET_PROBE: namespace=ferrum-canary pid=1001\n"

def probe_ns : List UInt8 := utf8 "CANARY_HOST_PATH_PROBE: simulated /proc/1/ns/mnt escape check\n"

def len : Metadata → Nat
  | .file len => len
  | _ => 0

def inject (dir : List Char) : Io Report := do
  create_dir_all dir
  Io.of (fs.write (entry_path dir "docker.sock.probe") probe_socket)
  Io.of (fs.write (entry_path dir "k8s_ns_escape.canary") probe_ns)
  let socket ← Io.of (fs.metadata (entry_path dir "docker.sock.probe"))
  let ns ← Io.of (fs.metadata (entry_path dir "k8s_ns_escape.canary"))
  return ⟨2, len socket + len ns⟩

def cleanup (dir : List Char) : Io Unit := cleanup_files dir ["docker.sock.probe", "k8s_ns_escape.canary"]

def new (dir : List Char) : Except InjectError ScenarioInjector := do
  make_injector dir
  return ⟨inject dir, cleanup dir⟩

end K8sEscapeInjector

namespace C2BeaconInjector

def entry (i : Nat) : List UInt8 :=
  utf8 ("T1071_BEACON_EVENT seq=" ++ toString i ++
    " target=beacon-test.c2-emulation.internal:443 proto=HTTPS jitter_ms=25 status=SINKHOLED\n")

def beacons (log : FsPath) : List Nat → Nat → Io Nat
  | [], bytes => return bytes
  | i :: rest, bytes => do
    Io.of (fs.write_all log (entry i))
    beacons log rest (bytes + (entry i).length)

def inject (dir : List Char) (beacon_count : Nat) : Io Report := do
  create_dir_all dir
  let beacon_log := entry_path dir "c2_beacon_events.log"
  Io.of (fs.create beacon_log)
  let bytes ← beacons beacon_log (List.range beacon_count) 0
  return ⟨1, bytes⟩

def cleanup (dir : List Char) : Io Unit := cleanup_files dir ["c2_beacon_events.log"]

/-- `count.clamp(1, 100)`. -/
def beacon_count (count : Nat) : Nat := min (max count 1) 100

def new (dir : List Char) (count : Nat) : Except InjectError ScenarioInjector := do
  make_injector dir
  return ⟨inject dir (beacon_count count), cleanup dir⟩

end C2BeaconInjector

namespace CredentialAccessInjector

def content : List UInt8 :=
  utf8 ("\x7b\n  \"type\": \"HONEYTOKEN_CANARY\",\n  \"account\": \"svc_asmodeus_decoy\",\n" ++
    "  \"access_key\": \"AKIA_CANARY_TEST_DO_NOT_USE_12345\",\n" ++
    "  \"warning\": \"Synthetic trap for detecting unauthorized credential dumping\"\n\x7d\n")

def inject (dir : List Char) : Io Report := do
  create_dir_all dir
  let honeytoken := entry_path dir "honeytoken_credentials.json"
  Io.of (fs.write honeytoken content)
  let _ ← Io.of (fs.read honeytoken)
  return ⟨1, content.length⟩

def cleanup (dir : List Char) : Io Unit := cleanup_files dir ["honeytoken_credentials.json"]

def new (dir : List Char) : Except InjectError ScenarioInjector := do
  make_injector dir
  return ⟨inject dir, cleanup dir⟩

end CredentialAccessInjector

namespace LogTamperInjector

def initial_content : List UInt8 :=
  utf8 "AUDIT_CANARY entry=1 user=admin action=login\nAUDIT_CANARY entry=2 user=admin action=modify_policy\n"

def tampered : List UInt8 := utf8 "[TAMPERED / TRUNCATED CANARY LOG]\n"

def inject (dir : List Char) : Io Report := do
  create_dir_all dir
  let audit_log := entry_path dir "canary_audit.log"
  Io.of (fs.write audit_log initial_content)
  Io.of (fs.write audit_log tampered)
  return ⟨1, initial_content.length + 35⟩

def cleanup (dir : List Char) : Io Unit := cleanup_files dir ["canary_audit.log"]

def new (dir : List Char) : Except InjectError ScenarioInjector := do
  make_injector dir
  return ⟨inject dir, cleanup dir⟩

end LogTamperInjector

namespace PersistenceCronInjector

def cron_content : List UInt8 :=
  utf8 "# Asmodeus Synthetic Persistence Canary Task\n* * * * * root /bin/true # SYNTHETIC_CANARY_PROBE\n"

def inject (dir : List Char) : Io Report := do
  create_dir_all dir
  Io.of (fs.write (entry_path dir "canary_cron_task.job") cron_content)
  return ⟨1, cron_content.length⟩

def cleanup (dir : List Char) : Io Unit := cleanup_files dir ["canary_cron_task.job"]

def new (dir : List Char) : Except InjectError ScenarioInjector := do
  make_injector dir
  return ⟨inject dir, cleanup dir⟩

end PersistenceCronInjector

namespace DataExfiltrationInjector

/-- What `io::copy` takes from the repeated byte. -/
def content (chunk_kb : Nat) : List UInt8 := List.replicate (chunk_kb * 1024) 0xEE

def inject (dir : List Char) (chunk_kb : Nat) : Io Report := do
  create_dir_all dir
  let exfil_file := entry_path dir "staged_canary_data.tar.gz"
  Io.of (fs.create exfil_file)
  Io.of (fs.write_all exfil_file (content chunk_kb))
  return ⟨1, chunk_kb * 1024⟩

def cleanup (dir : List Char) : Io Unit := cleanup_files dir ["staged_canary_data.tar.gz"]

/-- `chunk_kb.clamp(1, 1024)`. -/
def chunk_kb (chunk_kb : Nat) : Nat := min (max chunk_kb 1) 1024

def new (dir : List Char) (kb : Nat) : Except InjectError ScenarioInjector := do
  make_injector dir
  return ⟨inject dir (chunk_kb kb), cleanup dir⟩

end DataExfiltrationInjector

namespace DefenseImpairmentInjector

def marker : List UInt8 := utf8 "WATCHDOG_SIMULATED_INTERRUPT: target=lariska_agent recovery_window=5000ms\n"

def inject (dir : List Char) : Io Report := do
  create_dir_all dir
  Io.of (fs.write (entry_path dir "watchdog_recovery.pulse") marker)
  return ⟨1, marker.length⟩

def cleanup (dir : List Char) : Io Unit := cleanup_files dir ["watchdog_recovery.pulse"]

def new (dir : List Char) : Except InjectError ScenarioInjector := do
  make_injector dir
  return ⟨inject dir, cleanup dir⟩

end DefenseImpairmentInjector

namespace NetChaosInjector

/-- The rule lives in a session of this call, which its end reverts. -/
def inject (dir : List Char) (spec : NetChaosSpec) (apply : Except NetChaosError Nat) : Io Report := do
  create_dir_all dir
  match spec.start apply with
  | .error e => throw (.Io e.display)
  | .ok handle =>
    Io.of (fs.write (entry_path dir "netchaos_session.token") (utf8 ("token=" ++ toString handle.token)))
    return ⟨1, 16⟩

def cleanup (dir : List Char) : Io Unit := cleanup_files dir ["netchaos_session.token"]

def new (dir : List Char) (spec : NetChaosSpec) (apply : Except NetChaosError Nat) :
    Except InjectError ScenarioInjector := do
  make_injector dir
  return ⟨inject dir spec apply, cleanup dir⟩

end NetChaosInjector

def NetChaosSpec.latency_spike_demo : NetChaosSpec := ⟨"lo", "127.0.0.1/32", 2500, 250, 25, 5000⟩

def dns_sinkhole_spec : NetChaosSpec := ⟨"lo", "127.0.0.1/32", 100, 20, 50, 5000⟩

/-- The injector of a scenario. `apply` is the answer of the network backend. -/
def create_injector (apply : Except NetChaosError Nat) (scenario_id : String) (target_dir : List Char)
    (file_count chunk_size_kb : Nat) : Except InjectError ScenarioInjector :=
  if scenario_id = "RANSOMWARE_CANARY_SPIKE" then CanaryInjector.new target_dir file_count chunk_size_kb
  else if scenario_id = "K8S_ESCAPE_SIMULATION" then K8sEscapeInjector.new target_dir
  else if scenario_id = "C2_BEACONING_SIMULATION" then C2BeaconInjector.new target_dir file_count
  else if scenario_id = "CREDENTIAL_ACCESS_CANARY" then CredentialAccessInjector.new target_dir
  else if scenario_id = "LOG_TAMPER_CANARY" then LogTamperInjector.new target_dir
  else if scenario_id = "PERSISTENCE_CRON_CANARY" then PersistenceCronInjector.new target_dir
  else if scenario_id = "DATA_EXFILTRATION_CANARY" then DataExfiltrationInjector.new target_dir chunk_size_kb
  else if scenario_id = "DEFENSE_IMPAIRMENT_CANARY" then DefenseImpairmentInjector.new target_dir
  else if scenario_id = "LATENCY_SPIKE_VM" then NetChaosInjector.new target_dir .latency_spike_demo apply
  else if scenario_id = "AGENT_CRASH_ENDPOINT" then DefenseImpairmentInjector.new target_dir
  else if scenario_id = "DNS_RPZ_SINKHOLE_DROP" then NetChaosInjector.new target_dir dns_sinkhole_spec apply
  else .error (.Io "unsupported scenario/action")

end asmodeus.runner
