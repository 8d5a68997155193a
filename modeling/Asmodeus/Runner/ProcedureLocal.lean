import Asmodeus.Lib.Hex
import Asmodeus.Lib.Json
import Asmodeus.Runner.Host
import Asmodeus.Runner.ProcedureSuite

open FileTree UnixPath
open asmodeus.dsl

namespace asmodeus.runner

def LOCAL_PROCEDURE_ROOT : String := "/tmp/asmodeus-canary/local-procedures"
def LOCAL_PROCEDURE_ADAPTER_VERSION : String := "asmodeus.local-fixture.v1"

/-- The kinds of errors that an attempt makes or looks at. -/
inductive SocketErrorKind
  | Interrupted
  | TimedOut
  | WouldBlock
  | InvalidInput
  | WriteZero
  | UnexpectedEof
  | Other
  deriving DecidableEq

structure SocketError where
  kind : SocketErrorKind
  message : String
  deriving DecidableEq

def SocketError.invalid (message : String) : SocketError := ⟨.InvalidInput, message⟩

structure Ipv4Addr where
  a : UInt8
  b : UInt8
  c : UInt8
  d : UInt8
  deriving DecidableEq

def Ipv4Addr.LOCALHOST : Ipv4Addr := ⟨127, 0, 0, 1⟩

structure SocketAddr where
  ip : Ipv4Addr
  port : UInt16
  deriving DecidableEq

def SocketAddr.to_string (address : SocketAddr) : String :=
  toString address.ip.a.toNat ++ "." ++ toString address.ip.b.toNat ++ "." ++ toString address.ip.c.toNat ++ "." ++
    toString address.ip.d.toNat ++ ":" ++ toString address.port.toNat

/-- A socket of the process. -/
abbrev Fd := Nat

/-- What an attempt asks of the system. Times are in nanoseconds. -/
inductive Syscall
  | unix_ms
  | now
  | load
  | sleep (duration : Nat)
  | tcp_bind (address : SocketAddr)
  | udp_bind (address : SocketAddr)
  | set_nonblocking (fd : Fd)
  | local_addr (fd : Fd)
  | connect_timeout (address : SocketAddr) (timeout : Nat)
  | accept (fd : Fd)
  | write (fd : Fd) (bytes : List UInt8)
  | read (fd : Fd) (len : Nat)
  | send_to (fd : Fd) (bytes : List UInt8) (address : SocketAddr)
  | recv_from (fd : Fd) (len : Nat)
  | file (call : Call Component)

/-- Bytes that fit into a buffer. -/
abbrev Buffer (len : Nat) := { bytes : List UInt8 // bytes.length ≤ len }

/-- The system decides on every reply. No call moves more bytes than it is given. -/
def Syscall.Reply : Syscall → Type
  | .unix_ms | .now => Nat
  | .load => Bool
  | .sleep _ => Unit
  | .tcp_bind _ | .udp_bind _ | .connect_timeout _ _ => Except SocketError Fd
  | .set_nonblocking _ => Except SocketError Unit
  | .local_addr _ => Except SocketError SocketAddr
  | .accept _ => Except SocketError (Fd × SocketAddr)
  | .write _ bytes | .send_to _ bytes _ => Except SocketError (Fin (bytes.length + 1))
  | .read _ len => Except SocketError (Buffer len)
  | .recv_from _ len => Except SocketError (Buffer len × SocketAddr)
  | .file call => call.verb.Reply

abbrev Sys (α : Type) := Program Syscall Syscall.Reply α

/-- File work as it is. -/
def Sys.files {α : Type} (x : Fs α) : Sys α := x.embed .file fun _ => id

/-- How a fixture comes to no result: an error, or its loops were not watched to their end. -/
inductive Failure
  | io (error : SocketError)
  | unfinished
  deriving DecidableEq

/-- The work of a fixture, which keeps the receipts it has when it fails. -/
abbrev Fixture (α : Type) := ExceptT Failure (StateT (List LocalReceipt) (Program Syscall Syscall.Reply)) α

namespace Fixture

def syscall (call : Syscall) : Fixture call.Reply :=
  ExceptT.lift (StateT.lift (Program.call call .done : Program Syscall Syscall.Reply call.Reply))

def unix_ms : Fixture Nat := syscall .unix_ms
def now : Fixture Nat := syscall .now
def load : Fixture Bool := syscall .load
def sleep (duration : Nat) : Fixture Unit := syscall (.sleep duration)
def tcp_bind (address : SocketAddr) : Fixture (Except SocketError Fd) := syscall (.tcp_bind address)
def udp_bind (address : SocketAddr) : Fixture (Except SocketError Fd) := syscall (.udp_bind address)
def set_nonblocking (fd : Fd) : Fixture (Except SocketError Unit) := syscall (.set_nonblocking fd)
def local_addr (fd : Fd) : Fixture (Except SocketError SocketAddr) := syscall (.local_addr fd)
def connect_timeout (address : SocketAddr) (timeout : Nat) : Fixture (Except SocketError Fd) :=
  syscall (.connect_timeout address timeout)
def accept (fd : Fd) : Fixture (Except SocketError (Fd × SocketAddr)) := syscall (.accept fd)
def write (fd : Fd) (bytes : List UInt8) : Fixture (Except SocketError (Fin (bytes.length + 1))) :=
    syscall (.write fd bytes)
def read (fd : Fd) (len : Nat) : Fixture (Except SocketError (Buffer len)) := syscall (.read fd len)
def send_to (fd : Fd) (bytes : List UInt8) (address : SocketAddr) :
    Fixture (Except SocketError (Fin (bytes.length + 1))) :=
  syscall (.send_to fd bytes address)
def recv_from (fd : Fd) (len : Nat) : Fixture (Except SocketError (Buffer len × SocketAddr)) :=
    syscall (.recv_from fd len)

def fail {α : Type} (error : SocketError) : Fixture α := throw (.io error)

/-- The error that a test returns with. -/
def fail_if (condition : Prop) [Decidable condition] (error : SocketError) : Fixture Unit :=
  if condition then fail error else pure ()

/-- The `?` on a result. -/
def of {α : Type} (x : Fixture (Except SocketError α)) : Fixture α := do
  match ← x with
  | .ok a => return a
  | .error error => fail error

def push (receipt : LocalReceipt) : Fixture Unit := modify fun receipts => receipts ++ [receipt]

end Fixture

def ms (n : Nat) : Nat := n * 1000000

structure Guard where
  started : Nat
  deadline : Nat

namespace Guard

variable (guard : Guard)

def check : Fixture Unit := do
  Fixture.fail_if ((← Fixture.load) = true) ⟨.Interrupted, "cancelled by local kill switch"⟩
  Fixture.fail_if (guard.deadline ≤ (← Fixture.now)) ⟨.TimedOut, "local fixture timeout"⟩

/-- The loop of `pause`. -/
def pause_until (until_ : Nat) : Nat → Fixture Unit
  | 0 => throw .unfinished
  | fuel + 1 => do
    if (← Fixture.now) < until_ then
      guard.check
      Fixture.sleep (min (ms 1) (until_ - (← Fixture.now)))
      pause_until until_ fuel
    else
      guard.check

def pause (fuel duration : Nat) : Fixture Unit := do
  let until_ := (← Fixture.now) + duration
  guard.pause_until until_ fuel

def retry {α : Type} (operation : Fixture (Except SocketError α)) : Nat → Fixture α
  | 0 => throw .unfinished
  | fuel + 1 => do
    guard.check
    match ← operation with
    | .ok a => return a
    | .error error =>
      if error.kind = .WouldBlock ∨ error.kind = .TimedOut then
        guard.pause fuel (ms 1)
        retry operation fuel
      else Fixture.fail error

/-- `guard.started.elapsed().as_millis()`. -/
def elapsed_ms : Fixture UInt64 := do
  return UInt64.ofNat (((← Fixture.now) - guard.started) / ms 1)

end Guard

/-- Write what is left of the bytes. -/
def write_bounded (guard : Guard) (fd : Fd) (bytes : List UInt8) : Nat → Fixture Unit
  | 0 => throw .unfinished
  | fuel + 1 =>
    if bytes = [] then return ()
    else do
      let count ← guard.retry (Fixture.write fd bytes) (fuel + 1)
      Fixture.fail_if (count.val = 0) ⟨.WriteZero, "fixture write closed"⟩
      write_bounded guard fd (bytes.drop count.val) fuel

/-- Read as many bytes as are asked for. -/
def read_bounded (guard : Guard) (fd : Fd) (len : Nat) : Nat → Fixture (List UInt8)
  | 0 => throw .unfinished
  | fuel + 1 =>
    if len = 0 then return []
    else do
      let buffer ← guard.retry (Fixture.read fd len) (fuel + 1)
      Fixture.fail_if (buffer.val.length = 0) ⟨.UnexpectedEof, "fixture read closed"⟩
      let rest ← read_bounded guard fd (len - buffer.val.length) fuel
      return buffer.val ++ rest

section

-- The digest that `sha256` spells out.
variable (digest : List UInt8 → List UInt8)

def sha256 (bytes : List UInt8) : String := String.ofList (Hex.encode (digest bytes))

/-- The path, the body and the payload kind of a request. -/
def tcp_payload (beacon positive : Bool) (index : Nat) : String × List UInt8 × String :=
  match beacon, positive with
  | true, true => ("/beacon", utf8 ("synthetic-beacon-" ++ toString index), "beacon")
  | false, true => ("/canary", List.replicate 3072 67, "synthetic_canary")
  | _, false => ("/health", utf8 "healthy", "health_status")

def tcp_request (receiver : SocketAddr) (attempt_id : String) (path : String) (body : List UInt8) : List UInt8 :=
  utf8 ("POST " ++ path ++ " HTTP/1.1\r\nHost: " ++ receiver.to_string ++ "\r\nX-Asmodeus-Attempt: " ++ attempt_id ++
    "\r\nContent-Length: " ++ toString body.length ++ "\r\nConnection: close\r\n\r\n") ++ body

def TCP_RESPONSE : List UInt8 := utf8 "HTTP/1.1 200 OK\r\nContent-Length: 2\r\nConnection: close\r\n\r\nOK"

def LocalProcedureConfig.positive (config : LocalProcedureConfig) : Bool := decide (config.variant = .Positive)

def LocalProcedureConfig.beacon (config : LocalProcedureConfig) : Bool := decide (config.procedure_id = "http-beacon")

section

variable (config : LocalProcedureConfig) (guard : Guard) (fuel : Nat)

/-- One request over a new connection, and its response. -/
def tcp_exchange (listener : Fd) (receiver : SocketAddr) (index : Nat) : Fixture Unit := do
  guard.check
  let (path, body, payload_kind) := tcp_payload config.beacon config.positive index
  let request := tcp_request receiver config.attempt_id path body
  let used := ((← get).map LocalReceipt.bytes).sum
  Fixture.fail_if (4096 < request.length ∨ 4096 < used + request.length) (.invalid "fixture byte budget exceeded")
  let sender ← .of (.connect_timeout receiver (max (min (ms 10) (guard.deadline - (← Fixture.now))) 1000))
  Fixture.of (.set_nonblocking sender)
  let source ← .of (.local_addr sender)
  let (accepted, peer) ← guard.retry (.accept listener) fuel
  Fixture.of (.set_nonblocking accepted)
  Fixture.fail_if (peer ≠ source) (.invalid "unexpected connection to owned receiver")
  write_bounded guard sender request fuel
  let actual ← read_bounded guard accepted request.length fuel
  Fixture.fail_if (actual ≠ request) (.invalid "HTTP fixture payload mismatch")
  Fixture.push ⟨"http", receiver.to_string, ← guard.elapsed_ms, actual.length, sha256 digest actual, payload_kind⟩
  write_bounded guard accepted TCP_RESPONSE fuel
  let received_response ← read_bounded guard sender TCP_RESPONSE.length fuel
  Fixture.fail_if (received_response ≠ TCP_RESPONSE) (.invalid "HTTP fixture response mismatch")

/-- The exchanges one after the other, with a pause between two. -/
def exchanges (exchange : Nat → Fixture Unit) (count : Nat) : List Nat → Fixture Unit
  | [] => return ()
  | index :: rest => do
    exchange index
    (if index + 1 < count then guard.pause fuel (ms 50) else pure ())
    exchanges exchange count rest

def tcp_count : Nat := if config.beacon && config.positive then 4 else 1

def tcp_fixture : Fixture Bool := do
  guard.check
  let listener ← .of (.tcp_bind ⟨.LOCALHOST, 0⟩)
  Fixture.of (.set_nonblocking listener)
  let receiver ← .of (.local_addr listener)
  let count := tcp_count config
  exchanges guard fuel (tcp_exchange digest config guard fuel listener receiver) count (List.range count)
  guard.check
  return true

/-- A label of a name, after its length. -/
def dns_label (label : List UInt8) : List UInt8 := UInt8.ofNat label.length :: label

def dns_query (index : Nat) (positive : Bool) (attempt_id : String) : List UInt8 :=
  let label := if positive then "beacon" ++ toString index else "health"
  let token := sha256 digest (utf8 attempt_id)
  [0xa5, UInt8.ofNat index, 0x01, 0, 0, 1, 0, 0, 0, 0, 0, 0] ++
    [utf8 label, (utf8 token).take 16, utf8 "fixture", utf8 "test"].flatMap dns_label ++ [0, 0, 1, 0, 1]

/-- The query with the flags of an answer without records. -/
def dns_response (packet : List UInt8) : List UInt8 := (packet.set 2 0x81).set 3 0x00

def dns_payload_kind (positive : Bool) : String := if positive then "synthetic_dns_pattern" else "service_lookup"

/-- One query and its response. -/
def dns_exchange (receiver sender : Fd) (address source : SocketAddr) (index : Nat) : Fixture Unit := do
  let packet := dns_query digest index config.positive config.attempt_id
  let sent ← guard.retry (.send_to sender packet address) fuel
  Fixture.fail_if (sent.val ≠ packet.length) (.invalid "partial DNS query")
  let (buffer, peer) ← guard.retry (.recv_from receiver 4096) fuel
  Fixture.fail_if (peer ≠ source ∨ buffer.val ≠ packet) (.invalid "unexpected DNS query at owned receiver")
  Fixture.push ⟨"dns", address.to_string, ← guard.elapsed_ms, buffer.val.length, sha256 digest buffer.val,
    dns_payload_kind config.positive⟩
  let response := dns_response packet
  let _ ← guard.retry (.send_to receiver response source) fuel
  let (buffer, peer) ← guard.retry (.recv_from sender 4096) fuel
  Fixture.fail_if (peer ≠ address ∨ buffer.val ≠ response) (.invalid "DNS fixture response mismatch")

def dns_count : Nat := if config.positive then 4 else 1

def dns_fixture : Fixture Bool := do
  guard.check
  let receiver ← .of (.udp_bind ⟨.LOCALHOST, 0⟩)
  let sender ← .of (.udp_bind ⟨.LOCALHOST, 0⟩)
  Fixture.of (.set_nonblocking receiver)
  Fixture.of (.set_nonblocking sender)
  let address ← .of (.local_addr receiver)
  let source ← .of (.local_addr sender)
  let count := dns_count config
  exchanges guard fuel (dns_exchange digest config guard fuel receiver sender address source) count (List.range count)
  guard.check
  return true

/-- The fixture of the slot, if it has one. -/
def local_fixture : Fixture Bool := do
  guard.check
  if config.procedure_id = "http-beacon" ∨ config.procedure_id = "synthetic-transfer" then
    tcp_fixture digest config guard fuel
  else if config.procedure_id = "dns-pattern" then dns_fixture digest config guard fuel
  else return false

end

/-- The directory of an attempt. -/
def Sandbox.allocate (target run_id : String) : Sys (Except String Sandbox) :=
  match Sandbox.create target run_id fun _ => .ok () with
  | .error e => .done (.error e)
  | .ok sandbox => do
    let made ← Sys.files (make_sandbox (components sandbox.path) (below_scope (components target.toList)))
    return made.map fun _ => sandbox

def variant_name : ProcedureVariantKind → String
  | .Positive => "positive"
  | .BenignControl => "benign_control"

/-- The reservation as the ledger gets it. -/
def ownership_json (config : LocalProcedureConfig) (sandbox : Sandbox) (started_unix_ms : Nat) : List UInt8 :=
  Utf8.encode (Json.render Json.compact 0 (.obj [
    ("adapter_version", .str LOCAL_PROCEDURE_ADAPTER_VERSION),
    ("attempt_id", .str config.attempt_id),
    ("crash_cleanup", .str "NOT_VERIFIED"),
    ("ephemeral_directory", .str (String.ofList sandbox.path)),
    ("note", .str ("Immutable reservation retained after normal cleanup; not execution or protection evidence.")),
    ("procedure_id", .str config.procedure_id),
    ("started_unix_ms", .num started_unix_ms),
    ("state", .str "RESERVED"),
    ("variant", .str (variant_name config.variant))]))

def ownership_record (root attempt_id : String) : FsPath :=
  components (join root.toList (attempt_id ++ ".ownership.json").toList)

/-- The `?` on a file call of an attempt. -/
def Sys.of (x : Fs (Except Errno Unit)) : ExceptT String (Program Syscall Syscall.Reply) Unit :=
  ExceptT.mk (Sys.files x >>= fun result => .done (result.mapError errno_display))

/-- Reserve the attempt id for good. -/
def reserve (root : String) (config : LocalProcedureConfig) (sandbox : Sandbox) (started_unix_ms : Nat) :
    ExceptT String (Program Syscall Syscall.Reply) Unit := do
  let ledger := ownership_record root config.attempt_id
  Sys.of (.call ⟨ledger, .create_new⟩ .done)
  Sys.of (.call ⟨ledger, .write_all (ownership_json config sandbox started_unix_ms)⟩ .done)
  Sys.of (.call ⟨ledger, .write_all (utf8 "\n")⟩ .done)
  Sys.of (.call ⟨ledger, .sync_all⟩ .done)

/-- The status and the detail that an outcome of the fixture comes to. -/
def LocalAttemptStatus.of_outcome : Except SocketError Bool → LocalAttemptStatus × String
  | .ok true => (.Executed,
      "Completed selected positive/benign local fixture variant; receipts prove only local fixture traffic.")
  | .ok false => (.Unsupported,
      "No local adapter for this slot; no socket, shell, runtime or container action performed.")
  | .error error => (if error.kind = .Interrupted then .Cancelled else .Failed, error.message)

/-- Remove the directory and look for it. What is left decides on the evidence. -/
def verify_cleanup (debug : Except String Unit → String) (sandbox : Sandbox) (evidence : LocalProcedureAttempt) :
    Sys LocalProcedureAttempt := do
  let result ← Sys.files sandbox.cleanup
  let present ← match result with
    | .ok () => Sys.files (fs.path_exists (components sandbox.path))
    | .error _ => pure true
  if present then
    return { evidence with
      status := .Failed
      cleanup := ⟨"FAILED", "Ephemeral directory cleanup not verified: " ++ debug result, "NOT_VERIFIED"⟩ }
  else
    return { evidence with
      cleanup := ⟨"VERIFIED", "Owned sockets closed and ephemeral attempt directory absent; " ++
        "immutable ownership record retained for reuse rejection.", "NOT_VERIFIED"⟩ }

/-- An attempt in its directory, from the reservation to the evidence. -/
def attempt_in (debug : Except String Unit → String) (fuel : Nat) (config : LocalProcedureConfig) (root : String)
    (guard : Guard) (started_unix_ms : Nat) (sandbox : Sandbox) : Sys (Except Failure LocalProcedureAttempt) := do
  match ← (reserve root config sandbox started_unix_ms).run with
  | .error e => return .error (.io ⟨.Other, e⟩)
  | .ok () =>
    let (outcome, receipts) ← (local_fixture digest config guard fuel).run.run []
    let finish (outcome : Except SocketError Bool) : Sys (Except Failure LocalProcedureAttempt) := do
      let (status, detail) := LocalAttemptStatus.of_outcome outcome
      let evidence ← verify_cleanup debug sandbox ⟨status, receipts, ⟨"NOT_VERIFIED", "", "NOT_VERIFIED"⟩, detail⟩
      return .ok evidence
    match outcome with
    | .error .unfinished => return .error .unfinished
    | .error (.io error) => finish (.error error)
    | .ok supported => finish (.ok supported)

def run_in_root (debug : Except String Unit → String) (fuel : Nat) (config : LocalProcedureConfig) (root : String) :
    Sys (Except Failure LocalProcedureAttempt) := do
  if config.timeout_ms = 0 ∨ 10000 < config.timeout_ms then
    return .error (.io (.invalid "timeout_ms must be within 1..=10000"))
  match procedure_corpus.procedures.find? fun p => decide (p.id = config.procedure_id) with
  | none => return .error (.io (.invalid "unknown fixed procedure slot"))
  | some _ =>
    let started_unix_ms ← (.call .unix_ms .done : Sys Nat)
    let started ← (.call .now .done : Sys Nat)
    let guard : Guard := ⟨started, started + ms config.timeout_ms.toNat⟩
    match ← Sandbox.allocate root config.attempt_id with
    | .error e => return .error (.io ⟨.Other, e⟩)
    | .ok sandbox =>
      let result ← attempt_in digest debug fuel config root guard started_unix_ms sandbox
      match result with
      | .error .unfinished => return result
      | _ =>
        -- The sandbox is dropped on the way out.
        let _ ← Sys.files sandbox.cleanup
        return result

def run_local_procedure (debug : Except String Unit → String) (fuel : Nat) (config : LocalProcedureConfig) :
    Sys (Except Failure LocalProcedureAttempt) :=
  run_in_root digest debug fuel config LOCAL_PROCEDURE_ROOT

end

end asmodeus.runner
