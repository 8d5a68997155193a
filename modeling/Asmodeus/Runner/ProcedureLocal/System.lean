import Asmodeus.Runner.Host.Isolation
import Asmodeus.Runner.ProcedureLocal.Attempts

open FileTree UnixPath
open asmodeus.dsl

namespace asmodeus.runner

/-- What the system decides on by itself: the answers that no file gives, and how a file call fails. -/
structure Answers where
  answer : (call : Syscall) → call.Reply
  fault : Option (Fault Component)

/-- A call against the file tree. -/
def Syscall.exec (follow : Option (FsTree Component) → FsPath → FsPath) (answers : Answers)
    (t : Option (FsTree Component)) :
    (call : Syscall) → call.Reply × Option (FsTree Component)
  | .file call => call.exec follow answers.fault t
  | call => (answers.answer call, t)

/-- An attempt: what is left of it, and the calls it has made. -/
structure AttemptRun where
  config : LocalProcedureConfig
  rest : Sys (Except Failure LocalProcedureAttempt)
  events : List Event

/-- One call. -/
def AttemptRun.move (follow : Option (FsTree Component) → FsPath → FsPath) (run : AttemptRun) (answers : Answers)
    (t : Option (FsTree Component)) : Option (AttemptRun × Option (FsTree Component)) :=
  match run.rest with
  | .done _ => none
  | .call call next =>
    let reply := (call.exec follow answers t).1
    some (⟨run.config, next reply, run.events ++ [⟨call, reply⟩]⟩, (call.exec follow answers t).2)

/-- Attempts in one root, in processes that may stop for good anywhere. -/
abbrev AttemptPool := Pool (Option (FsTree Component)) AttemptRun

def AttemptPool.start (digest : List UInt8 → List UInt8) (debug : Except String Unit → String) (fuel : Nat)
    (root : String)
    (t : Option (FsTree Component)) (configs : List LocalProcedureConfig) : AttemptPool :=
  ⟨t, configs.map fun config => ⟨config, run_in_root digest debug fuel config root, []⟩⟩

def AttemptPool.step (follow : Option (FsTree Component) → FsPath → FsPath) (pool : AttemptPool)
    (label : Nat × Answers) :
    Option AttemptPool :=
  Pool.step (AttemptRun.move follow) pool label

/-- The attempt keeps the law, and what it has left to do will. -/
structure Conforms (digest : List UInt8 → List UInt8) (root : String) (run : AttemptRun) : Prop where
  rest : Traced (Lawful root run.config) run.rest
    (fun result events => ∀ evidence, result = .ok evidence → Honest digest root run.config evidence events) run.events
  lawful : ∀ before event after, run.events = before ++ event :: after → Lawful root run.config before event.call

/-- The network address that a call is for. -/
def Syscall.destination : Syscall → Option SocketAddr
  | .tcp_bind address | .udp_bind address | .connect_timeout address _ | .send_to _ _ address => some address
  | _ => none

/-- What the attempt has returned. -/
def AttemptRun.evidence (run : AttemptRun) : Option LocalProcedureAttempt :=
  match run.rest with
  | .done (.ok evidence) => some evidence
  | _ => none

def Ipv4Addr.is_loopback (ip : Ipv4Addr) : Bool := decide (ip.a = 127)

section

variable {follow : Option (FsTree Component) → FsPath → FsPath} {digest : List UInt8 → List UInt8}
  {debug : Except String Unit → String} {fuel : Nat} {root : String} {t t' t₀ : Option (FsTree Component)}
  {configs : List LocalProcedureConfig} {run run' : AttemptRun} {answers : Answers} {pool next : AttemptPool}
  {labels : List (Nat × Answers)} {i : Nat}

/-- What one move does. -/
theorem AttemptRun.move_cases (h : run.move follow answers t = some (run', t')) : ∃ (call : Syscall) (next : _),
    run.rest = .call call next ∧ run' = ⟨run.config, next (call.exec follow answers t).1,
      run.events ++ [⟨call, (call.exec follow answers t).1⟩]⟩ ∧ t' = (call.exec follow answers t).2 := by
  obtain ⟨config, rest, events⟩ := run
  cases rest with
  | done result => cases h
  | call call next =>
    obtain ⟨rfl, rfl⟩ := Prod.mk.inj (Option.some.inj h)
    exact ⟨call, next, rfl, rfl, rfl⟩

theorem Conforms.start (digest : List UInt8 → List UInt8) (debug : Except String Unit → String) (fuel : Nat)
    (root : String)
    (config : LocalProcedureConfig) : Conforms digest root ⟨config, run_in_root digest debug fuel config root, []⟩ :=
  ⟨run_in_root_traced digest debug fuel config root, fun before event after h => by simp at h⟩

/-- The next call is lawful, and the law is kept on. -/
theorem Conforms.call (h : Conforms digest root run) {call : Syscall}
    {next : call.Reply → Sys (Except Failure LocalProcedureAttempt)}
    (hrest : run.rest = .call call next) (follow : Option (FsTree Component) → FsPath → FsPath) (answers : Answers)
    (t : Option (FsTree Component)) : Lawful root run.config run.events call ∧
      Conforms digest root ⟨run.config, next (call.exec follow answers t).1, run.events ++
        [⟨call, (call.exec follow answers t).1⟩]⟩ := by
  have htraced := h.rest
  rw [hrest] at htraced
  obtain ⟨hlaw, hnext⟩ := htraced.step fun call => (call.exec follow answers t).1
  refine ⟨hlaw, hnext, fun before event after hevents => ?_⟩
  rcases List.eq_nil_or_concat after with rfl | ⟨front, last, rfl⟩
  · obtain ⟨rfl, hlast⟩ := List.append_inj' hevents rfl
    obtain rfl := List.singleton_inj.mp hlast
    exact hlaw
  · rw [List.concat_eq_append, ← List.cons_append, ← List.append_assoc] at hevents
    obtain ⟨hfront, -⟩ := List.append_inj' hevents rfl
    exact h.lawful before event front hfront

theorem conforms_start (i : Nat) (run : AttemptRun)
    (hpart : (AttemptPool.start digest debug fuel root t₀ configs).parts[i]? = some run) :
      Conforms digest root run := by
  rw [AttemptPool.start, List.getElem?_map, Option.map_eq_some_iff] at hpart
  obtain ⟨config, -, rfl⟩ := hpart
  exact .start digest debug fuel root config

theorem conforms_step {label : Nat × Answers}
    (hkept : ∀ (i : Nat) run, pool.parts[i]? = some run → Conforms digest root run)
    (hstep : AttemptPool.step follow pool label = some next) :
    ∀ (i : Nat) run, next.parts[i]? = some run → Conforms digest root run := by
  obtain ⟨moved, moved', shared, hmoved, hmove, rfl⟩ := Pool.step_cases hstep
  obtain ⟨call, rest, hrest, rfl, -⟩ := AttemptRun.move_cases hmove
  intro j run hpart
  obtain ⟨rfl, rfl⟩ | ⟨-, hpart⟩ := Pool.set_cases hmoved hpart
  · exact ((hkept label.1 moved hmoved).call hrest follow label.2 pool.shared).2
  · exact hkept j run hpart

theorem attempts_kept (hrun : Transition.run (AttemptPool.step follow) (.start digest debug fuel root t₀ configs)
    labels = some pool) :
    ∀ (i : Nat) run, pool.parts[i]? = some run → Conforms digest root run := by
  have hpreserved : Transition.Preserved (AttemptPool.step follow) fun pool =>
      ∀ (i : Nat) run, pool.parts[i]? = some run → Conforms digest root run :=
    fun _ _ _ hkept hstep => conforms_step hkept hstep
  exact hpreserved.run conforms_start hrun

/-- An attempt stays the one that was asked for. -/
theorem attempts_config (hrun : Transition.run (AttemptPool.step follow)
    (.start digest debug fuel root t₀ configs) labels = some pool)
    (hpart : pool.parts[i]? = some run) : configs[i]? = some run.config := by
  have hpreserved : Transition.Preserved (AttemptPool.step follow) fun pool =>
    pool.parts.map AttemptRun.config = configs := by
    rintro pool ⟨i, answers⟩ next hconfigs hstep
    obtain ⟨moved, moved', shared, hmoved, hmove, rfl⟩ := Pool.step_cases hstep
    obtain ⟨call, rest, hrest, rfl, -⟩ := AttemptRun.move_cases hmove
    have hconfig : (pool.parts.map AttemptRun.config)[i]? = some moved.config := by
      rw [List.getElem?_map, hmoved]
      rfl
    obtain ⟨hlt, heq⟩ := List.getElem?_eq_some_iff.mp hconfig
    dsimp only
    rw [List.map_set, ← heq, List.set_getElem_self, hconfigs]
  have hstart : (AttemptPool.start digest debug fuel root t₀ configs).parts.map AttemptRun.config = configs := by
    rw [AttemptPool.start, List.map_map]
    exact List.map_id configs
  rw [← hpreserved.run hstart hrun, List.getElem?_map, hpart]
  rfl

theorem AttemptRun.evidence_eq_some {evidence : LocalProcedureAttempt} (h : run.evidence = some evidence) :
    run.rest = .done (.ok evidence) := by
  obtain ⟨config, rest, events⟩ := run
  cases rest with
  | done result =>
    cases result with
    | ok found =>
      obtain rfl : found = evidence := Option.some.inj h
      rfl
    | error e => cases h
  | call call next => cases h

theorem Conforms.honest {evidence : LocalProcedureAttempt} (h : Conforms digest root run)
    (hevidence : run.evidence = some evidence) :
    Honest digest root run.config evidence run.events := by
  have hrest := h.rest
  rw [AttemptRun.evidence_eq_some hevidence] at hrest
  exact hrest run.events rfl evidence rfl

/-- Sockets bound to the loopback device have loopback addresses. -/
def Loopback (events : List Event) : Prop :=
  ∀ fd address, Bound fd events → ⟨.local_addr fd, Except.ok address⟩ ∈ events → address.ip.is_loopback = true

/-- What a lawful call is for lies on the loopback device. -/
theorem Lawful.loopback {config : LocalProcedureConfig} {before : List Event} {call : Syscall} {address : SocketAddr}
    (h : Lawful root config before call) (hloopback : Loopback before)
    (hdestination : call.destination = some address) :
    address.ip.is_loopback = true := by
  cases h with
  | clock hclock => cases call <;> cases hclock <;> cases hdestination
  | file => cases hdestination
  | socket hsupported hreserved hstarted hlaw =>
    cases hlaw with
    | tcp_bind | udp_bind =>
      obtain rfl := Option.some.inj hdestination
      rfl
    | connect_timeout hheard _ _ =>
      obtain rfl := Option.some.inj hdestination
      obtain ⟨fd, hbound, hmem⟩ := hheard
      exact hloopback fd _ hbound hmem
    | send_to hbound hheard harmed =>
      obtain rfl := Option.some.inj hdestination
      obtain ⟨fd, hbound, hmem⟩ := hheard
      exact hloopback fd _ hbound hmem
    | _ => cases hdestination

/-- However many attempts there are, however the system answers them and wherever they stop, each asks
for what the law lets it: sockets after its own reservation alone and for supported slots, of its own
and connected to its own, each call that may wait after a check of the flag and the deadline that has
passed, with no more than a look at the clock between. As long as the system gives loopback
sockets loopback addresses, nothing is for another device. -/
theorem attempts_lawful (hrun : Transition.run (AttemptPool.step follow)
    (.start digest debug fuel root t₀ configs) labels = some pool)
    (hpart : pool.parts[i]? = some run) : configs[i]? = some run.config ∧
    ∀ before event after, run.events = before ++ event :: after → Lawful root run.config before event.call ∧
      (Loopback before → ∀ address, event.call.destination = some address → address.ip.is_loopback = true) := by
  refine ⟨attempts_config hrun hpart, fun before event after hevents => ?_⟩
  have hlaw := (attempts_kept hrun i run hpart).lawful before event after hevents
  exact ⟨hlaw, fun hloopback address hdestination => hlaw.loopback hloopback hdestination⟩

/-- A system that is never busy, where what was sent has arrived. -/
def Answers.prompt (request : List UInt8) : Answers where
  fault := none
  answer
    | .unix_ms | .now => (0 : Nat)
    | .load => false
    | .sleep _ => ()
    | .tcp_bind _ | .udp_bind _ => .ok 3
    | .set_nonblocking _ => .ok ()
    | .local_addr fd => .ok ⟨.LOCALHOST, UInt16.ofNat (40000 + fd)⟩
    | .connect_timeout _ _ => .ok 4
    | .accept _ => .ok (5, ⟨.LOCALHOST, 40004⟩)
    | .write _ bytes | .send_to _ bytes _ => .ok (Fin.last bytes.length)
    | .read fd len => .ok ⟨(if fd = 5 then request else TCP_RESPONSE).take len, List.length_take_le _ _⟩
    | .recv_from _ _ => .error (.invalid "no datagram")
    | .file call => (call.exec (fun _ path => path) none none).1

def control_config : LocalProcedureConfig := ⟨"http-beacon", "control-3-benign", .BenignControl, 2000⟩

def control_request : List UInt8 :=
  tcp_request ⟨.LOCALHOST, 40003⟩ control_config.attempt_id "/health" (utf8 "healthy")

/-- Attempts at the benign control of one slot, in the order of the turns. -/
def control_attempts (n : Nat) (turns : List Nat) : Option AttemptPool :=
  Transition.run (AttemptPool.step fun _ path => path)
    (.start (fun _ => []) (fun _ => "") 4 LOCAL_PROCEDURE_ROOT bare_host (List.replicate n control_config))
    (turns.map fun i => (i, .prompt control_request))

theorem control_lawful : ∃ pool run, control_attempts 1 (List.replicate 46 0) = some pool ∧ pool.parts[0]? = some run ∧
    ∀ before event after, run.events = before ++ event :: after →
      Lawful LOCAL_PROCEDURE_ROOT run.config before event.call := by
  have hruns : ((control_attempts 1 (List.replicate 46 0)).bind fun pool => pool.parts[0]?).isSome = true := by
    decide +kernel
  obtain ⟨run, hrun⟩ := Option.isSome_iff_exists.mp hruns
  obtain ⟨pool, hpool, hpart⟩ := Option.bind_eq_some_iff.mp hrun
  obtain ⟨-, hlawful⟩ := attempts_lawful hpool hpart
  exact ⟨pool, run, hpool, hpart, fun before event after hevents => (hlawful before event after hevents).1⟩

theorem local_plan_ne_nil {config : LocalProcedureConfig} (h : config.supported = true) (receiver : SocketAddr) :
    local_plan digest config receiver ≠ [] := by
  have hmap {item : Nat → PlannedReceipt} {count : Nat} (hcount : count ≠ 0) : (List.range count).map item ≠ [] := by
    simpa using hcount
  simp only [LocalProcedureConfig.supported, Bool.or_eq_true, decide_eq_true_eq] at h
  unfold local_plan
  split
  · exact hmap (by unfold tcp_count; split <;> omega)
  · rename_i htcp
    rw [if_pos (h.resolve_left htcp)]
    exact hmap (by unfold dns_count; split <;> omega)

/-- To the suite, an attempt is complete just where it was executed. -/
theorem Honest.complete {config : LocalProcedureConfig} {evidence : LocalProcedureAttempt} {events : List Event}
    (h : Honest digest root config evidence events) : complete evidence = true ↔ evidence.status = .Executed := by
  unfold asmodeus.runner.complete
  simp only [Bool.and_eq_true, decide_eq_true_eq, Bool.not_eq_true', List.isEmpty_eq_false_iff]
  refine ⟨fun hcomplete => hcomplete.1.1, fun hexecuted => ⟨⟨hexecuted, ?_⟩, ?_⟩⟩
  · obtain ⟨hverified, -⟩ | ⟨-, hfailed⟩ := h.cleanup
    · exact hverified
    · rw [hexecuted] at hfailed
      cases hfailed
  · obtain ⟨hsupported, receiver, hplanned⟩ := h.executed hexecuted
    rintro hnil
    rw [hnil] at hplanned
    exact local_plan_ne_nil hsupported receiver hplanned.symm

/-- Whatever the sockets, the clock and the file system answer, and whenever the flag is set, the
evidence that an attempt returns is honest. Its receipts are those of the first requests of its plan, each for bytes
that have come in from its own sender at its own receiver, all of them where it counts as executed,
and the directory was seen to be gone unless it counts as failed. -/
theorem attempts_honest (hrun : Transition.run (AttemptPool.step follow)
    (.start digest debug fuel root t₀ configs) labels = some pool)
    (hpart : pool.parts[i]? = some run) {evidence : LocalProcedureAttempt} (hevidence : run.evidence = some evidence) :
    configs[i]? = some run.config ∧ Honest digest root run.config evidence run.events ∧
      (complete evidence = true ↔ evidence.status = .Executed) := by
  have hhonest := (attempts_kept hrun i run hpart).honest hevidence
  exact ⟨attempts_config hrun hpart, hhonest, hhonest.complete⟩

theorem control_honest : ∃ pool run evidence, control_attempts 1 (List.replicate 46 0) = some pool ∧
    pool.parts[0]? = some run ∧ run.evidence = some evidence ∧ evidence.status = .Executed ∧
      Honest (fun _ => []) LOCAL_PROCEDURE_ROOT run.config evidence run.events := by
  have hended : ((control_attempts 1 (List.replicate 46 0)).bind fun pool => pool.parts[0]?.bind fun run =>
      run.evidence.map fun evidence => evidence.status) = some .Executed := by decide +kernel
  obtain ⟨pool, hpool, hparts⟩ := Option.bind_eq_some_iff.mp hended
  obtain ⟨run, hpart, hstatuses⟩ := Option.bind_eq_some_iff.mp hparts
  obtain ⟨evidence, hevidence, hstatus⟩ := Option.map_eq_some_iff.mp hstatuses
  obtain ⟨-, hhonest, -⟩ := attempts_honest hpool hpart hevidence
  exact ⟨pool, run, evidence, hpool, hpart, hevidence, hstatus, hhonest⟩

end

end asmodeus.runner
