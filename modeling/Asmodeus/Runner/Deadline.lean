import Asmodeus.Runner.Report

open asmodeus.dsl
open asmodeus.control_plane (EventKind RunnerEvent)

namespace asmodeus.runner

variable {w : Worker} {r : Reading} {o : Outcome}

/-- What no statement after the first one changes. -/
structure Fixed (w w' : Worker) : Prop where
  req : w'.req = w.req
  plan : w'.plan = w.plan
  start : w'.start = w.start
  started : w'.pc ≠ .starting

/-- A statement that does not touch the shared state string either. -/
structure Local (w w' : Worker) : Prop extends Fixed w w' where
  state : w'.state = w.state

theorem local_passed (w : Worker) (point : CheckPoint) : Local w (w.passed point) := by
  cases point with
  | entry =>
    unfold Worker.passed
    dsimp only
    split <;> exact ⟨⟨rfl, rfl, rfl, Pc.noConfusion⟩, rfl⟩
  | dwell_end d => cases d <;> exact ⟨⟨rfl, rfl, rfl, Pc.noConfusion⟩, rfl⟩
  | _ => exact ⟨⟨rfl, rfl, rfl, Pc.noConfusion⟩, rfl⟩

theorem local_stopped (w : Worker) (e : InjectError) (point : CheckPoint) : Local w (w.stopped e point) := by
  cases point with
  | dwell d stop => cases d <;> exact ⟨⟨rfl, rfl, rfl, Pc.noConfusion⟩, rfl⟩
  | dwell_end d => cases d <;> exact ⟨⟨rfl, rfl, rfl, Pc.noConfusion⟩, rfl⟩
  | _ => exact ⟨⟨rfl, rfl, rfl, Pc.noConfusion⟩, rfl⟩

theorem local_next_file (w : Worker) (i bytes : Nat) (r : Reading) : Local w (w.next_file i bytes r) := by
  unfold Worker.next_file
  split <;> exact ⟨⟨rfl, rfl, rfl, Pc.noConfusion⟩, rfl⟩

theorem revert_local (w : Worker) (o : Outcome) (pc : Pc) (hpc : pc ≠ .starting) :
    Local w { w.revert o with pc := pc } := by
  unfold Worker.revert
  split
  · exact ⟨⟨rfl, rfl, rfl, hpc⟩, rfl⟩
  · split <;> exact ⟨⟨rfl, rfl, rfl, hpc⟩, rfl⟩

theorem clean_injector_local (w : Worker) (o : Outcome) (pc : Pc) (hpc : pc ≠ .starting) :
    Local w { w.clean_injector o with pc := pc } := by
  unfold Worker.clean_injector
  split <;> exact ⟨⟨rfl, rfl, rfl, hpc⟩, rfl⟩

/-- The statements that set the shared state string. -/
def Pc.announces : Pc → Bool
  | .starting | .arming | .injecting | .leaving _ | .settling _ => true
  | _ => false

theorem local_step (hsilent : w.pc.announces = false) : Local w (w.step r o) := by
  have hstarted : w.pc ≠ .starting := by
    rintro hpc
    rw [hpc] at hsilent
    cases hsilent
  cases hpc : w.pc with
  | starting | arming | injecting | leaving | settling =>
    rw [hpc] at hsilent
    cases hsilent
  | checking point =>
    unfold Worker.step
    rw [hpc]
    dsimp only
    split
    · exact ⟨⟨rfl, rfl, rfl, hstarted⟩, rfl⟩
    · exact local_passed w point
    · exact local_stopped w _ point
  | reverting waited =>
    unfold Worker.step
    rw [hpc]
    dsimp only
    split <;> exact revert_local w o _ Pc.noConfusion
  | cleaning waited injected =>
    unfold Worker.step
    rw [hpc]
    dsimp only
    split <;> exact clean_injector_local w o _ Pc.noConfusion
  | making_dir =>
    unfold Worker.step
    rw [hpc]
    dsimp only
    split
    · exact ⟨⟨rfl, rfl, rfl, Pc.noConfusion⟩, rfl⟩
    · exact local_next_file w ..
  | pausing i bytes stop =>
    unfold Worker.step
    rw [hpc]
    dsimp only
    split
    · exact ⟨⟨rfl, rfl, rfl, Pc.noConfusion⟩, rfl⟩
    · exact local_next_file w ..
  | returned cleaned =>
    unfold Worker.step
    rw [hpc]
    exact ⟨⟨rfl, rfl, rfl, hstarted⟩, rfl⟩
  | creating | session | making_canary | writing i bytes | making_injector | injection | waiting d stop
  | removing result =>
    unfold Worker.step
    rw [hpc]
    dsimp only
    split <;> exact ⟨⟨rfl, rfl, rfl, Pc.noConfusion⟩, rfl⟩
  | rejecting | reporting | dropping =>
    unfold Worker.step
    rw [hpc]
    exact ⟨⟨rfl, rfl, rfl, Pc.noConfusion⟩, rfl⟩

theorem fixed_step (hstarted : w.pc ≠ .starting) : Fixed w (w.step r o) := by
  cases hsilent : w.pc.announces with
  | false => exact (local_step hsilent).toFixed
  | true =>
    cases hpc : w.pc with
    | starting => exact absurd hpc hstarted
    | arming | injecting | leaving | settling =>
      unfold Worker.step
      rw [hpc]
      exact ⟨rfl, rfl, rfl, Pc.noConfusion⟩
    | _ =>
      rw [hpc] at hsilent
      cases hsilent

/-- How many statements are left once the deadline has passed. -/
def Pc.left : Pc → Nat
  | .returned _ => 0
  | .rejecting _ | .dropping _ => 1
  | .reporting _ => 2
  | .settling _ => 3
  | .removing _ => 4
  | .leaving _ => 5
  | .reverting _ | .cleaning _ _ => 6
  | .checking _ => 7
  | .waiting _ _ => 8
  | .pausing _ _ _ | .injection | .session => 9
  | .writing _ _ | .making_dir | .making_injector => 10
  | .making_canary => 11
  | .injecting => 12
  | .arming => 13
  | .creating => 14
  | .starting => 15

/-- The first steps of a schedule. -/
def prefix_of (schedule : Nat → Reading × Outcome) (n : Nat) : List (Reading × Outcome) :=
  (List.range n).map schedule

def watchdog_plan : ExecutionPlan where
  action := .WatchdogProbe
  target_dir := "/tmp/asmodeus-canary"
  file_count := 20
  chunk_size_kb := 64
  io_rate_per_sec := 0
  duration_ms := 0
  max_duration_sec := 60
  cpu_limit_percent := 25
  target_cidr := "127.0.0.1/32"
  iface := "lo"
  latency_ms := 100
  jitter_ms := 0
  loss_percent := 0

def watchdog_request (run_id : String) : ExecuteRequest where
  scenario_id := "SCN-WD-001"
  manifest := []
  signature := []
  public_key := []
  target_dir := "/tmp/asmodeus-canary"
  file_count := 20
  chunk_size_kb := 64
  run_id := run_id
  timeout_sec := 60

/-- Every step succeeds, except for the removal of the sandbox when it is to fail. -/
def calm_outcome (removed : Except String Unit) : Outcome where
  sandbox := .ok ()
  apply := .ok 0
  revert := .ok ()
  file := .ok 65536
  injected := .ok ⟨1, 74⟩
  cleaned := .ok ()
  left := true
  removed := removed

def calm_reading (now : Nat) : Reading := ⟨now, false, false, now, .ok 0⟩

end asmodeus.runner
