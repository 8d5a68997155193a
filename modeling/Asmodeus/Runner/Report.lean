import Asmodeus.Runner.Worker

open asmodeus.dsl
open asmodeus.control_plane (EventKind RunnerEvent)

namespace asmodeus.runner

namespace Pc

/-- No terminal event has been sent yet. -/
def quiet : Pc → Bool
  | .dropping _ | .returned _ => false
  | _ => true

/-- A wait of a latency spike, or what follows it. -/
def in_session : Pc → Bool
  | .waiting .latency _ | .checking (.dwell .latency _) | .checking (.dwell_end .latency) | .reverting _ => true
  | _ => false

/-- Only reached after an injection that succeeded. -/
def after_injection : Pc → Bool
  | .waiting _ _ | .checking (.dwell _ _) | .checking (.dwell_end _) | .reverting (.ok ()) => true
  | .cleaning _ (.ok _) | .leaving (.ok _) | .removing (.ok _) | .settling (.ok _) | .reporting (.ok _) => true
  | _ => false

/-- Only reached after a full dwell. -/
def after_dwell : Pc → Bool
  | .reverting (.ok ()) | .cleaning (.ok ()) (.ok _) => true
  | .leaving (.ok _) | .removing (.ok _) | .settling (.ok _) | .reporting (.ok _) => true
  | _ => false

/-- The removal of the sandbox has been tried. -/
def after_removal : Pc → Bool
  | .settling _ | .reporting _ => true
  | _ => false

/-- Nothing has to have been done before this statement. -/
def plain (pc : Pc) : Bool := pc.quiet && !pc.after_injection && !pc.after_dwell && !pc.after_removal

end Pc

/-- The last event says what has become of the run. -/
structure Truthful (w : Worker) (ending : RunnerEvent) : Prop where
  ends : ending.ends = true
  cleaned : ending.cleanup_confirmed = true → w.dir = false ∧ w.rule = none ∧ ∀ c ∈ w.cleanups, c = .ok ()
  completed : ending.kind = EventKind.Completed.number →
    w.injected = true ∧ w.dwelt = true ∧ ending.cleanup_confirmed = true
  installed : w.rule ≠ none → ending.cleanup_confirmed = false

/-- One event ends the stream, the last one. -/
def Reported (w : Worker) : Prop :=
  ∃ front ending, w.events = front ++ [ending] ∧ (∀ ev ∈ front, RunnerEvent.ends ev = false) ∧ Truthful w ending

/-- What every call of `run_worker` keeps. -/
structure Sound (w : Worker) : Prop where
  cleanups : w.pc.quiet = true → w.cleanup_error = none → ∀ c ∈ w.cleanups, c = .ok ()
  quiet : w.pc.quiet = true → ∀ ev ∈ w.events, RunnerEvent.ends ev = false
  rule : w.rule ≠ none → w.cleanup_error ≠ none ∨ (w.session = w.rule ∧ w.pc.in_session = true)
  injected : w.pc.after_injection = true → w.injected = true
  dwelt : w.pc.after_dwell = true → w.dwelt = true
  removed : w.pc.after_removal = true → w.cleanup_error = none → w.dir = false
  reported : w.pc.quiet = false → Reported w

theorem ends_of_kind {ev : RunnerEvent} {kind : EventKind} (h : ev.kind = kind.number) : ev.ends = kind.ends := by
  rw [RunnerEvent.ends, h]
  cases kind <;> rfl

theorem completed_of_number {kind : EventKind} (h : kind.number = EventKind.Completed.number) :
    kind = .Completed := by
  cases kind with
  | Completed => rfl
  | _ => cases h

/-- Every way to end carries a kind that ends the stream. -/
theorem terminal_ends (cleanup_error : Option String) (result : Except InjectError Report) :
    (terminal cleanup_error result).1.ends = true := by
  unfold terminal
  split
  · rfl
  · split
    · rfl
    · dsimp only
      split
      · rfl
      · split
        · rfl
        · split <;> rfl

/-- A run that failed is never reported as completed. -/
theorem terminal_error_kind (e : InjectError) : (terminal none (.error e)).1 ≠ .Completed := by
  unfold terminal
  dsimp only
  split
  · exact EventKind.noConfusion
  · split
    · exact EventKind.noConfusion
    · split <;> exact EventKind.noConfusion

theorem Sound.spawn (backend : String) (req : ExecuteRequest) (plan : ExecutionPlan) :
    Sound (Worker.spawn backend req plan) where
  cleanups _ _ c hc := absurd hc List.not_mem_nil
  quiet _ ev hev := absurd hev List.not_mem_nil
  rule hrule := absurd rfl hrule
  injected h := by cases h
  dwelt h := by cases h
  removed h := by cases h
  reported h := by cases h

variable {w : Worker} {r : Reading} {o : Outcome}

theorem unreported {pc : Pc} (hquiet : pc.quiet = true) (hpc : pc.quiet = false) : Reported w := by
  rw [hquiet] at hpc
  cases hpc

/-- A statement that touches neither the rule nor the cleanup, and sends no terminal
event. -/
structure Keeps (w w' : Worker) : Prop where
  cleanups : w'.cleanups = w.cleanups
  cleanup_error : w'.cleanup_error = w.cleanup_error
  rule : w'.rule = w.rule
  session : w'.session = w.session
  dir : w'.dir = w.dir
  events : ∀ ev ∈ w'.events, ev ∈ w.events ∨ RunnerEvent.ends ev = false

theorem keeps_emit (w : Worker) (state : String) (r : Reading) (pc : Pc) :
    Keeps w { w.emit state r with pc := pc } := by
  refine ⟨rfl, rfl, rfl, rfl, rfl, fun ev hev => ?_⟩
  rcases List.mem_append.mp hev with hev | hev
  · exact Or.inl hev
  · obtain rfl := List.mem_singleton.mp hev
    exact Or.inr rfl

theorem keeps_jump (w : Worker) (pc : Pc) : Keeps w { w with pc := pc } :=
  ⟨rfl, rfl, rfl, rfl, rfl, fun _ => Or.inl⟩

/-- The run leaves no rule to a session. -/
def Released (w : Worker) : Prop := w.rule ≠ none → w.cleanup_error ≠ none

theorem Sound.released (h : Sound w) (hpc : w.pc.in_session = false) : Released w := fun hrule =>
  (h.rule hrule).resolve_right fun hheld => by
    rw [hpc] at hheld
    cases hheld.2

/-- The next statement may ask for no more than what has been done. -/
theorem Sound.jump (h : Sound w) {w' : Worker} (hkeeps : Keeps w w') (hquiet : w.pc.quiet = true)
    (hquiet' : w'.pc.quiet = true)
    (hrule : Released w ∨ (w.pc.in_session = true → w'.pc.in_session = true))
    (hinjection : w'.pc.after_injection = true → w'.injected = true)
    (hdwell : w'.pc.after_dwell = true → w'.dwelt = true)
    (hremoval : w'.pc.after_removal = true → w.pc.after_removal = true) : Sound w' where
  cleanups _ := by
    rw [hkeeps.cleanup_error, hkeeps.cleanups]
    exact h.cleanups hquiet
  quiet _ ev hev := (hkeeps.events ev hev).elim (h.quiet hquiet ev) id
  rule hinstalled := by
    rw [hkeeps.rule] at hinstalled
    rw [hkeeps.cleanup_error, hkeeps.session, hkeeps.rule]
    rcases hrule with hreleased | hsession
    · exact Or.inl (hreleased hinstalled)
    · exact (h.rule hinstalled).imp_right fun hheld => ⟨hheld.1, hsession hheld.2⟩
  injected := hinjection
  dwelt := hdwell
  removed hpc := by
    rw [hkeeps.cleanup_error, hkeeps.dir]
    exact h.removed (hremoval hpc)
  reported := unreported hquiet'

theorem Sound.go (h : Sound w) {w' : Worker} (hkeeps : Keeps w w') (hquiet : w.pc.quiet = true)
    (hreleased : Released w) (hplain : w'.pc.plain = true) : Sound w' := by
  unfold Pc.plain at hplain
  simp only [Bool.and_eq_true, Bool.not_eq_true'] at hplain
  obtain ⟨⟨⟨hquiet', hinjection⟩, hdwell⟩, hremoval⟩ := hplain
  refine h.jump hkeeps hquiet hquiet' (Or.inl hreleased) ?_ ?_ ?_
  · rw [hinjection]
    exact fun hpc => by cases hpc
  · rw [hdwell]
    exact fun hpc => by cases hpc
  · rw [hremoval]
    exact fun hpc => by cases hpc

/-- A rollback that fails is a cleanup error. -/
theorem Sound.revert (h : Sound w) (hpc : w.pc.after_removal = false) (hquiet : w.pc.quiet = true) :
    Sound (w.revert o) ∧ Released (w.revert o) ∧ (w.revert o).pc = w.pc ∧
      (w.revert o).injected = w.injected ∧ (w.revert o).dwelt = w.dwelt := by
  unfold Worker.revert
  cases hsession : w.session with
  | none =>
    refine ⟨h, fun hrule => ?_, rfl, rfl, rfl⟩
    rcases h.rule hrule with herror | ⟨hheld, -⟩
    · exact herror
    · exact absurd (hheld.symm.trans hsession) hrule
  | some handle =>
    cases o.revert with
    | ok _ =>
      refine ⟨⟨fun _ herror c hc => ?_, h.quiet, fun hrule => absurd rfl hrule, h.injected, h.dwelt, h.removed,
        unreported hquiet⟩, fun hrule => absurd rfl hrule, rfl, rfl, rfl⟩
      rcases List.mem_append.mp hc with hc | hc
      · exact h.cleanups hquiet herror c hc
      · exact List.mem_singleton.mp hc
    | error e =>
      refine ⟨⟨fun _ herror => ?_, h.quiet, fun _ => Or.inl (by simp), h.injected, h.dwelt, fun hpc' => ?_,
        unreported hquiet⟩, fun _ => by simp, rfl, rfl, rfl⟩
      · cases herror
      · have hpc' : w.pc.after_removal = true := hpc'
        rw [hpc] at hpc'
        cases hpc'

/-- A cleanup that fails is a cleanup error. -/
theorem Sound.clean_injector (h : Sound w) (hpc : w.pc.after_removal = false) (hquiet : w.pc.quiet = true) :
    Sound (w.clean_injector o) ∧ (w.clean_injector o).pc = w.pc ∧
      (w.clean_injector o).injected = w.injected ∧ (w.clean_injector o).dwelt = w.dwelt := by
  have hremoved {p : Prop} (hpc' : w.pc.after_removal = true) : p := by
    rw [hpc] at hpc'
    cases hpc'
  unfold Worker.clean_injector
  cases o.cleaned with
  | ok _ =>
    refine ⟨⟨fun _ herror c hc => ?_, h.quiet, h.rule, h.injected, h.dwelt, hremoved, unreported hquiet⟩, rfl, rfl, rfl⟩
    rcases List.mem_append.mp hc with hc | hc
    · exact h.cleanups hquiet herror c hc
    · exact List.mem_singleton.mp hc
  | error e =>
    refine ⟨⟨fun _ herror => ?_, h.quiet, fun _ => Or.inl (by simp), h.injected, h.dwelt, hremoved,
      unreported hquiet⟩, rfl, rfl, rfl⟩
    cases herror

/-- The removal of the sandbox succeeds and it is gone, or it is a cleanup error. -/
theorem Sound.remove (h : Sound w) {result : Except InjectError Report} (hpc : w.pc = .removing result) :
    Sound (w.step r o) := by
  have hreleased := h.released (by rw [hpc]; rfl)
  have hinjected := h.injected
  have hdwelt := h.dwelt
  have hcleanups := h.cleanups (by rw [hpc]; rfl)
  have hquiet := h.quiet (by rw [hpc]; rfl)
  rw [hpc] at hinjected hdwelt
  unfold Worker.step
  rw [hpc]
  dsimp only
  split
  · rename_i hremoved
    refine ⟨fun _ herror c hc => ?_, fun _ => hquiet, fun hrule => Or.inl (hreleased hrule), ?_, ?_, fun _ _ => ?_,
      unreported rfl⟩
    · rcases List.mem_append.mp hc with hc | hc
      · exact hcleanups herror c hc
      · rw [List.mem_singleton.mp hc, hremoved]
    · intro hpc'
      apply hinjected
      cases result with
      | ok report => rfl
      | error e => cases hpc'
    · intro hpc'
      apply hdwelt
      cases result with
      | ok report => rfl
      | error e => cases hpc'
    · change (w.dir && !(w.remove_dir_all o).isOk) = false
      rw [hremoved]
      exact Bool.and_false _
  · refine ⟨fun _ herror => ?_, fun _ => hquiet, fun _ => Or.inl (by simp), ?_, ?_, fun _ herror => ?_, unreported rfl⟩
    · cases herror
    · intro hpc'
      apply hinjected
      cases result with
      | ok report => rfl
      | error e => cases hpc'
    · intro hpc'
      apply hdwelt
      cases result with
      | ok report => rfl
      | error e => cases hpc'
    · cases herror

/-- The terminal event is truthful. -/
theorem Sound.report (h : Sound w) {result : Except InjectError Report} (hpc : w.pc = .reporting result) :
    Sound (w.step r o) := by
  have hreleased := h.released (by rw [hpc]; rfl)
  have hremoved := h.removed (by rw [hpc]; rfl)
  have hinjected := h.injected
  have hdwelt := h.dwelt
  have hcleanups := h.cleanups (by rw [hpc]; rfl)
  have hquiet := h.quiet (by rw [hpc]; rfl)
  rw [hpc] at hinjected hdwelt
  unfold Worker.step
  rw [hpc]
  dsimp only
  refine ⟨fun hpc' => ?_, fun hpc' => ?_, fun hrule => Or.inl (hreleased hrule), fun hpc' => ?_, fun hpc' => ?_,
    fun hpc' => ?_, fun _ => ⟨w.events, _, rfl, hquiet, ?_⟩⟩
  · cases hpc'
  · cases hpc'
  · cases hpc'
  · cases hpc'
  · cases hpc'
  · cases herror : w.cleanup_error with
    | some error =>
      refine ⟨rfl, fun hcleaned => ?_, fun hkind => ?_, fun _ => rfl⟩
      · cases hcleaned
      · cases hkind
    | none =>
      have hrule : w.rule = none := by
        by_contra hrule
        exact hreleased hrule herror
      refine ⟨?_, fun _ => ⟨hremoved herror, hrule, hcleanups herror⟩, fun hkind => ?_, fun hinstalled => ?_⟩
      · exact (ends_of_kind rfl).trans (terminal_ends none result)
      · cases result with
        | ok report => exact ⟨hinjected rfl, hdwelt rfl, rfl⟩
        | error e => exact absurd (completed_of_number hkind) (terminal_error_kind e)
      · exact absurd hrule hinstalled

theorem Sound.enter_wait (h : Sound w) {d : Dwell} (hquiet : w.pc.quiet = true) (hreleased : Released w)
    (hinjected : w.injected = true) : Sound (w.enter_wait d r) :=
  h.jump (keeps_jump w _) hquiet rfl (Or.inl hreleased) (fun _ => hinjected) (fun hpc => by cases hpc)
    fun hpc => by cases hpc

theorem Sound.next_file (h : Sound w) {i bytes : Nat} (hquiet : w.pc.quiet = true) (hreleased : Released w) :
    Sound (w.next_file i bytes r) := by
  unfold Worker.next_file
  split
  · exact h.go (keeps_jump w _) hquiet hreleased rfl
  · exact h.jump ⟨rfl, rfl, rfl, rfl, rfl, fun _ => Or.inl⟩ hquiet rfl (Or.inl hreleased) (fun _ => rfl)
      (fun hpc => by cases hpc) fun hpc => by cases hpc

/-- After a check that passed. Only the end of a wait says that the dwell is over. -/
theorem Sound.passed (h : Sound w) {point : CheckPoint} (hpc : w.pc = .checking point) : Sound (w.passed point) := by
  have hquiet : w.pc.quiet = true := by rw [hpc]; rfl
  have hinjected := h.injected
  rw [hpc] at hinjected
  have hreleased : point ≠ .dwell_end .latency → (∀ stop, point ≠ .dwell .latency stop) → Released w := by
    intro hend hdwell
    apply h.released
    rw [hpc]
    cases point with
    | dwell d stop =>
      cases d with
      | latency => exact absurd rfl (hdwell stop)
      | _ => rfl
    | dwell_end d =>
      cases d with
      | latency => exact absurd rfl hend
      | _ => rfl
    | _ => rfl
  cases point with
  | entry =>
    have hreleased := hreleased CheckPoint.noConfusion fun _ => CheckPoint.noConfusion
    have hkeeps (simulated : Bool) (pc : Pc) : Keeps w { w with simulated := simulated, pc := pc } :=
      ⟨rfl, rfl, rfl, rfl, rfl, fun _ => Or.inl⟩
    unfold Worker.passed
    dsimp only
    split
    · exact h.go (hkeeps _ _) hquiet hreleased rfl
    · exact h.go (keeps_jump w _) hquiet hreleased rfl
    · exact h.go (keeps_jump w _) hquiet hreleased rfl
  | canary_start =>
    exact h.go (keeps_jump w _) hquiet (hreleased CheckPoint.noConfusion fun _ => CheckPoint.noConfusion) rfl
  | canary_file i bytes =>
    exact h.go (keeps_jump w _) hquiet (hreleased CheckPoint.noConfusion fun _ => CheckPoint.noConfusion) rfl
  | canary_pause i bytes stop =>
    exact h.go (keeps_jump w _) hquiet (hreleased CheckPoint.noConfusion fun _ => CheckPoint.noConfusion) rfl
  | dwell d stop =>
    refine h.jump (keeps_jump w _) hquiet rfl (Or.inr fun hsession => ?_) (fun _ => hinjected rfl)
      (fun hpc => by cases hpc) fun hpc => by cases hpc
    rw [hpc] at hsession
    cases d with
    | latency => rfl
    | _ => cases hsession
  | dwell_end d =>
    cases d with
    | latency =>
      exact h.jump ⟨rfl, rfl, rfl, rfl, rfl, fun _ => Or.inl⟩ hquiet rfl (Or.inr fun _ => rfl)
        (fun _ => hinjected rfl) (fun _ => rfl) fun hpc => by cases hpc
    | canary report =>
      exact h.jump ⟨rfl, rfl, rfl, rfl, rfl, fun _ => Or.inl⟩ hquiet rfl
        (Or.inl (hreleased (fun heq => by cases heq) fun _ => CheckPoint.noConfusion))
        (fun _ => hinjected rfl) (fun _ => rfl) fun hpc => by cases hpc
    | injected report =>
      exact h.jump ⟨rfl, rfl, rfl, rfl, rfl, fun _ => Or.inl⟩ hquiet rfl
        (Or.inl (hreleased (fun heq => by cases heq) fun _ => CheckPoint.noConfusion))
        (fun _ => hinjected rfl) (fun _ => rfl) fun hpc => by cases hpc

/-- After a wait that failed. -/
theorem Sound.interrupted (h : Sound w) {d : Dwell} (e : InjectError) (hquiet : w.pc.quiet = true)
    (hreleased : d ≠ .latency → Released w) (hinjected : w.injected = true) : Sound (w.interrupted e d) := by
  cases d with
  | latency =>
    exact h.jump (keeps_jump w _) hquiet rfl (Or.inr fun _ => rfl) (fun hpc => by cases hpc)
      (fun hpc => by cases hpc) fun hpc => by cases hpc
  | canary report => exact h.go (keeps_jump w _) hquiet (hreleased Dwell.noConfusion) rfl
  | injected report =>
    exact h.jump (keeps_jump w _) hquiet rfl (Or.inl (hreleased Dwell.noConfusion)) (fun _ => hinjected)
      (fun hpc => by cases hpc) fun hpc => by cases hpc

/-- After a check that failed. -/
theorem Sound.stopped (h : Sound w) {point : CheckPoint} (e : InjectError) (hpc : w.pc = .checking point) :
    Sound (w.stopped e point) := by
  have hquiet : w.pc.quiet = true := by rw [hpc]; rfl
  have hreleased := h.released
  have hinjected := h.injected
  rw [hpc] at hreleased hinjected
  cases point with
  | dwell d stop =>
    refine h.interrupted e hquiet (fun hd => hreleased ?_) (hinjected rfl)
    cases d with
    | latency => exact absurd rfl hd
    | _ => rfl
  | dwell_end d =>
    refine h.interrupted e hquiet (fun hd => hreleased ?_) (hinjected rfl)
    cases d with
    | latency => exact absurd rfl hd
    | _ => rfl
  | _ => exact h.go (keeps_jump w _) hquiet (hreleased rfl) rfl

/-- What is left to drop is gone when the cleanup was confirmed. -/
theorem Sound.drop (h : Sound w) {cleaned : Bool} (hpc : w.pc = .dropping cleaned) : Sound (w.step r o) := by
  obtain ⟨front, ending, hevents, hfront, htruthful⟩ := h.reported (by rw [hpc]; rfl)
  have hreleased := h.released (by rw [hpc]; rfl)
  unfold Worker.step
  rw [hpc]
  refine ⟨fun hpc' => ?_, fun hpc' => ?_, fun hrule => Or.inl (hreleased hrule), fun hpc' => ?_, fun hpc' => ?_,
    fun hpc' => ?_, fun _ => ⟨front, ending, hevents, hfront, htruthful.ends, fun hcleaned => ?_,
    htruthful.completed, htruthful.installed⟩⟩
  · cases hpc'
  · cases hpc'
  · cases hpc'
  · cases hpc'
  · cases hpc'
  · obtain ⟨hdir, hrule, hcleanups⟩ := htruthful.cleaned hcleaned
    refine ⟨?_, hrule, fun c hc => ?_⟩
    · change (w.dir && !(w.remove_dir_all o).isOk) = false
      rw [hdir]
      rfl
    · rcases List.mem_append.mp hc with hc | hc
      · exact hcleanups c hc
      · rw [List.mem_singleton.mp hc, Worker.remove_dir_all, hdir]
        rfl

/-- A session that starts holds the rule it installed. -/
theorem Sound.start_session (h : Sound w) (hpc : w.pc = .session) : Sound (w.step r o) := by
  have hquiet : w.pc.quiet = true := by rw [hpc]; rfl
  have hreleased := h.released (by rw [hpc]; rfl)
  unfold Worker.step
  rw [hpc]
  dsimp only
  split
  · exact h.go (keeps_jump w _) hquiet hreleased rfl
  · exact ⟨fun _ => h.cleanups hquiet, fun _ => h.quiet hquiet, fun _ => Or.inr ⟨rfl, rfl⟩, fun _ => rfl,
      (fun hpc => by cases hpc), (fun hpc => by cases hpc), unreported rfl⟩

theorem Sound.revert_session (h : Sound w) {waited : Except InjectError Unit} (hpc : w.pc = .reverting waited) :
    Sound (w.step r o) := by
  have hquiet : w.pc.quiet = true := by rw [hpc]; rfl
  obtain ⟨hreverted, hreleased, hpc', hinjected', hdwelt'⟩ := h.revert (o := o) (by rw [hpc]; rfl) hquiet
  have hinjected := h.injected
  have hdwelt := h.dwelt
  rw [hpc] at hinjected hdwelt
  rw [← hpc'] at hquiet
  unfold Worker.step
  rw [hpc]
  dsimp only
  split
  · exact hreverted.go (keeps_jump _ _) hquiet hreleased rfl
  · exact hreverted.jump (keeps_jump _ _) hquiet rfl (Or.inl hreleased) (fun _ => hinjected'.trans (hinjected rfl))
      (fun _ => hdwelt'.trans (hdwelt rfl)) fun hpc => by cases hpc

theorem Sound.clean (h : Sound w) {waited : Except InjectError Unit} {injected : Except InjectError Report}
    (hpc : w.pc = .cleaning waited injected) : Sound (w.step r o) := by
  have hquiet : w.pc.quiet = true := by rw [hpc]; rfl
  obtain ⟨hcleaned, hpc', hinjected', hdwelt'⟩ := h.clean_injector (o := o) (by rw [hpc]; rfl) hquiet
  have hreleased := hcleaned.released (by rw [hpc', hpc]; rfl)
  have hinjected := h.injected
  have hdwelt := h.dwelt
  rw [hpc] at hinjected hdwelt
  rw [← hpc'] at hquiet
  unfold Worker.step
  rw [hpc]
  dsimp only
  split
  · exact hcleaned.go (keeps_jump _ _) hquiet hreleased rfl
  · cases injected with
    | error e => exact hcleaned.go (keeps_jump _ _) hquiet hreleased rfl
    | ok report =>
      exact hcleaned.jump (keeps_jump _ _) hquiet rfl (Or.inl hreleased)
        (fun _ => hinjected'.trans (hinjected rfl)) (fun _ => hdwelt'.trans (hdwelt rfl)) fun hpc => by cases hpc

/-- A run without a sandbox is rejected. -/
theorem Sound.reject (h : Sound w) {message : String} (hpc : w.pc = .rejecting message) : Sound (w.step r o) := by
  have hquiet : w.pc.quiet = true := by rw [hpc]; rfl
  have hreleased := h.released (by rw [hpc]; rfl)
  unfold Worker.step
  rw [hpc]
  refine ⟨(fun hpc => by cases hpc), (fun hpc => by cases hpc), fun hrule => Or.inl (hreleased hrule),
    (fun hpc => by cases hpc), (fun hpc => by cases hpc), (fun hpc => by cases hpc),
    fun _ => ⟨w.events, _, rfl, h.quiet hquiet, rfl, (fun hcleaned => by cases hcleaned), (fun hkind => by cases hkind),
      fun _ => rfl⟩⟩

theorem Sound.create (h : Sound w) (hpc : w.pc = .creating) : Sound (w.step r o) := by
  have hquiet : w.pc.quiet = true := by rw [hpc]; rfl
  have hreleased := h.released (by rw [hpc]; rfl)
  unfold Worker.step
  rw [hpc]
  dsimp only
  split
  · exact h.go (keeps_jump w _) hquiet hreleased rfl
  · exact ⟨fun _ => h.cleanups hquiet, fun _ => h.quiet hquiet, fun hrule => Or.inl (hreleased hrule),
      (fun hpc => by cases hpc), (fun hpc => by cases hpc), (fun hpc => by cases hpc), unreported rfl⟩

/-- The statements that carry a result on. -/
theorem Sound.carry (h : Sound w) {w' : Worker} (hkeeps : Keeps w w') (hquiet : w.pc.quiet = true)
    (hreleased : Released w) (hinjected : w'.injected = w.injected) (hdwelt : w'.dwelt = w.dwelt)
    (hquiet' : w'.pc.quiet = true) (hinjection : w'.pc.after_injection = true → w.pc.after_injection = true)
    (hdwell : w'.pc.after_dwell = true → w.pc.after_dwell = true)
    (hremoval : w'.pc.after_removal = true → w.pc.after_removal = true) : Sound w' :=
  h.jump hkeeps hquiet hquiet' (Or.inl hreleased) (fun hpc => hinjected.trans (h.injected (hinjection hpc)))
    (fun hpc => hdwelt.trans (h.dwelt (hdwell hpc))) hremoval

theorem Sound.outside (h : Sound w) {pc : Pc} (hpc : w.pc = pc) (hquiet : pc.quiet = true)
    (hsession : pc.in_session = false) : w.pc.quiet = true ∧ Released w := by
  rw [← hpc] at hquiet hsession
  exact ⟨hquiet, h.released hsession⟩

/-- A wait goes on to its check, inside or outside the session as before. -/
theorem Sound.wait (h : Sound w) {d : Dwell} {stop : Nat} (hpc : w.pc = .waiting d stop) : Sound (w.step r o) := by
  have hquiet : w.pc.quiet = true := by rw [hpc]; rfl
  have hinjected := h.injected (by rw [hpc]; rfl)
  have hsession (pc : Pc) (hpc' : pc.in_session = w.pc.in_session) :
      w.pc.in_session = true → pc.in_session = true := fun hsession => hpc'.trans hsession
  unfold Worker.step
  rw [hpc]
  dsimp only
  split
  all_goals
    refine h.jump (keeps_jump w _) hquiet rfl (Or.inr (hsession _ ?_)) (fun _ => hinjected)
      (fun hpc => by cases hpc) fun hpc => by cases hpc
    rw [hpc]
    cases d <;> rfl

theorem Sound.leave (h : Sound w) {result : Except InjectError Report} (hpc : w.pc = .leaving result) :
    Sound (w.step r o) := by
  obtain ⟨hquiet, hreleased⟩ := h.outside hpc rfl rfl
  unfold Worker.step
  rw [hpc]
  refine h.carry (keeps_emit w _ _ _) hquiet hreleased rfl rfl rfl ?_ ?_ fun hpc => by cases hpc
  · rw [hpc]
    cases result <;> exact id
  · rw [hpc]
    cases result <;> exact id

theorem Sound.settle (h : Sound w) {result : Except InjectError Report} (hpc : w.pc = .settling result) :
    Sound (w.step r o) := by
  obtain ⟨hquiet, hreleased⟩ := h.outside hpc rfl rfl
  unfold Worker.step
  rw [hpc]
  refine h.carry ⟨rfl, rfl, rfl, rfl, rfl, fun _ => Or.inl⟩ hquiet hreleased rfl rfl rfl ?_ ?_ ?_
  · rw [hpc]
    cases result <;> exact id
  · rw [hpc]
    cases result <;> exact id
  · rw [hpc]
    exact id

/-- A run that passes its validation. -/
theorem Sound.validated (h : Sound w) (hpc : w.pc = .starting) : Sound (w.step r o) := by
  obtain ⟨hquiet, hreleased⟩ := h.outside hpc rfl rfl
  have hkeeps := keeps_emit { w with start := r.now } "Validated" r .creating
  unfold Worker.step
  rw [hpc]
  exact h.go ⟨hkeeps.cleanups, hkeeps.cleanup_error, hkeeps.rule, hkeeps.session, hkeeps.dir, hkeeps.events⟩
    hquiet hreleased rfl

theorem Sound.inject (h : Sound w) (hpc : w.pc = .injection) : Sound (w.step r o) := by
  obtain ⟨hquiet, hreleased⟩ := h.outside hpc rfl rfl
  unfold Worker.step
  rw [hpc]
  dsimp only
  split
  · exact h.go (keeps_jump w _) hquiet hreleased rfl
  · exact h.jump ⟨rfl, rfl, rfl, rfl, rfl, fun _ => Or.inl⟩ hquiet rfl (Or.inl hreleased) (fun _ => rfl)
      (fun hpc => by cases hpc) fun hpc => by cases hpc

/-- Every statement keeps it. -/
theorem Sound.step (h : Sound w) : Sound (w.step r o) := by
  cases hpc : w.pc with
  | starting => exact h.validated hpc
  | creating => exact h.create hpc
  | session => exact h.start_session hpc
  | injection => exact h.inject hpc
  | waiting d stop => exact h.wait hpc
  | reverting waited => exact h.revert_session hpc
  | cleaning waited injected => exact h.clean hpc
  | leaving result => exact h.leave hpc
  | removing result => exact h.remove hpc
  | settling result => exact h.settle hpc
  | reporting result => exact h.report hpc
  | dropping cleaned => exact h.drop hpc
  | rejecting message => exact h.reject hpc
  | returned cleaned =>
    unfold Worker.step
    rw [hpc]
    exact h
  | checking point =>
    unfold Worker.step
    rw [hpc]
    dsimp only
    split
    · exact h
    · exact h.passed hpc
    · exact h.stopped _ hpc
  | arming | injecting =>
    obtain ⟨hquiet, hreleased⟩ := h.outside hpc rfl rfl
    unfold Worker.step
    rw [hpc]
    exact h.go (keeps_emit w _ _ _) hquiet hreleased rfl
  | making_dir | pausing i bytes stop =>
    obtain ⟨hquiet, hreleased⟩ := h.outside hpc rfl rfl
    unfold Worker.step
    rw [hpc]
    dsimp only
    split
    · exact h.go (keeps_jump w _) hquiet hreleased rfl
    · exact h.next_file hquiet hreleased
  | making_canary | writing i bytes | making_injector =>
    obtain ⟨hquiet, hreleased⟩ := h.outside hpc rfl rfl
    unfold Worker.step
    rw [hpc]
    dsimp only
    split
    · exact h.go (keeps_jump w _) hquiet hreleased rfl
    · exact h.go (keeps_jump w _) hquiet hreleased rfl

/-- And so does a whole call. -/
theorem Sound.run (h : Sound w) (steps : List (Reading × Outcome)) : Sound (w.run steps) := by
  induction steps generalizing w with
  | nil => exact h
  | cons step rest ih => exact ih h.step

end asmodeus.runner
