import Asmodeus.Runner.Host.Contents

open FileTree UnixPath
open asmodeus.dsl
open asmodeus.control_plane (EventKind RunnerEvent)

namespace asmodeus.runner

/-- The statements that touch the file system. -/
def Pc.files : Pc → Bool
  | .creating | .making_dir | .writing _ _ | .injection | .cleaning _ _ | .removing _ | .dropping _ => true
  | _ => false

section

variable {w : Worker} {r : Reading} {o : Outcome} {s s' : Option (FsTree Component)}

theorem passed_frame (w : Worker) (point : CheckPoint) : (w.passed point).dir = w.dir ∧
    (w.passed point).events = w.events := by
  cases point with
  | entry =>
    unfold Worker.passed
    dsimp only
    split <;> exact ⟨rfl, rfl⟩
  | dwell_end d => cases d <;> exact ⟨rfl, rfl⟩
  | _ => exact ⟨rfl, rfl⟩

theorem stopped_frame (w : Worker) (e : InjectError) (point : CheckPoint) :
    (w.stopped e point).dir = w.dir ∧ (w.stopped e point).events = w.events := by
  cases point with
  | dwell d stop => cases d <;> exact ⟨rfl, rfl⟩
  | dwell_end d => cases d <;> exact ⟨rfl, rfl⟩
  | _ => exact ⟨rfl, rfl⟩

theorem next_file_frame (w : Worker) (i bytes : Nat) (r : Reading) :
    (w.next_file i bytes r).dir = w.dir ∧ (w.next_file i bytes r).events = w.events := by
  unfold Worker.next_file
  split <;> exact ⟨rfl, rfl⟩

theorem revert_frame (w : Worker) (o : Outcome) : (w.revert o).dir = w.dir ∧ (w.revert o).events = w.events := by
  unfold Worker.revert
  split
  · exact ⟨rfl, rfl⟩
  · split <;> exact ⟨rfl, rfl⟩

/-- The ghost of the directory moves with the file system alone. -/
theorem step_dir (hfiles : w.pc.files = false) : (w.step r o).dir = w.dir := by
  unfold Worker.step
  cases hpc : w.pc with
  | creating | making_dir | writing | injection | cleaning | removing | dropping =>
    rw [hpc] at hfiles
    cases hfiles
  | checking point =>
    dsimp only
    split
    · rfl
    · exact (passed_frame w point).1
    · exact (stopped_frame w _ point).1
  | reverting waited => cases waited <;> exact (revert_frame w o).1
  | pausing i bytes stop =>
    dsimp only
    split
    · rfl
    · exact (next_file_frame w ..).1
  | session | making_canary | making_injector | waiting =>
    dsimp only
    split <;> rfl
  | _ => rfl

/-- A completion or a cleanup is only told at the report of a run. -/
theorem step_events (hreporting : ∀ result, w.pc ≠ .reporting result) {ev : RunnerEvent}
    (hev : ev ∈ (w.step r o).events) :
    ev ∈ w.events ∨ (ev.kind ≠ EventKind.Completed.number ∧ ev.cleanup_confirmed = false) := by
  have hstate : EventKind.StateChanged.number ≠ EventKind.Completed.number := by decide
  have hrejected : EventKind.Rejected.number ≠ EventKind.Completed.number := by decide
  have hemit {state : String} {n : Nat} {ev : RunnerEvent}
      (hev : ev ∈ w.events ++ [event .StateChanged state w.req.run_id "" false report0 n]) :
      ev ∈ w.events ∨ (ev.kind ≠ EventKind.Completed.number ∧ ev.cleanup_confirmed = false) := by
    rcases List.mem_append.mp hev with hev | hev
    · exact Or.inl hev
    · obtain rfl := List.mem_singleton.mp hev
      exact Or.inr ⟨hstate, rfl⟩
  unfold Worker.step at hev
  cases hpc : w.pc with
  | reporting result => exact absurd hpc (hreporting result)
  | starting | arming | injecting | leaving =>
    rw [hpc] at hev
    exact hemit hev
  | rejecting e =>
    rw [hpc] at hev
    rcases List.mem_append.mp hev with hev | hev
    · exact Or.inl hev
    · obtain rfl := List.mem_singleton.mp hev
      exact Or.inr ⟨hrejected, rfl⟩
  | checking point =>
    rw [hpc] at hev
    dsimp only at hev
    split at hev
    · exact Or.inl hev
    · exact Or.inl ((passed_frame w point).2 ▸ hev)
    · exact Or.inl ((stopped_frame w _ point).2 ▸ hev)
  | reverting waited =>
    rw [hpc] at hev
    cases waited <;> exact Or.inl ((revert_frame w o).2 ▸ hev)
  | cleaning waited injected =>
    rw [hpc] at hev
    have hclean : (w.clean_injector o).events = w.events := by
      unfold Worker.clean_injector
      split <;> rfl
    cases waited <;> exact Or.inl (hclean ▸ hev)
  | making_dir =>
    rw [hpc] at hev
    dsimp only at hev
    split at hev
    · exact Or.inl hev
    · exact Or.inl ((next_file_frame w ..).2 ▸ hev)
  | pausing i bytes stop =>
    rw [hpc] at hev
    dsimp only at hev
    split at hev
    · exact Or.inl hev
    · exact Or.inl ((next_file_frame w ..).2 ▸ hev)
  | creating | session | making_canary | writing | making_injector | injection | waiting | removing =>
    rw [hpc] at hev
    dsimp only at hev
    split at hev <;> exact Or.inl hev
  | settling | dropping | returned =>
    rw [hpc] at hev
    exact Or.inl hev

/-- A run past the making of its sandbox keeps the place of it. -/
theorem Own.stepped (h : Own w s) (hpc : w.pc ≠ .creating) (hreporting : ∀ result, w.pc ≠ .reporting result)
    (hpresent : (w.step r o).dir = s'.isSome) (hcontents : Contents w.plan w.sandbox.path s' (w.step r o).pc) :
    Own (w.step r o) s' := by
  obtain ⟨hreq, hplan⟩ := step_request w r o
  have hsandbox : (w.step r o).sandbox = w.sandbox := step_sandbox hpc
  refine ⟨?_, hpresent, ?_, fun ev hev => ?_⟩
  · rw [hsandbox, hreq, hplan]
    exact h.path
  · rw [hsandbox, hplan]
    exact hcontents
  · rw [hplan]
    obtain hold | ⟨hother, -⟩ := step_events hreporting hev
    · exact h.told ev hold
    · exact fun hcompleted => absurd hcompleted hother

theorem next_file_contents {i bytes : Nat} (hcanary : w.plan.action = .SyntheticCanaryEncrypt)
    (hle : i ≤ w.plan.file_count.toNat) (h : Encrypted w.plan i bytes s) :
    Contents w.plan w.sandbox.path s (w.next_file i bytes r).pc := by
  unfold Worker.next_file
  split
  · rename_i hlt
    exact ⟨hcanary, hlt, h⟩
  · rename_i hge
    obtain rfl : i = w.plan.file_count.toNat := by omega
    exact ⟨hcanary, bytes, rfl, h⟩

theorem interrupted_contents {d : Dwell} (e : InjectError) (h : Dwelling w.plan w.sandbox.path s d) :
    Contents w.plan w.sandbox.path s (w.interrupted e d).pc := by
  cases d with
  | latency => exact h
  | canary report =>
    obtain ⟨-, -, -, hfiles, -⟩ := h
    exact ⟨hfiles ▸ emptied_dir _, stood_error e⟩
  | injected report =>
    obtain ⟨injector, files, hplants, rfl⟩ := h
    exact ⟨injector, files, report, hplants, litter_entries files, fun made hmade => (Except.ok.inj hmade).symm⟩

theorem passed_contents {point : CheckPoint} (h : Contents w.plan w.sandbox.path s (.checking point)) :
    Contents w.plan w.sandbox.path s (w.passed point).pc := by
  cases point with
  | entry =>
    have hempty : s = some (.dir []) := h
    unfold Worker.passed
    dsimp only
    split
    · rename_i haction
      exact ⟨haction, hempty⟩
    · rename_i haction
      exact ⟨haction, hempty⟩
    · rename_i hlatency hcanary
      exact ⟨hlatency, hcanary, hempty⟩
  | dwell_end d =>
    cases d with
    | latency => exact h
    | canary report =>
      obtain ⟨hcanary, bytes, rfl, hencrypted⟩ := h
      exact ⟨hencrypted.1 ▸ emptied_dir _, stood_ok (stands_canary hcanary hencrypted)⟩
    | injected report =>
      obtain ⟨injector, files, hplants, rfl⟩ := h
      exact ⟨injector, files, report, hplants, litter_entries files, fun made hmade => (Except.ok.inj hmade).symm⟩
  | _ => exact h

theorem stopped_contents {point : CheckPoint} (e : InjectError)
    (h : Contents w.plan w.sandbox.path s (.checking point)) :
    Contents w.plan w.sandbox.path s (w.stopped e point).pc := by
  cases point with
  | dwell d stop => exact interrupted_contents e h
  | dwell_end d => exact interrupted_contents e h
  | entry =>
    have hempty : s = some (.dir []) := h
    exact ⟨hempty ▸ emptied_dir _, stood_error e⟩
  | canary_start => exact ⟨h.2 ▸ emptied_dir _, stood_error e⟩
  | canary_file i bytes => exact ⟨h.2.2.1 ▸ emptied_dir _, stood_error e⟩
  | canary_pause i bytes stop => exact ⟨h.2.2.1 ▸ emptied_dir _, stood_error e⟩

/-- The statements that leave the file system alone leave the contents what they are. -/
theorem idle_contents (hplace : make_injector w.sandbox.path = .ok ()) (hfiles : w.pc.files = false)
    (h : Contents w.plan w.sandbox.path s w.pc) : Contents w.plan w.sandbox.path s (w.step r o).pc := by
  unfold Worker.step
  cases hpc : w.pc with
  | starting | creating | rejecting =>
    rw [hpc] at h
    exact h.elim
  | making_dir | writing | injection | cleaning | removing | dropping =>
    rw [hpc] at hfiles
    cases hfiles
  | arming | injecting | leaving | settling =>
    rw [hpc] at h
    exact h
  | reporting result =>
    rw [hpc] at h
    exact h.1
  | returned cleaned =>
    rw [hpc] at h
    dsimp only
    rw [hpc]
    exact h
  | checking point =>
    rw [hpc] at h
    dsimp only
    split
    · rw [hpc]
      exact h
    · exact passed_contents h
    · exact stopped_contents _ h
  | session =>
    rw [hpc] at h
    dsimp only
    split
    · exact ⟨h.2 ▸ emptied_dir _, stood_error _⟩
    · exact h
  | reverting waited =>
    rw [hpc] at h
    cases waited with
    | error e => exact ⟨h.2 ▸ emptied_dir _, stood_error e⟩
    | ok _ => exact ⟨h.2 ▸ emptied_dir _, stood_ok (stands_latency h.1)⟩
  | making_canary =>
    rw [hpc] at h
    dsimp only
    rw [hplace]
    exact h
  | making_injector =>
    rw [hpc] at h
    dsimp only
    rw [hplace]
    exact h
  | pausing i bytes stop =>
    rw [hpc] at h
    dsimp only
    split
    · exact h
    · exact next_file_contents h.1 h.2.1 h.2.2
  | waiting d stop =>
    rw [hpc] at h
    dsimp only
    split <;> exact h

/-- The report of a completed run tells the counts of its files. -/
theorem Own.report (h : Own w s) {result : Except InjectError Report} (hpc : w.pc = .reporting result) :
    Own (w.step r o) s := by
  obtain ⟨hreq, hplan⟩ := step_request w r o
  have hcontents := h.contents
  rw [hpc] at hcontents
  obtain ⟨hemptied, hstood⟩ := hcontents
  unfold Worker.step
  rw [hpc]
  refine ⟨h.path, h.present, hemptied, fun ev hev => ?_⟩
  rcases List.mem_append.mp hev with hev | hev
  · exact h.told ev hev
  · obtain rfl := List.mem_singleton.mp hev
    intro hcompleted
    cases herror : w.cleanup_error with
    | some error =>
      rw [herror] at hcompleted
      exact absurd hcompleted (by decide : EventKind.Failed.number ≠ EventKind.Completed.number)
    | none =>
      rw [herror] at hcompleted
      cases result with
      | error e => exact absurd (completed_of_number hcompleted) (terminal_error_kind e)
      | ok report =>
        obtain ⟨files, hstands⟩ := hstood report rfl
        exact ⟨files, report, hstands, rfl, rfl⟩

/-- A statement that leaves the file system alone. -/
theorem Own.idle (h : Own w s) (hplace : Placeable w.plan w.req) (hfiles : w.pc.files = false) :
    Own (w.step r o) s := by
  have hmake : make_injector w.sandbox.path = .ok () := by
    rw [h.path]
    exact hplace.make_injector
  have hcreating : w.pc ≠ .creating := by
    intro hpc
    rw [hpc] at hfiles
    cases hfiles
  by_cases hreporting : ∃ result, w.pc = .reporting result
  · obtain ⟨result, hpc⟩ := hreporting
    exact h.report hpc
  · exact h.stepped hcreating (fun result hpc => hreporting ⟨result, hpc⟩) ((step_dir hfiles).trans h.present)
      (idle_contents hmake hfiles h.contents)

section

variable {ι : Type} {fault : ι → Option (Fault Component)} {α : Type}

/-- Where a statement of the run leads, by what it has come to. -/
def Owns (w : Worker) (effect : Effect) (s : Option (FsTree Component)) : Prop :=
  ∀ r o, Own (w.step r (effect.outcome o s)) s

theorem wp_result {base : FsPath} {x : Io α} {Ok : α → Option (FsTree Component) → Prop}
    {Err : Option (FsTree Component) → Prop}
    (hx : x.Meets fault base Ok Err s) {f : Except InjectError α → Effect}
    (hok : ∀ a t, Ok a t → Owns w (f (.ok a)) t) (herr : ∀ e t, Err t → Owns w (f (.error e)) t) :
    (x.run >>= fun result => .done (f result)).wp (fun i => act base (fault i)) (Below base) (Owns w) s := by
  refine Program.wp_bind (Program.wp.mono hx fun result t ht => ?_)
  cases result with
  | ok a => exact hok a t ht
  | error e => exact herr e t ht

/-- The removal of a sandbox, which is there or not. -/
theorem sandbox_cleanup_meets {sandbox : Sandbox} (h : Emptied s) :
    sandbox.cleanup.wp (fun i => act (components sandbox.path) (fault i)) (Below (components sandbox.path))
      (fun result t => (result = .ok () ∧ t = none) ∨
        (∃ e, result = .error e) ∧ s.isSome = true ∧ ∃ entries, t = some (.dir entries)) s := by
  refine wp_base.mpr fun i => ?_
  obtain rfl | ⟨entries, rfl⟩ := h.cases
  · cases hfault : fault i with
    | none => exact Or.inl ⟨rfl, rfl⟩
    | some f => exact Or.inl ⟨rfl, rfl⟩
  · cases hfault : fault i with
    | none => exact Or.inl ⟨rfl, rfl⟩
    | some f =>
      have hdir : node [] (prune f.removed (some (.dir entries))) = some .dir := node_prune _ _
      obtain ⟨left, hleft⟩ := node_dir hdir
      exact Or.inr ⟨⟨_, rfl⟩, rfl, left, hleft⟩

/-- Removing the sandbox, at the end of a run or when it is dropped. -/
theorem Own.remove (h : Own w s) (hpc : (∃ result, w.pc = .removing result) ∨ ∃ cleaned, w.pc = .dropping cleaned)
    (hemptied : Emptied s) (hcontents : ∀ t r o, Emptied t → Contents w.plan w.sandbox.path t (w.step r o).pc) :
    (w.sandbox.cleanup >>= fun result => .done (.removed result)).wp
      (fun i => act (components w.sandbox.path) (fault i)) (Below (components w.sandbox.path)) (Owns w) s := by
  have hcreating : w.pc ≠ .creating := by
    obtain ⟨_, hpc⟩ | ⟨_, hpc⟩ := hpc <;> rw [hpc] <;> exact Pc.noConfusion
  have hreporting (result : Except InjectError Report) : w.pc ≠ .reporting result := by
    obtain ⟨_, hpc⟩ | ⟨_, hpc⟩ := hpc <;> rw [hpc] <;> exact Pc.noConfusion
  have hdir (r : Reading) (o : Outcome) : (w.step r o).dir = (w.dir && !(w.remove_dir_all o).isOk) := by
    obtain ⟨_, hpc⟩ | ⟨_, hpc⟩ := hpc
    · unfold Worker.step
      rw [hpc]
      dsimp only
      split <;> rfl
    · unfold Worker.step
      rw [hpc]
      rfl
  refine Program.wp_bind (Program.wp.mono (sandbox_cleanup_meets hemptied) ?_)
  rintro result t (⟨rfl, rfl⟩ | ⟨⟨e, rfl⟩, hsome, entries, rfl⟩) r o
  · refine h.stepped hcreating hreporting ?_ (hcontents none _ _ emptied_none)
    rw [hdir, Worker.remove_dir_all]
    cases w.dir <;> rfl
  · refine h.stepped hcreating hreporting ?_ (hcontents _ _ _ (emptied_dir entries))
    rw [hdir, Worker.remove_dir_all, h.present, hsome]
    rfl

/-- The directory is there and empty. -/
theorem Own.make_dir (h : Own w s) (habsolute : w.sandbox.path.head? = some separator) (hpc : w.pc = .making_dir)
    (fault : ι → Option (Fault Component)) :
    w.statement.wp (fun i => act (components w.sandbox.path) (fault i)) (Below (components w.sandbox.path))
      (Owns w) s := by
  have hcontents := h.contents
  have hpresent := h.present
  have hcreating : w.pc ≠ .creating := by rw [hpc]; exact Pc.noConfusion
  have hreporting (result : Except InjectError Report) : w.pc ≠ .reporting result := by rw [hpc]; exact Pc.noConfusion
  rw [hpc] at hcontents
  obtain ⟨hcanary, rfl⟩ := hcontents
  unfold Worker.statement
  rw [hpc]
  refine wp_result (create_empty_meets habsolute fault []) ?_ ?_
  · rintro _ _ rfl r o
    refine h.stepped hcreating hreporting ?_ ?_
    · unfold Worker.step
      rw [hpc]
      exact (next_file_frame w 0 0 r).1.trans hpresent
    · unfold Worker.step
      rw [hpc]
      exact next_file_contents hcanary (Nat.zero_le _) ⟨rfl, by simp⟩
  · rintro e t ⟨entries, rfl, -⟩ r o
    refine h.stepped hcreating hreporting ?_ ?_
    · unfold Worker.step
      rw [hpc]
      exact hpresent
    · unfold Worker.step
      rw [hpc]
      exact ⟨emptied_dir entries, stood_error _⟩

/-- One more decoy file. -/
theorem Own.write (h : Own w s) (habsolute : w.sandbox.path.head? = some separator) {i bytes : Nat}
    (hpc : w.pc = .writing i bytes) (fault : ι → Option (Fault Component)) :
    w.statement.wp (fun i => act (components w.sandbox.path) (fault i)) (Below (components w.sandbox.path))
      (Owns w) s := by
  have hcontents := h.contents
  have hpresent := h.present
  have hcreating : w.pc ≠ .creating := by rw [hpc]; exact Pc.noConfusion
  have hreporting (result : Except InjectError Report) : w.pc ≠ .reporting result := by rw [hpc]; exact Pc.noConfusion
  rw [hpc] at hcontents
  obtain ⟨hcanary, hlt, rfl, rfl⟩ := hcontents
  have hnames (j : Nat) (hj : j ∈ List.range (i + 1)) :
      CanaryInjector.file_name j ∈ (List.range (i + 1)).map CanaryInjector.file_name := List.mem_map_of_mem hj
  have hlitter : Litter (normals ((List.range (i + 1)).map CanaryInjector.file_name))
      (some (.dir (CanaryInjector.files w.plan.chunk_size_kb.toNat (List.range i)).entries)) := by
    refine ⟨_, rfl, fun e he => ?_⟩
    obtain ⟨f, hf, rfl⟩ := List.mem_map.mp he
    obtain ⟨j, hj, rfl⟩ := List.mem_map.mp hf
    refine ⟨mem_normals (hnames j ?_), _, rfl⟩
    rw [List.mem_range] at hj ⊢
    omega
  have hfresh : CanaryInjector.file_name i ∉
    (CanaryInjector.files w.plan.chunk_size_kb.toNat (List.range i)).names := by
    rw [CanaryInjector.files_names]
    intro hmem
    obtain ⟨j, hj, hsame⟩ := List.mem_map.mp hmem
    obtain rfl := CanaryInjector.file_name_injective hsame
    exact absurd (List.mem_range.mp hj) (Nat.lt_irrefl j)
  have hmore : Files.entries (CanaryInjector.files w.plan.chunk_size_kb.toNat (List.range i) ++
      [(CanaryInjector.file_name i, CanaryInjector.encrypted w.plan.chunk_size_kb.toNat)]) =
      (CanaryInjector.files w.plan.chunk_size_kb.toNat (List.range (i + 1))).entries := by
    rw [List.range_succ]
    simp [CanaryInjector.files]
  unfold Worker.statement
  rw [hpc]
  refine wp_result (CanaryInjector.encrypt_file_meets habsolute hlitter (hnames i (by simp))
    (lookup_entries hfresh)) ?_ ?_
  · rintro read _ ⟨rfl, rfl⟩ r o
    rw [put_entries hfresh, hmore]
    refine h.stepped hcreating hreporting ?_ ?_
    · unfold Worker.step
      rw [hpc]
      exact hpresent
    · unfold Worker.step
      rw [hpc]
      refine ⟨hcanary, hlt, rfl, ?_⟩
      grind
  · rintro e t ⟨entries, rfl, -⟩ r o
    refine h.stepped hcreating hreporting ?_ ?_
    · unfold Worker.step
      rw [hpc]
      exact hpresent
    · unfold Worker.step
      rw [hpc]
      exact ⟨emptied_dir entries, stood_error _⟩

/-- The injection of every other action. -/
theorem Own.inject (h : Own w s) (hmake : make_injector w.sandbox.path = .ok ()) (hpc : w.pc = .injection)
    (fault : ι → Option (Fault Component)) :
    w.statement.wp (fun i => act (components w.sandbox.path) (fault i)) (Below (components w.sandbox.path))
      (Owns w) s := by
  have hcontents := h.contents
  have hpresent := h.present
  have hcreating : w.pc ≠ .creating := by rw [hpc]; exact Pc.noConfusion
  have hreporting (result : Except InjectError Report) : w.pc ≠ .reporting result := by rw [hpc]; exact Pc.noConfusion
  rw [hpc] at hcontents
  obtain ⟨hlatency, hcanary, rfl⟩ := hcontents
  obtain ⟨injector, files, report, hplants⟩ := plants_of_action hlatency hcanary hmake
  have hinjector : w.injector = .ok injector := hplants.created
  unfold Worker.statement
  rw [hpc]
  dsimp only
  rw [hinjector]
  refine wp_result (hplants.injects.inject fault) ?_ ?_
  · rintro made _ ⟨rfl, rfl⟩ r o
    refine h.stepped hcreating hreporting ?_ ?_
    · unfold Worker.step
      rw [hpc]
      exact hpresent
    · unfold Worker.step
      rw [hpc]
      exact ⟨injector, files, hplants, rfl⟩
  · rintro e t hlitter r o
    refine h.stepped hcreating hreporting ?_ ?_
    · obtain ⟨entries, rfl, -⟩ := hlitter
      unfold Worker.step
      rw [hpc]
      exact hpresent
    · unfold Worker.step
      rw [hpc]
      exact ⟨injector, files, report, hplants, hlitter, nofun⟩

/-- The cleanup of the injector, which may take the directory with it. -/
theorem Own.clean (h : Own w s) {waited : Except InjectError Unit} {injected : Except InjectError Report}
    (hpc : w.pc = .cleaning waited injected) (fault : ι → Option (Fault Component)) :
    w.statement.wp (fun i => act (components w.sandbox.path) (fault i)) (Below (components w.sandbox.path))
      (Owns w) s := by
  have hcontents := h.contents
  have hpresent := h.present
  have hcreating : w.pc ≠ .creating := by rw [hpc]; exact Pc.noConfusion
  have hreporting (result : Except InjectError Report) : w.pc ≠ .reporting result := by rw [hpc]; exact Pc.noConfusion
  rw [hpc] at hcontents
  obtain ⟨injector, files, report, hplants, hlitter, hreport⟩ := hcontents
  have hinjector : w.injector = .ok injector := hplants.created
  have hdir : w.dir = true := by
    obtain ⟨entries, rfl, -⟩ := hlitter
    exact hpresent
  have hstood : Stood w.plan injected := fun made hmade => ⟨files, hreport made hmade ▸ hplants.stands⟩
  have hcleaned {t : Option (FsTree Component)} (hemptied : Emptied t) (result : Except InjectError Unit) :
      Owns w (.cleaned result) t := by
    intro r o
    refine h.stepped hcreating hreporting ?_ ?_
    · have hleft : (w.clean_injector ((Effect.cleaned result).outcome o t)).dir = (w.dir && t.isSome) := by
        cases result <;> rfl
      rw [hdir, Bool.true_and] at hleft
      unfold Worker.step
      rw [hpc]
      cases waited <;> exact hleft
    · unfold Worker.step
      rw [hpc]
      cases waited with
      | error e => exact ⟨hemptied, stood_error e⟩
      | ok _ => exact ⟨hemptied, hstood⟩
  unfold Worker.statement
  rw [hpc]
  dsimp only
  rw [hinjector]
  refine wp_result (hplants.injects.cleanup fault s (Or.inr hlitter)) ?_ ?_
  · rintro _ t (rfl | ⟨-, hresidue⟩)
    · exact hcleaned emptied_none _
    · exact hcleaned (emptied_of_residue hresidue) _
  · exact fun e t hfailed => hcleaned (emptied_of_residue hfailed.2) _

/-- Whatever fails in a statement, the sandbox of the run is as the next one expects it. -/
theorem Own.statement (h : Own w s) (hplace : Placeable w.plan w.req) (fault : ι → Option (Fault Component)) :
    w.statement.wp (fun i => act w.key (fault i)) (Below w.key) (Owns w) s := by
  have hkey : w.key = components w.sandbox.path := by rw [Worker.key, h.path]
  have habsolute : w.sandbox.path.head? = some separator := by
    obtain ⟨hhead, -⟩ := path_in_scope_components hplace.in_scope
    rw [String.toList_ofList] at hhead
    rwa [h.path]
  have hcontents := h.contents
  rw [hkey]
  cases hpc : w.pc with
  | creating =>
    rw [hpc] at hcontents
    exact hcontents.elim
  | making_dir => exact h.make_dir habsolute hpc fault
  | writing i bytes => exact h.write habsolute hpc fault
  | injection =>
    refine h.inject ?_ hpc fault
    rw [h.path]
    exact hplace.make_injector
  | cleaning waited injected => exact h.clean hpc fault
  | removing result =>
    rw [hpc] at hcontents
    have hstatement : w.statement = w.sandbox.cleanup >>= fun result => .done (.removed result) := by
      unfold Worker.statement
      rw [hpc]
    rw [hstatement]
    refine h.remove (Or.inl ⟨result, hpc⟩) hcontents.1 fun t r o ht => ?_
    unfold Worker.step
    rw [hpc]
    dsimp only
    split <;> exact ⟨ht, hcontents.2⟩
  | dropping cleaned =>
    rw [hpc] at hcontents
    have hstatement : w.statement = w.sandbox.cleanup >>= fun result => .done (.removed result) := by
      unfold Worker.statement
      rw [hpc]
    rw [hstatement]
    refine h.remove (Or.inr ⟨cleaned, hpc⟩) hcontents fun t r o ht => ?_
    unfold Worker.step
    rw [hpc]
    exact ht
  | _ =>
    unfold Worker.statement
    rw [hpc]
    exact fun r o => h.idle hplace (by rw [hpc]; rfl)

end

end

end asmodeus.runner
