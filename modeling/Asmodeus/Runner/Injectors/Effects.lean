import Asmodeus.Runner.Injectors.Artifacts

open FileTree UnixPath
open asmodeus.dsl

namespace asmodeus.runner

section

variable {dir : List Char} {s : Option (FsTree Component)} {names : List Component} {ι : Type}

theorem litter_prune (removed : List (Component × List Component)) (h : Litter names s) :
    Litter names (prune removed s) := by
  induction removed generalizing s with
  | nil => exact h
  | cons path removed ih =>
    refine ih ?_
    obtain ⟨name, rest⟩ := path
    obtain ⟨entries, rfl, hentries⟩ := h
    change Litter names (some (.dir (assign name entries (alter (fun _ => none) rest (lookup name entries)))))
    have hremoved : Litter names (some (.dir (assign name entries none))) :=
      ⟨_, rfl, fun e he => hentries e (mem_removed he).1⟩
    cases rest with
    | nil => exact hremoved
    | cons other below =>
      cases hfound : lookup name entries with
      | none => exact hremoved
      | some t =>
        obtain ⟨e, hmem, rfl⟩ : ∃ e ∈ entries, e.2 = t := by
          obtain ⟨e, he, rfl⟩ := Option.map_eq_some_iff.mp hfound
          exact ⟨e, (KeyedList.find_some he).1, rfl⟩
        obtain ⟨content, hcontent⟩ := (hentries e hmem).2
        rw [hcontent] at hfound ⊢
        change Litter names (some (.dir (assign name entries (some (.file content)))))
        rw [← hfound, assign_lookup]
        exact ⟨entries, rfl, hentries⟩

/-- The cleanup of the canary takes the whole directory. -/
theorem canary_cleanup_meets (fault : ι → Option (Fault Component)) (h : Residue names s) :
    (CanaryInjector.cleanup dir).Meets fault (components dir) (fun _ t => t = none ∨ (Faulty fault ∧ Residue names t))
      (fun t => Faulty fault ∧ Residue names t) s := by
  unfold CanaryInjector.cleanup
  refine Io.meets_bind (Io.meets_lift (path_exists_meets s)) ?_
  rintro found _ ⟨rfl, hfound | ⟨hfaulty, rfl⟩⟩
  · obtain rfl | ⟨entries, rfl, hentries⟩ := h
    · subst hfound
      exact Or.inl rfl
    · subst hfound
      refine Io.meets_of (fun result t => match result with
        | .ok _ => t = none
        | .error _ => Faulty fault ∧ Residue names t) (wp_base.mpr fun i => ?_) (fun _ _ h => Or.inl h) fun _ _ h => h
      cases hfault : fault i with
      | none => rfl
      | some f => exact ⟨⟨i, by simp [hfault]⟩, Or.inr (litter_prune f.removed ⟨entries, rfl, hentries⟩)⟩
  · exact Or.inr ⟨hfaulty, h⟩

theorem files_cleanup_meets {files : List String} (habsolute : dir.head? = some separator)
    (hnames : files ⊆ artifact_names) (fault : ι → Option (Fault Component)) (s : Option (FsTree Component))
    (h : Residue (normals files) s) :
    (cleanup_files dir files).Meets fault (components dir)
      (fun _ t => t = none ∨ (Faulty fault ∧ Residue (normals files) t))
      (fun t => Faulty fault ∧ Residue (normals files) t) s :=
  cleanup_files_meets (fun _ hname => artifact_path habsolute (hnames hname)) h

theorem canary_injects (habsolute : dir.head? = some separator) (file_count chunk_size_kb : Nat) :
    Injects ⟨CanaryInjector.inject dir file_count chunk_size_kb, CanaryInjector.cleanup dir⟩ dir
      (CanaryInjector.files chunk_size_kb (List.range file_count))
      ⟨file_count, 2 * (file_count * (chunk_size_kb * 1024))⟩ where
  inject fault := by
    unfold CanaryInjector.inject
    dsimp only
    refine Io.meets_bind (create_empty_meets habsolute fault _) ?_
    rintro _ _ rfl
    have hnames : ∀ i ∈ [] ++ List.range file_count, CanaryInjector.file_name i ∈
        (CanaryInjector.files chunk_size_kb (List.range file_count)).names := by
      intro i hi
      rw [CanaryInjector.files_names]
      exact List.mem_map_of_mem hi
    refine Io.meets_bind (CanaryInjector.encrypt_files_meets habsolute List.nodup_range hnames 0) ?_
    rintro written _ ⟨rfl, rfl⟩
    exact Io.meets_pure ⟨by rw [List.length_range, Nat.zero_add], rfl⟩
  cleanup fault _ h := canary_cleanup_meets fault h

theorem k8s_injects (habsolute : dir.head? = some separator) :
    Injects ⟨K8sEscapeInjector.inject dir, K8sEscapeInjector.cleanup dir⟩ dir
      [("docker.sock.probe", K8sEscapeInjector.probe_socket), ("k8s_ns_escape.canary", K8sEscapeInjector.probe_ns)]
      ⟨2, K8sEscapeInjector.probe_socket.length + K8sEscapeInjector.probe_ns.length⟩ where
  inject fault := by
    have hsocket : entry_path dir "docker.sock.probe" = components dir ++ [.normal "docker.sock.probe".toList] :=
      artifact_path habsolute (by simp [artifact_names])
    have hns : entry_path dir "k8s_ns_escape.canary" = components dir ++ [.normal "k8s_ns_escape.canary".toList] :=
      artifact_path habsolute (by simp [artifact_names])
    have hother : "k8s_ns_escape.canary" ∉ Files.names [("docker.sock.probe", K8sEscapeInjector.probe_socket)] := by
      simp [Files.names]
    unfold K8sEscapeInjector.inject
    dsimp only
    refine Io.meets_bind (create_empty_meets habsolute fault _) ?_
    rintro _ _ rfl
    refine Io.meets_bind (write_file_meets hsocket (litter_nil _) (by simp [Files.names]) (Or.inl rfl) _) ?_
    rintro _ _ rfl
    have hmem : "docker.sock.probe" ∈ Files.names
        [("docker.sock.probe", K8sEscapeInjector.probe_socket),
          ("k8s_ns_escape.canary", K8sEscapeInjector.probe_ns)] := by
      simp [Files.names]
    have hlitter := litter_put (litter_nil _) (mem_normals hmem) K8sEscapeInjector.probe_socket
    rw [put_nil] at hlitter ⊢
    refine Io.meets_bind (write_file_meets hns hlitter (by simp [Files.names]) (Or.inl (lookup_entries hother)) _) ?_
    rintro _ _ rfl
    rw [put_entries hother]
    have hread : lookup (.normal "docker.sock.probe".toList) (Files.entries [("docker.sock.probe",
        K8sEscapeInjector.probe_socket), ("k8s_ns_escape.canary", K8sEscapeInjector.probe_ns)]) =
        some (.file K8sEscapeInjector.probe_socket) := rfl
    have hread' : lookup (.normal "k8s_ns_escape.canary".toList) (Files.entries [("docker.sock.probe",
        K8sEscapeInjector.probe_socket), ("k8s_ns_escape.canary", K8sEscapeInjector.probe_ns)]) =
        some (.file K8sEscapeInjector.probe_ns) := rfl
    refine Io.meets_bind (metadata_file_meets hsocket (litter_entries _) hread) ?_
    rintro _ _ ⟨rfl, rfl⟩
    refine Io.meets_bind (metadata_file_meets hns (litter_entries _) hread') ?_
    rintro _ _ ⟨rfl, rfl⟩
    exact Io.meets_pure ⟨rfl, rfl⟩
  cleanup := files_cleanup_meets habsolute (by simp [artifact_names, Files.names])

/-- The injectors that write one file. -/
theorem write_one_meets (habsolute : dir.head? = some separator) {name : String} (hname : name ∈ artifact_names)
    (bytes : List UInt8) (report : Report) (fault : ι → Option (Fault Component)) :
    (do create_dir_all dir; Io.of (fs.write (entry_path dir name) bytes); return report : Io Report).Meets fault
      (components dir) (fun r t => r = report ∧ t = some (.dir (Files.entries [(name, bytes)])))
      (Litter (normals (Files.names [(name, bytes)]))) (some (.dir [])) := by
  refine Io.meets_bind (create_empty_meets habsolute fault _) ?_
  rintro _ _ rfl
  refine Io.meets_bind (write_file_meets (artifact_path habsolute hname) (litter_nil _) (by simp [Files.names])
    (Or.inl rfl)
    bytes) ?_
  rintro _ _ rfl
  rw [put_nil]
  exact Io.meets_pure ⟨rfl, rfl⟩

theorem beacons_meets (habsolute : dir.head? = some separator) {name : String} (hname : name ∈ artifact_names)
    (indices : List Nat) (content : List UInt8) (bytes : Nat) (fault : ι → Option (Fault Component)) :
    (C2BeaconInjector.beacons (entry_path dir name) indices bytes).Meets fault (components dir)
      (fun written t => written = bytes + (indices.flatMap C2BeaconInjector.entry).length ∧
        t = some (.dir (Files.entries [(name, content ++ indices.flatMap C2BeaconInjector.entry)])))
      (Litter (normals [name])) (some (.dir (Files.entries [(name, content)]))) := by
  induction indices generalizing content bytes with
  | nil => exact Io.meets_pure ⟨rfl, by rw [List.flatMap_nil, List.append_nil]⟩
  | cons i rest ih =>
    rw [C2BeaconInjector.beacons, ← put_nil]
    have hmem : name ∈ [name] := List.mem_singleton_self name
    refine Io.meets_bind (write_all_file_meets (artifact_path habsolute hname)
      (litter_put (litter_nil _) (mem_normals hmem) content) hmem (lookup_put_self _ _ _) _) ?_
    rintro _ _ rfl
    rw [put_put, put_nil]
    refine (ih _ _).mono ?_ fun _ h => h
    rintro written _ ⟨rfl, rfl⟩
    rw [List.flatMap_cons, List.length_append, List.append_assoc]
    exact ⟨by omega, rfl⟩

theorem c2_injects (habsolute : dir.head? = some separator) (beacon_count : Nat) :
    Injects ⟨C2BeaconInjector.inject dir beacon_count, C2BeaconInjector.cleanup dir⟩ dir
      [("c2_beacon_events.log", (List.range beacon_count).flatMap C2BeaconInjector.entry)]
      ⟨1, ((List.range beacon_count).flatMap C2BeaconInjector.entry).length⟩ where
  inject fault := by
    have hname : "c2_beacon_events.log" ∈ artifact_names := by simp [artifact_names]
    unfold C2BeaconInjector.inject
    dsimp only
    refine Io.meets_bind (create_empty_meets habsolute fault _) ?_
    rintro _ _ rfl
    refine Io.meets_bind (create_file_meets (artifact_path habsolute hname) (litter_nil _) (Or.inl rfl)) ?_
    rintro _ _ rfl
    rw [put_nil]
    refine Io.meets_bind (beacons_meets habsolute hname _ [] 0 fault) ?_
    rintro written _ ⟨rfl, rfl⟩
    exact Io.meets_pure ⟨by rw [Nat.zero_add], by rw [List.nil_append]⟩
  cleanup := files_cleanup_meets habsolute (by simp [artifact_names, Files.names])

theorem credential_injects (habsolute : dir.head? = some separator) :
    Injects ⟨CredentialAccessInjector.inject dir, CredentialAccessInjector.cleanup dir⟩ dir
      [("honeytoken_credentials.json", CredentialAccessInjector.content)]
      ⟨1, CredentialAccessInjector.content.length⟩ where
  inject fault := by
    have hname : "honeytoken_credentials.json" ∈ artifact_names := by simp [artifact_names]
    refine Io.meets_bind (create_empty_meets habsolute fault _) ?_
    rintro _ _ rfl
    refine Io.meets_bind (write_file_meets (artifact_path habsolute hname) (litter_nil _) (by simp [Files.names])
      (Or.inl rfl)
      _) ?_
    rintro _ _ rfl
    rw [put_nil]
    have hread : lookup (.normal "honeytoken_credentials.json".toList)
        (Files.entries [("honeytoken_credentials.json", CredentialAccessInjector.content)]) =
        some (.file CredentialAccessInjector.content) := rfl
    refine Io.meets_bind (read_file_meets (artifact_path habsolute hname) (litter_entries _) hread) ?_
    rintro _ _ ⟨rfl, rfl⟩
    exact Io.meets_pure ⟨rfl, rfl⟩
  cleanup := files_cleanup_meets habsolute (by simp [artifact_names, Files.names])

/-- The first version of the log is wiped, and one byte more than its second has is reported. -/
theorem log_tamper_injects (habsolute : dir.head? = some separator) :
    Injects ⟨LogTamperInjector.inject dir, LogTamperInjector.cleanup dir⟩ dir
      [("canary_audit.log", LogTamperInjector.tampered)]
      ⟨1, LogTamperInjector.initial_content.length + LogTamperInjector.tampered.length + 1⟩ where
  inject fault := by
    have hname : "canary_audit.log" ∈ artifact_names := by simp [artifact_names]
    have hlength : LogTamperInjector.tampered.length = 34 := by decide +kernel
    refine Io.meets_bind (create_empty_meets habsolute fault _) ?_
    rintro _ _ rfl
    refine Io.meets_bind (write_file_meets (artifact_path habsolute hname) (litter_nil _) (by simp [Files.names])
      (Or.inl rfl)
      _) ?_
    rintro _ _ rfl
    refine Io.meets_bind (write_file_meets (artifact_path habsolute hname)
      (litter_put (litter_nil _) (mem_normals (by simp [Files.names])) _) (by simp [Files.names])
        (writable_put _ _ _) _) ?_
    rintro _ _ rfl
    rw [put_put, put_nil]
    exact Io.meets_pure ⟨by rw [hlength], rfl⟩
  cleanup := files_cleanup_meets habsolute (by simp [artifact_names, Files.names])

theorem cron_injects (habsolute : dir.head? = some separator) :
    Injects ⟨PersistenceCronInjector.inject dir, PersistenceCronInjector.cleanup dir⟩ dir
      [("canary_cron_task.job", PersistenceCronInjector.cron_content)]
        ⟨1, PersistenceCronInjector.cron_content.length⟩ where
  inject := write_one_meets habsolute (by simp [artifact_names]) _ _
  cleanup := files_cleanup_meets habsolute (by simp [artifact_names, Files.names])

theorem exfiltration_injects (habsolute : dir.head? = some separator) (chunk_kb : Nat) :
    Injects ⟨DataExfiltrationInjector.inject dir chunk_kb, DataExfiltrationInjector.cleanup dir⟩ dir
      [("staged_canary_data.tar.gz", DataExfiltrationInjector.content chunk_kb)] ⟨1, chunk_kb * 1024⟩ where
  inject fault := by
    have hname : "staged_canary_data.tar.gz" ∈ artifact_names := by simp [artifact_names]
    unfold DataExfiltrationInjector.inject
    dsimp only
    refine Io.meets_bind (create_empty_meets habsolute fault _) ?_
    rintro _ _ rfl
    refine Io.meets_bind (create_file_meets (artifact_path habsolute hname) (litter_nil _) (Or.inl rfl)) ?_
    rintro _ _ rfl
    refine Io.meets_bind (write_all_file_meets (artifact_path habsolute hname)
      (litter_put (litter_nil _) (mem_normals (by simp [Files.names])) []) (by simp [Files.names])
        (lookup_put_self _ _ _) _) ?_
    rintro _ _ rfl
    rw [put_put, put_nil, List.nil_append]
    exact Io.meets_pure ⟨rfl, rfl⟩
  cleanup := files_cleanup_meets habsolute (by simp [artifact_names, Files.names])

theorem defense_injects (habsolute : dir.head? = some separator) :
    Injects ⟨DefenseImpairmentInjector.inject dir, DefenseImpairmentInjector.cleanup dir⟩ dir
      [("watchdog_recovery.pulse", DefenseImpairmentInjector.marker)] ⟨1, DefenseImpairmentInjector.marker.length⟩ where
  inject := write_one_meets habsolute (by simp [artifact_names]) _ _
  cleanup := files_cleanup_meets habsolute (by simp [artifact_names, Files.names])

/-- The marker of a session, where one is started. -/
def session_marker (token : Nat) : List UInt8 := utf8 ("token=" ++ toString token)

theorem net_chaos_injects (habsolute : dir.head? = some separator) (spec : NetChaosSpec)
    (apply : Except NetChaosError Nat) :
    ∃ token, Injects ⟨NetChaosInjector.inject dir spec apply, NetChaosInjector.cleanup dir⟩ dir
      [("netchaos_session.token", session_marker token)] ⟨1, 16⟩ := by
  have hname : "netchaos_session.token" ∈ artifact_names := by simp [artifact_names]
  cases hstart : spec.start apply with
  | error e =>
    refine ⟨0, ⟨fun fault => ?_, files_cleanup_meets habsolute (by simp [artifact_names, Files.names])⟩⟩
    unfold NetChaosInjector.inject
    rw [hstart]
    refine Io.meets_bind (create_empty_meets habsolute fault _) ?_
    rintro _ _ rfl
    exact Io.meets_throw (litter_nil _)
  | ok handle =>
    refine ⟨handle.token, ⟨fun fault => ?_, files_cleanup_meets habsolute (by simp [artifact_names, Files.names])⟩⟩
    unfold NetChaosInjector.inject
    rw [hstart]
    refine Io.meets_bind (create_empty_meets habsolute fault _) ?_
    rintro _ _ rfl
    refine Io.meets_bind (write_file_meets (artifact_path habsolute hname) (litter_nil _) (by simp [Files.names])
      (Or.inl rfl)
      _) ?_
    rintro _ _ rfl
    rw [put_nil]
    exact Io.meets_pure ⟨rfl, rfl⟩

end

end asmodeus.runner
