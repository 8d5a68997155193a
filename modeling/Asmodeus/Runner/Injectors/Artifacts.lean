import Asmodeus.Lib.Text
import Asmodeus.Runner.Injectors.Cleanup

open FileTree UnixPath
open asmodeus.dsl
open asmodeus.telemetry (zero_padded)

namespace asmodeus.runner

/-- Files by name. -/
abbrev Files := List (String × List UInt8)

def Files.names (files : Files) : List String := files.map Prod.fst

/-- The entries of a directory with nothing but these files. -/
def Files.entries (files : Files) : Entries := files.map fun f => (.normal f.1.toList, .file f.2)

def Files.size (files : Files) : Nat := (files.map fun f => f.2.length).sum

/-- An injector leaves these files and this report in an empty directory, or some of the files
and no report, and its cleanup takes all of them away again. -/
structure Injects (injector : ScenarioInjector) (dir : List Char) (files : Files) (report : Report) : Prop where
  inject : ∀ {ι : Type} (fault : ι → Option (Fault Component)),
    injector.inject.Meets fault (components dir) (fun r t => r = report ∧ t = some (.dir files.entries))
      (Litter (normals files.names)) (some (.dir []))
  cleanup : ∀ {ι : Type} (fault : ι → Option (Fault Component)) (s : Option (FsTree Component)),
    Residue (normals files.names) s → injector.cleanup.Meets fault (components dir)
      (fun _ t => t = none ∨ (Faulty fault ∧ Residue (normals files.names) t))
      (fun t => Faulty fault ∧ Residue (normals files.names) t) s

section

variable {ι : Type} {fault : ι → Option (Fault Component)} {dir : List Char} {entries : Entries} {names : List String}
  {name : String} {files : Files} {s : Option (FsTree Component)}

theorem litter_nil (names : List Component) : Litter names (some (.dir [])) :=
  ⟨[], rfl, fun _ he => absurd he List.not_mem_nil⟩

theorem mem_normals (hname : name ∈ names) : Component.normal name.toList ∈ normals names :=
  List.mem_map_of_mem hname

theorem litter_entries (files : Files) : Litter (normals files.names) (some (.dir files.entries)) := by
  refine ⟨files.entries, rfl, fun e he => ?_⟩
  obtain ⟨f, hf, rfl⟩ := List.mem_map.mp he
  exact ⟨mem_normals (List.mem_map_of_mem hf), f.2, rfl⟩

theorem lookup_entries (hname : name ∉ files.names) : lookup (.normal name.toList) files.entries = none := by
  rw [lookup, Option.map_eq_none_iff, KeyedList.find_eq_none]
  intro e he heq
  obtain ⟨f, hf, rfl⟩ := List.mem_map.mp he
  have hsame : f.1 = name := String.toList_inj.mp (Component.normal.inj heq)
  exact hname (hsame ▸ List.mem_map_of_mem hf)

theorem put_entries (hname : name ∉ files.names) (content : List UInt8) :
    put (.normal name.toList) files.entries content = Files.entries (files ++ [(name, content)]) := by
  rw [put_fresh (lookup_entries hname)]
  simp [Files.entries]

theorem put_nil (name : String) (content : List UInt8) :
    put (.normal name.toList) [] content = Files.entries [(name, content)] := by
  have hnone : name ∉ Files.names [] := List.not_mem_nil
  exact put_entries hnone content

variable (hpath : entry_path dir name = components dir ++ [.normal name.toList])

include hpath

theorem create_file_meets (hlitter : Litter (normals names) (some (.dir entries)))
    (hwritable : Writable (.normal name.toList) entries) :
    (Io.of (fs.create (entry_path dir name))).Meets fault (components dir)
      (fun _ t => t = some (.dir (put (.normal name.toList) entries []))) (Litter (normals names))
      (some (.dir entries)) := by
  rw [hpath]
  refine (create_meets hwritable).mono (fun _ _ h => h) ?_
  rintro _ rfl
  exact hlitter

theorem write_all_file_meets (hlitter : Litter (normals names) (some (.dir entries))) (hname : name ∈ names)
    {content : List UInt8} (hfile : lookup (.normal name.toList) entries = some (.file content)) (bytes : List UInt8) :
    (Io.of (fs.write_all (entry_path dir name) bytes)).Meets fault (components dir)
      (fun _ t => t = some (.dir (put (.normal name.toList) entries (content ++ bytes)))) (Litter (normals names))
      (some (.dir entries)) := by
  rw [hpath]
  refine (write_all_meets hfile bytes).mono (fun _ _ h => h) ?_
  rintro _ ⟨written, rfl⟩
  exact litter_put hlitter (mem_normals hname) written

theorem write_file_meets (hlitter : Litter (normals names) (some (.dir entries))) (hname : name ∈ names)
    (hwritable : Writable (.normal name.toList) entries) (bytes : List UInt8) :
    (Io.of (fs.write (entry_path dir name) bytes)).Meets fault (components dir)
      (fun _ t => t = some (.dir (put (.normal name.toList) entries bytes))) (Litter (normals names))
      (some (.dir entries)) := by
  rw [hpath]
  refine (write_meets hwritable bytes).mono (fun _ _ h => h) ?_
  rintro _ (rfl | ⟨written, rfl⟩)
  · exact hlitter
  · exact litter_put hlitter (mem_normals hname) written

theorem read_file_meets (hlitter : Litter (normals names) (some (.dir entries)))
    {content : List UInt8} (hfile : lookup (.normal name.toList) entries = some (.file content)) :
    (Io.of (fs.read (entry_path dir name))).Meets fault (components dir)
      (fun data t => data = content ∧ t = some (.dir entries)) (Litter (normals names)) (some (.dir entries)) := by
  rw [hpath]
  refine (read_meets hfile).mono (fun _ _ h => h) ?_
  rintro _ rfl
  exact hlitter

theorem metadata_file_meets (hlitter : Litter (normals names) (some (.dir entries)))
    {content : List UInt8} (hfile : lookup (.normal name.toList) entries = some (.file content)) :
    (Io.of (fs.metadata (entry_path dir name))).Meets fault (components dir)
      (fun found t => found = .file content.length ∧ t = some (.dir entries)) (Litter (normals names))
      (some (.dir entries)) := by
  rw [hpath]
  refine (metadata_meets hfile).mono (fun _ _ h => h) ?_
  rintro _ rfl
  exact hlitter

end

section

variable {ι : Type} {dir : List Char}

/-- The names of the files with a fixed one. -/
def artifact_names : List String := ["docker.sock.probe", "k8s_ns_escape.canary", "c2_beacon_events.log",
  "honeytoken_credentials.json", "canary_audit.log", "canary_cron_task.job", "staged_canary_data.tar.gz",
  "watchdog_recovery.pulse", "netchaos_session.token"]

theorem artifact_name : ∀ name ∈ artifact_names, IsName name.toList := by
  unfold IsName
  decide

theorem absolute_path (habsolute : dir.head? = some separator) {name : String} (hname : IsName name.toList) :
    entry_path dir name = components dir ++ [.normal name.toList] := by
  refine entry_path_eq ?_ hname
  rintro rfl
  cases habsolute

theorem artifact_path (habsolute : dir.head? = some separator) {name : String} (hname : name ∈ artifact_names) :
    entry_path dir name = components dir ++ [.normal name.toList] := absolute_path habsolute (artifact_name name hname)

/-- The directory is there and empty. -/
theorem create_empty_meets (habsolute : dir.head? = some separator) (fault : ι → Option (Fault Component))
    (names : List Component) :
    (create_dir_all dir).Meets fault (components dir) (fun _ t => t = some (.dir [])) (Litter names)
    (some (.dir [])) := by
  have hcomponents : components dir ≠ [] := by
    rw [components, headComponent, if_pos habsolute]
    exact List.cons_ne_nil _ _
  refine (create_dir_all_meets hcomponents).mono (fun _ _ h => h) ?_
  rintro _ rfl
  exact litter_nil names

end

namespace CanaryInjector

theorem digitsValue_zero_padded (width n : Nat) : Text.digitsValue (zero_padded width n).toList = n := by
  have hzeros (k : Nat) (digits : List Char) : Text.digitsValue (List.replicate k '0' ++ digits) =
    Text.digitsValue digits := by
    induction k with
    | zero => rfl
    | succ k ih => exact ih
  rw [zero_padded, String.toList_ofList, hzeros, Text.digitsValue_toDigits]

theorem zero_padded_digits (width n : Nat) : ∀ c ∈ (zero_padded width n).toList, c.isDigit = true := by
  intro c hc
  rw [zero_padded, String.toList_ofList, List.mem_append] at hc
  obtain hzero | hdigit := hc
  · rw [(List.mem_replicate.mp hzero).2]
    rfl
  · exact List.all_eq_true.mp (Text.toDigits_all_isDigit n) c hdigit

theorem file_name_injective {i j : Nat} (h : file_name i = file_name j) : i = j := by
  have htext := congrArg String.toList h
  simp only [file_name, String.toList_append, List.append_cancel_right_eq, List.append_cancel_left_eq] at htext
  rw [← digitsValue_zero_padded 3 i, htext, digitsValue_zero_padded]

theorem file_name_name (i : Nat) : IsName (file_name i).toList := by
  have hfront : ∃ rest, (file_name i).toList = 'c' :: 'a' :: rest := by
    rw [file_name, String.toList_append, String.toList_append]
    exact ⟨_, rfl⟩
  obtain ⟨rest, hrest⟩ := hfront
  refine ⟨by simp [hrest], by simp [hrest], by simp [hrest], fun hmem => ?_⟩
  rw [file_name, String.toList_append, String.toList_append, List.mem_append, List.mem_append] at hmem
  obtain (hmem | hmem) | hmem := hmem
  · exact absurd hmem (by decide)
  · exact absurd (zero_padded_digits 3 i _ hmem) (by decide)
  · exact absurd hmem (by decide)

/-- The content of a canary file after its pass. -/
def encrypted (chunk_size_kb : Nat) : List UInt8 := (chunk chunk_size_kb).map (· ^^^ XOR_KEY)

/-- A second pass restores the plain text. -/
theorem encrypted_reversible (chunk_size_kb : Nat) :
    (encrypted chunk_size_kb).map (· ^^^ XOR_KEY) = chunk chunk_size_kb := by
  rw [encrypted, List.map_map]
  refine (List.map_congr_left fun b _ => ?_).trans (List.map_id _)
  rw [Function.comp_apply, UInt8.xor_assoc, UInt8.xor_self, UInt8.xor_zero, id]

/-- The files of some passes. -/
def files (chunk_size_kb : Nat) (indices : List Nat) : Files := indices.map fun i =>
    (file_name i, encrypted chunk_size_kb)

theorem files_names (chunk_size_kb : Nat) (indices : List Nat) :
    (files chunk_size_kb indices).names = indices.map file_name := by
  rw [files, Files.names, List.map_map]
  rfl

section

variable {ι : Type} {fault : ι → Option (Fault Component)} {dir : List Char} {chunk_size_kb : Nat} {names : List String}

/-- One file and its pass, beside the ones before. -/
theorem encrypt_file_meets (habsolute : dir.head? = some separator) {i : Nat} {entries : Entries}
    (hlitter : Litter (normals names) (some (.dir entries))) (hname : file_name i ∈ names)
    (hfresh : lookup (.normal (file_name i).toList) entries = none) :
    (encrypt_file dir chunk_size_kb i).Meets fault (components dir)
      (fun read t => read = chunk_size_kb * 1024 ∧
        t = some (.dir (put (.normal (file_name i).toList) entries (encrypted chunk_size_kb))))
      (Litter (normals names)) (some (.dir entries)) := by
  have hpath := absolute_path habsolute (file_name_name i)
  have hput (content : List UInt8) := litter_put hlitter (mem_normals hname) content
  unfold encrypt_file
  refine Io.meets_bind (create_file_meets hpath hlitter (Or.inl hfresh)) ?_
  rintro _ _ rfl
  refine Io.meets_bind (write_all_file_meets hpath (hput []) hname (lookup_put_self _ _ _) _) ?_
  rintro _ _ rfl
  rw [put_put, List.nil_append]
  refine Io.meets_bind (read_file_meets hpath (hput _) (lookup_put_self _ _ _)) ?_
  rintro data _ ⟨rfl, rfl⟩
  refine Io.meets_bind (write_file_meets hpath (hput _) hname (writable_put _ _ _) _) ?_
  rintro _ _ rfl
  rw [put_put]
  exact Io.meets_pure ⟨by simp [chunk], rfl⟩

theorem encrypt_files_meets (habsolute : dir.head? = some separator) {before rest : List Nat}
    (hnodup : (before ++ rest).Nodup) (hnames : ∀ i ∈ before ++ rest, file_name i ∈ names) (bytes : Nat) :
    (encrypt_files dir chunk_size_kb rest bytes).Meets fault (components dir)
      (fun written t => written = bytes + 2 * (rest.length * (chunk_size_kb * 1024)) ∧
        t = some (.dir (files chunk_size_kb (before ++ rest)).entries))
      (Litter (normals names)) (some (.dir (files chunk_size_kb before).entries)) := by
  induction rest generalizing before bytes with
  | nil => exact Io.meets_pure ⟨by simp, by rw [List.append_nil]⟩
  | cons i rest ih =>
    have hfresh : file_name i ∉ (files chunk_size_kb before).names := by
      rw [files_names]
      intro hmem
      obtain ⟨j, hj, hsame⟩ := List.mem_map.mp hmem
      obtain rfl := file_name_injective hsame
      exact (List.nodup_append.mp hnodup).2.2 j hj j List.mem_cons_self rfl
    have hlitter : Litter (normals names) (some (.dir (files chunk_size_kb before).entries)) := by
      refine ⟨_, rfl, fun e he => ?_⟩
      obtain ⟨f, hf, rfl⟩ := List.mem_map.mp he
      obtain ⟨j, hj, rfl⟩ := List.mem_map.mp hf
      exact ⟨mem_normals (hnames j (List.mem_append_left _ hj)), _, rfl⟩
    have hmem : file_name i ∈ names := hnames i (List.mem_append_right _ List.mem_cons_self)
    rw [encrypt_files]
    refine Io.meets_bind (encrypt_file_meets habsolute hlitter hmem (lookup_entries hfresh)) ?_
    rintro read _ ⟨rfl, rfl⟩
    have hnext : Files.entries (files chunk_size_kb before ++ [(file_name i, encrypted chunk_size_kb)]) =
        (files chunk_size_kb (before ++ [i])).entries := by
      simp [files]
    rw [put_entries hfresh, hnext]
    have hassoc : before ++ i :: rest = (before ++ [i]) ++ rest := by simp
    rw [hassoc] at hnodup hnames
    refine (ih hnodup hnames _).mono ?_ fun _ h => h
    rintro written _ ⟨rfl, rfl⟩
    have hsize : (chunk chunk_size_kb).length = chunk_size_kb * 1024 := List.length_replicate
    refine ⟨?_, by rw [hassoc]⟩
    rw [hsize, List.length_cons]
    grind

end

end CanaryInjector

end asmodeus.runner
