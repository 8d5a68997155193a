import Asmodeus.Runner.ProcedureLocal.Exchanges

open FileTree UnixPath
open asmodeus.dsl

namespace asmodeus.runner

/-- The directory of an attempt. -/
def attempt_dir (root attempt_id : String) : FsPath := components (join root.toList attempt_id.toList)

/-- What the ledger holds in the end. -/
def reservation (root : String) (config : LocalProcedureConfig) (started_unix_ms : Nat) : List UInt8 :=
  ownership_json config ⟨join root.toList config.attempt_id.toList⟩ started_unix_ms ++ utf8 "\n"

/-- An ancestor was seen to be a directory, or made. -/
def Passed (ancestor : FsPath) (events : List Event) : Prop :=
  ⟨.file ⟨ancestor, .symlink_metadata⟩, (Except.ok .dir : Except Errno Metadata)⟩ ∈ events ∨
    ⟨.file ⟨ancestor, .create_dir⟩, (Except.ok () : Except Errno Unit)⟩ ∈ events

/-- The root is reached over directories. -/
def Rooted (root : String) (events : List Event) : Prop :=
  ∀ ancestor ∈ below_scope (components root.toList), Passed ancestor events

/-- The ledger was made by the attempt. -/
def Claimed (root attempt_id : String) (events : List Event) : Prop :=
  ⟨.file ⟨ownership_record root attempt_id, .create_new⟩, (Except.ok () : Except Errno Unit)⟩ ∈ events

/-- What has been written to the ledger. -/
def Event.written : Event → List UInt8
  | ⟨.file ⟨_, .write_all bytes⟩, .ok _⟩ => bytes
  | _ => []

def recorded (events : List Event) : List UInt8 := events.flatMap Event.written

/-- A write may have stopped anywhere. -/
def Event.torn : Event → Bool
  | ⟨.file ⟨_, .write_all _⟩, .error _⟩ => true
  | _ => false

/-- The calls on the ledger. -/
def Syscall.ledger : Syscall → Bool
  | .file ⟨_, .create_new⟩ | .file ⟨_, .write_all _⟩ | .file ⟨_, .sync_all⟩ => true
  | _ => false

/-- The reservation was written as a whole and synced. -/
structure Reserving (root : String) (config : LocalProcedureConfig) (events : List Event) : Prop where
  claimed : Claimed root config.attempt_id events
  whole : ∀ event ∈ events, event.torn = false
  recorded : ∃ started, ⟨.unix_ms, started⟩ ∈ events ∧ recorded events = reservation root config started
  synced : ⟨.file ⟨ownership_record root config.attempt_id, .sync_all⟩, (Except.ok () : Except Errno Unit)⟩ ∈ events

def Reserved (root : String) (config : LocalProcedureConfig) (events : List Event) : Prop :=
  ∃ before, before <+: events ∧ Reserving root config before

/-- A root in scope and an id that is one name. -/
structure Locatable (root attempt_id : String) : Prop where
  root : path_in_scope root = true
  nonempty : attempt_id ≠ ""
  chars : attempt_id.toList.all run_id_char = true

/-- The file calls of an attempt. -/
inductive FileLaw (root attempt_id : String) (before : List Event) : Call Component → Prop
  | look {ancestor : FsPath} (hmem : ancestor ∈ below_scope (components root.toList))
    (habove : ∀ above ∈ below_scope (components root.toList), above <+: ancestor → above ≠ ancestor →
      Passed above before) :
    FileLaw root attempt_id before ⟨ancestor, .symlink_metadata⟩
  | make {ancestor : FsPath} (hmem : ancestor ∈ below_scope (components root.toList))
    (habove : ∀ above ∈ below_scope (components root.toList), above <+: ancestor → above ≠ ancestor →
      Passed above before) :
    FileLaw root attempt_id before ⟨ancestor, .create_dir⟩
  | allocate (hrooted : Rooted root before) : FileLaw root attempt_id before ⟨attempt_dir root attempt_id, .create_dir⟩
  | claim (hrooted : Rooted root before) :
    FileLaw root attempt_id before ⟨ownership_record root attempt_id, .create_new⟩
  | write {bytes : List UInt8} (hclaimed : Claimed root attempt_id before)
    (hunsynced : ∀ event ∈ before, event.call ≠ .file ⟨ownership_record root attempt_id, .sync_all⟩) :
    FileLaw root attempt_id before ⟨ownership_record root attempt_id, .write_all bytes⟩
  | sync : FileLaw root attempt_id before ⟨ownership_record root attempt_id, .sync_all⟩
  | remove (hrooted : Rooted root before) :
    FileLaw root attempt_id before ⟨attempt_dir root attempt_id, .remove_dir_all⟩
  | find : FileLaw root attempt_id before ⟨attempt_dir root attempt_id, .metadata⟩

/-- The first reading of the clock. -/
def first_now : List Event → Option Nat
  | [] => none
  | ⟨.now, t⟩ :: _ => some t
  | _ :: events => first_now events

/-- What an attempt asks of the system. Sockets and sleep are for slots with a fixture and come after
the reservation, each call that may wait after a check that has passed, with no more than a look
at the clock between. -/
inductive Lawful (root : String) (config : LocalProcedureConfig) (before : List Event) : Syscall → Prop
  | clock {call : Syscall} (hclock : call.clock = true) : Lawful root config before call
  | file {call : Call Component} (hlocatable : Locatable root config.attempt_id)
    (hlaw : FileLaw root config.attempt_id before call) :
    Lawful root config before (.file call)
  | socket {call : Syscall} {started : Nat} (hsupported : config.supported = true)
    (hreserved : Reserved root config before)
    (hstarted : first_now before = some started)
    (hlaw : SocketLaw (started + ms config.timeout_ms.toNat) before call) : Lawful root config before call

/-- The directory was removed, and was not found afterwards. -/
def Removed (root attempt_id : String) (events : List Event) : Prop :=
  ∃ (reply : Except Errno Unit) (e : Errno), (reply = .ok () ∨ reply = .error .NotFound) ∧
    List.Sublist [⟨.file ⟨attempt_dir root attempt_id, .remove_dir_all⟩, reply⟩,
      ⟨.file ⟨attempt_dir root attempt_id, .metadata⟩, (Except.error e : Except Errno Metadata)⟩] events

/-- What the evidence of an attempt stands for. -/
structure Honest (digest : List UInt8 → List UInt8) (root : String) (config : LocalProcedureConfig)
    (evidence : LocalProcedureAttempt) (events : List Event) : Prop where
  reserved : Reserved root config events
  accounted : Accounted digest config evidence.receipts events
  executed : evidence.status = .Executed → config.supported = true ∧
    ∃ receiver, evidence.receipts.map LocalReceipt.planned = local_plan digest config receiver
  unsupported : evidence.status = .Unsupported → config.supported = false ∧ evidence.receipts = []
  cancelled : evidence.status = .Cancelled → Interrupted events
  cleanup : (evidence.cleanup.outcome = "VERIFIED" ∧ Removed root config.attempt_id events) ∨
    (evidence.cleanup.outcome = "FAILED" ∧ evidence.status = .Failed)

section

variable {root attempt_id : String} {config : LocalProcedureConfig} {digest : List UInt8 → List UInt8} {α β : Type}
  {events events' : List Event} {ancestor : FsPath}

theorem Passed.later (h : Passed ancestor events) (hlater : events <+: events') : Passed ancestor events' :=
  h.imp (fun hmem => hlater.mem hmem) fun hmem => hlater.mem hmem

theorem Rooted.later (h : Rooted root events) (hlater : events <+: events') : Rooted root events' :=
  fun ancestor hmem => (h ancestor hmem).later hlater

theorem Reserved.later (h : Reserved root config events) (hlater : events <+: events') :
    Reserved root config events' := by
  obtain ⟨before, hbefore, hreserving⟩ := h
  exact ⟨before, hbefore.trans hlater, hreserving⟩

theorem first_now_append {t : Nat} (h : first_now events = some t) (more : List Event) :
    first_now (events ++ more) = some t := by
  fun_induction first_now events with
  | case1 => cases h
  | case2 t' rest => exact h
  | case3 event rest hother ih =>
    rw [List.cons_append, first_now]
    · exact ih h
    · exact hother

theorem files_bind (x : Fs α) (f : α → Fs β) : Sys.files (x >>= f) = Sys.files x >>= fun a => Sys.files (f a) :=
  Program.embed_bind _ _ x f

/-- A file call, and what is done with its reply. -/
theorem traced_file_call {Law : List Event → Syscall → Prop} {Post : α → List Event → Prop} {call : Call Component}
    {f : call.verb.Reply → Fs α} (hlaw : Law events (.file call))
    (h : ∀ reply : call.verb.Reply, Traced Law (Sys.files (f reply)) Post (events ++ [⟨.file call, reply⟩])) :
    Traced Law (Sys.files ((.call call .done : Fs call.verb.Reply) >>= f)) Post events := by
  rw [files_bind]
  exact traced_bind (traced_call hlaw fun reply => traced_done (h reply))

/-- The ancestors come in the order of their lengths. -/
theorem below_scope_sorted (target : FsPath) : (below_scope target).Pairwise fun a b => a.length < b.length := by
  have hinits (l : FsPath) : l.inits.Pairwise fun a b => a.length < b.length := by
    induction l with
    | nil => exact List.pairwise_singleton _ _
    | cons c l ih =>
      rw [List.inits_cons, List.pairwise_cons, List.pairwise_map]
      refine ⟨fun b hb => ?_, ih.imp fun hlt => by simpa using hlt⟩
      obtain ⟨rest, -, rfl⟩ := List.mem_map.mp hb
      exact Nat.succ_pos _
  exact (hinits target).sublist (List.dropWhile_sublist _)

/-- No call on the ledger has been made. -/
def Unclaimed (events : List Event) : Prop := ∀ event ∈ events, event.call.ledger = false

theorem Unclaimed.push {event : Event} (h : Unclaimed events) (hevent : event.call.ledger = false) :
    Unclaimed (events ++ [event]) := fun other hother => by
  rcases List.mem_append.mp hother with hother | hother
  · exact h other hother
  · exact List.mem_singleton.mp hother ▸ hevent

/-- More calls, none of them on the ledger. -/
structure Before (events events' : List Event) : Prop where
  later : events <+: events'
  unclaimed : Unclaimed events → Unclaimed events'

theorem Before.push {event : Event} (h : Before events events') (hevent : event.call.ledger = false) :
    Before events (events' ++ [event]) :=
  ⟨h.later.trans (List.prefix_append _ _), fun hunclaimed => (h.unclaimed hunclaimed).push hevent⟩

theorem Before.refl (events : List Event) : Before events events := ⟨List.prefix_rfl, id⟩

theorem Before.trans {events'' : List Event} (h : Before events events') (h' : Before events' events'') :
    Before events events'' :=
  ⟨h.later.trans h'.later, fun hunclaimed => h'.unclaimed (h.unclaimed hunclaimed)⟩

theorem make_ancestor_traced (hlocatable : Locatable root config.attempt_id)
    (hmem : ancestor ∈ below_scope (components root.toList))
    (habove : ∀ above ∈ below_scope (components root.toList), above <+: ancestor → above ≠ ancestor →
      Passed above events) :
    Traced (Lawful root config) (Sys.files (make_ancestor ancestor))
      (fun result events' => Before events events' ∧ (result = .ok () → Passed ancestor events')) events := by
  have hlook {e : List Event} (he : Before events e) : Lawful root config e (.file ⟨ancestor, .symlink_metadata⟩) :=
    .file hlocatable (.look hmem fun above hmem' hbelow hne => (habove above hmem' hbelow hne).later he.later)
  have hmake {e : List Event} (he : Before events e) : Lawful root config e (.file ⟨ancestor, .create_dir⟩) :=
    .file hlocatable (.make hmem fun above hmem' hbelow hne => (habove above hmem' hbelow hne).later he.later)
  have hfailed {e : List Event} {text : String} (he : Before events e) : Traced (Lawful root config)
      (.done (.error text : Except String Unit))
      (fun result events' => Before events events' ∧ (result = .ok () → Passed ancestor events')) e :=
        traced_done ⟨he, nofun⟩
  have hpassed {e : List Event} (he : Before events e) (hpassed : Passed ancestor e) : Traced (Lawful root config)
      (.done (.ok () : Except String Unit))
      (fun result events' => Before events events' ∧ (result = .ok () → Passed ancestor events')) e :=
    traced_done ⟨he, fun _ => hpassed⟩
  unfold make_ancestor
  refine traced_file_call (hlook (.refl events)) fun (found : Except Errno Metadata) => ?_
  have hfound := (Before.refl events).push
    (rfl : (⟨.file ⟨ancestor, .symlink_metadata⟩, found⟩ : Event).call.ledger = false)
  -- An ancestor that is there is good or bad; one that is not is made, or was made meanwhile.
  cases found with
  | ok entry =>
    cases entry with
    | dir => exact hpassed hfound (Or.inl (List.mem_append_right _ List.mem_cons_self))
    | _ => exact hfailed hfound
  | error e =>
    cases e with
    | NotFound =>
      refine traced_file_call (hmake hfound) fun (made : Except Errno Unit) => ?_
      have hmade := hfound.push (rfl : (⟨.file ⟨ancestor, .create_dir⟩, made⟩ : Event).call.ledger = false)
      cases made with
      | ok _ => exact hpassed hmade (Or.inr (List.mem_append_right _ List.mem_cons_self))
      | error e =>
        cases e with
        | AlreadyExists =>
          refine traced_file_call (hlook hmade) fun (again : Except Errno Metadata) => ?_
          have hagain := hmade.push (rfl : (⟨.file ⟨ancestor, .symlink_metadata⟩, again⟩ : Event).call.ledger = false)
          cases again with
          | ok entry =>
            cases entry with
            | dir => exact hpassed hagain (Or.inl (List.mem_append_right _ List.mem_cons_self))
            | _ => exact hfailed hagain
          | error e => exact hfailed hagain
        | _ => exact hfailed hmade
    | _ => exact hfailed hfound

/-- All ancestors are passed before the directory itself is made. -/
theorem make_sandbox_traced (hlocatable : Locatable root config.attempt_id) {done rest : List FsPath}
    (hscope : below_scope (components root.toList) = done ++ rest)
    (hdone : ∀ ancestor ∈ done, Passed ancestor events) :
    Traced (Lawful root config) (Sys.files (make_sandbox (attempt_dir root config.attempt_id) rest))
      (fun result events' => Before events events' ∧ (result = .ok () → Rooted root events')) events := by
  induction rest generalizing done events with
  | nil =>
    have hrooted : Rooted root events := fun ancestor hmem => by
      rw [hscope, List.append_nil] at hmem
      exact hdone ancestor hmem
    unfold make_sandbox
    refine traced_file_call (.file hlocatable (.allocate hrooted)) fun (made : Except Errno Unit) => traced_done ?_
    have hmade := (Before.refl events).push
      (rfl : (⟨.file ⟨attempt_dir root config.attempt_id, .create_dir⟩, made⟩ : Event).call.ledger = false)
    exact ⟨hmade, fun _ => hrooted.later hmade.later⟩
  | cons ancestor rest ih =>
    have hmem : ancestor ∈ below_scope (components root.toList) := hscope ▸ List.mem_append_right _ List.mem_cons_self
    have habove : ∀ above ∈ below_scope (components root.toList), above <+: ancestor → above ≠ ancestor →
        Passed above events := by
      intro above habove hbelow hne
      rw [hscope] at habove
      rcases List.mem_append.mp habove with habove | habove
      · exact hdone above habove
      · have hsorted := below_scope_sorted (components root.toList)
        rw [hscope] at hsorted
        have hshorter := hbelow.length_le
        rcases List.mem_cons.mp habove with heq | hlast
        · exact absurd heq hne
        · have hlonger := List.rel_of_pairwise_cons (List.pairwise_append.mp hsorted).2.1 hlast
          omega
    unfold make_sandbox
    rw [files_bind]
    refine traced_bind ((make_ancestor_traced hlocatable hmem habove).mono ?_)
    rintro result e ⟨hbefore, hpassed⟩
    cases result with
    | error text => exact traced_done ⟨hbefore, nofun⟩
    | ok _ =>
      refine (@ih _ (done ++ [ancestor]) (by rw [hscope, List.append_assoc, List.singleton_append])
        fun above habove => ?_).mono fun result e' h => ⟨hbefore.trans h.1, h.2⟩
      rcases List.mem_append.mp habove with habove | habove
      · exact (hdone above habove).later hbefore.later
      · exact List.mem_singleton.mp habove ▸ hpassed rfl

theorem allocate_traced : Traced (Lawful root config) (Sandbox.allocate root config.attempt_id)
    (fun result events' => Before events events' ∧ ∀ sandbox, result = .ok sandbox →
      sandbox = ⟨join root.toList config.attempt_id.toList⟩ ∧ Locatable root config.attempt_id ∧
        Rooted root events') events := by
  unfold Sandbox.allocate
  cases hcreate : Sandbox.create root config.attempt_id fun _ => .ok () with
  | error e => exact traced_done ⟨.refl events, fun sandbox h => by cases h⟩
  | ok sandbox =>
    unfold Sandbox.create at hcreate
    split at hcreate
    · cases hcreate
    rename_i haccept
    simp only [Bool.or_eq_true, Bool.not_eq_true', decide_eq_true_eq, not_or, Bool.not_eq_false] at haccept
    obtain ⟨⟨⟨hscope, hne⟩, -⟩, hchars⟩ := haccept
    obtain rfl : (⟨join root.toList config.attempt_id.toList⟩ : Sandbox) = sandbox := Except.ok.inj hcreate
    have hlocatable : Locatable root config.attempt_id := ⟨hscope, hne, hchars⟩
    have hmade := @make_sandbox_traced root config events hlocatable [] (below_scope (components root.toList)) rfl
      fun ancestor hmem => by cases hmem
    refine traced_bind (hmade.mono ?_)
    rintro (e | _) e' ⟨hbefore, hrooted⟩
    · exact traced_done ⟨hbefore, fun sandbox h => by cases h⟩
    · refine traced_done ⟨hbefore, fun sandbox h => ?_⟩
      obtain rfl := Except.ok.inj h
      exact ⟨rfl, hlocatable, hrooted rfl⟩

theorem cleanup_traced (hlocatable : Locatable root config.attempt_id) (hrooted : Rooted root events) :
    Traced (Lawful root config) (Sys.files (Sandbox.cleanup ⟨join root.toList config.attempt_id.toList⟩))
      (fun result events' => events <+: events' ∧ (result = .ok () → ∃ reply : Except Errno Unit,
        ⟨.file ⟨attempt_dir root config.attempt_id, .remove_dir_all⟩, reply⟩ ∈ events' ∧
          (reply = .ok () ∨ reply = .error .NotFound))) events := by
  unfold Sandbox.cleanup
  refine traced_file_call (.file hlocatable (.remove hrooted)) fun (reply : Except Errno Unit) => ?_
  have hmem : (⟨.file ⟨attempt_dir root config.attempt_id, .remove_dir_all⟩, reply⟩ : Event) ∈
      events ++ [⟨.file ⟨attempt_dir root config.attempt_id, .remove_dir_all⟩, reply⟩] :=
    List.mem_append_right _ List.mem_cons_self
  cases reply with
  | ok _ => exact traced_done ⟨List.prefix_append _ _, fun _ => ⟨_, hmem, Or.inl rfl⟩⟩
  | error e =>
    cases e with
    | NotFound => exact traced_done ⟨List.prefix_append _ _, fun _ => ⟨_, hmem, Or.inr rfl⟩⟩
    | _ => exact traced_done ⟨List.prefix_append _ _, nofun⟩

/-- A file call of the reservation, and what comes after it. -/
theorem traced_of_bind {Law : List Event → Syscall → Prop} {Post : Except String Unit → List Event → Prop}
    {x : Fs (Except Errno Unit)} {f : Unit → ExceptT String (Program Syscall Syscall.Reply) Unit}
    (h : Traced Law (Sys.files x) (fun result events' => (result = .ok () → Traced Law (f ()).run Post events') ∧
      ∀ e, result = .error e → Post (.error (errno_display e)) events') events) :
    Traced Law (Sys.of x >>= f).run Post events := by
  have hof : Traced Law (Sys.of x).run (fun result events' => (result = .ok () → Traced Law (f ()).run Post events') ∧
      ∀ text, result = .error text → Post (.error text) events') events := by
    refine traced_bind (h.mono ?_)
    rintro (e | _) events' ⟨hok, herror⟩
    · refine traced_done ⟨nofun, fun text htext => ?_⟩
      obtain rfl : errno_display e = text := Except.error.inj htext
      exact herror e rfl
    · exact traced_done ⟨fun _ => hok rfl, nofun⟩
  rw [ExceptT.run_bind]
  refine traced_bind (hof.mono ?_)
  rintro (text | _) events' ⟨hok, herror⟩
  · exact traced_done (herror text rfl)
  · exact hok rfl

theorem torn_of_ledger {event : Event} (h : event.call.ledger = false) : event.torn = false := by
  obtain ⟨call, reply⟩ := event
  cases call with
  | file call =>
    obtain ⟨path, verb⟩ := call
    cases verb with
    | write_all bytes => cases h
    | _ => rfl
  | _ => rfl

theorem written_of_ledger {event : Event} (h : event.call.ledger = false) : event.written = [] := by
  obtain ⟨call, reply⟩ := event
  cases call with
  | file call =>
    obtain ⟨path, verb⟩ := call
    cases verb with
    | write_all bytes => cases h
    | _ => rfl
  | _ => rfl

theorem reserve_traced {started : Nat} (hlocatable : Locatable root config.attempt_id) (hrooted : Rooted root events)
    (hunclaimed : Unclaimed events) (hstarted : ⟨.unix_ms, started⟩ ∈ events) :
    Traced (Lawful root config) (reserve root config ⟨join root.toList config.attempt_id.toList⟩ started).run
      (fun result events' => events <+: events' ∧ (result = .ok () → Reserved root config events')) events := by
  unfold reserve
  dsimp only
  have hlater (more : List Event) : events <+: events ++ more := List.prefix_append _ _
  have hunsynced : ∀ event ∈ events, event.call ≠ .file ⟨ownership_record root config.attempt_id, .sync_all⟩ := by
    intro event hevent hcall
    have hledger := hunclaimed event hevent
    rw [hcall] at hledger
    cases hledger
  -- The ledger is made,
  refine traced_of_bind (traced_call (.file hlocatable (.claim hrooted)) fun (reply : Except Errno Unit) => traced_done
    ⟨fun hreply => ?_, fun e hreply => ⟨hlater _, nofun⟩⟩)
  obtain rfl : reply = .ok () := hreply
  have hclaimed : Claimed root config.attempt_id
      (events ++ [⟨.file ⟨ownership_record root config.attempt_id, .create_new⟩,
        (Except.ok () : Except Errno Unit)⟩]) :=
    List.mem_append_right _ List.mem_cons_self
  have hunsynced := List.forall_mem_append.mpr ⟨hunsynced, List.forall_mem_singleton.mpr
    (nofun : (⟨.file ⟨ownership_record root config.attempt_id, .create_new⟩, (Except.ok () : Except Errno Unit)⟩ :
      Event).call ≠
      .file ⟨ownership_record root config.attempt_id, .sync_all⟩)⟩
  -- written in two parts,
  refine traced_of_bind (traced_call (.file hlocatable (.write hclaimed hunsynced))
    fun (reply : Except Errno Unit) => traced_done
    ⟨fun hreply => ?_, fun e hreply => ⟨(hlater _).trans (List.prefix_append _ _), nofun⟩⟩)
  obtain rfl : reply = .ok () := hreply
  have hunsynced := List.forall_mem_append.mpr ⟨hunsynced, List.forall_mem_singleton.mpr
    (nofun : (⟨.file ⟨ownership_record root config.attempt_id, .write_all (ownership_json config
      ⟨join root.toList config.attempt_id.toList⟩ started)⟩, (Except.ok () : Except Errno Unit)⟩ : Event).call ≠
      .file ⟨ownership_record root config.attempt_id, .sync_all⟩)⟩
  refine traced_of_bind (traced_call (.file hlocatable (.write (List.mem_append_left _ hclaimed) hunsynced))
    fun (reply : Except Errno Unit) => traced_done
      ⟨fun hreply => ?_, fun e hreply => ⟨((hlater _).trans (List.prefix_append _ _)).trans
        (List.prefix_append _ _), nofun⟩⟩)
  obtain rfl : reply = .ok () := hreply
  -- and synced.
  refine (traced_bind (traced_call (.file hlocatable .sync) fun (reply : Except Errno Unit) =>
    traced_done (traced_done ?_)))
  simp only [List.append_assoc, List.cons_append, List.nil_append]
  refine ⟨hlater _, fun hreply => ⟨_, List.prefix_rfl, ?_, ?_, ⟨started, List.mem_append_left _ hstarted, ?_⟩, ?_⟩⟩
  · exact List.mem_append_right _ List.mem_cons_self
  · refine List.forall_mem_append.mpr ⟨fun event hevent => torn_of_ledger (hunclaimed event hevent), ?_⟩
    simp [Event.torn]
  · have hnone : events.flatMap Event.written = [] :=
      List.flatMap_eq_nil_iff.mpr fun event hevent => written_of_ledger (hunclaimed event hevent)
    rw [recorded, List.flatMap_append, hnone]
    simp [Event.written, reservation]
  · have hok : reply = .ok () := by
      cases reply with
      | ok _ => rfl
      | error e => cases hreply
    rw [hok]
    exact List.mem_append_right _ (by simp)

theorem verify_cleanup_traced (hlocatable : Locatable root config.attempt_id) (hrooted : Rooted root events)
    (debug : Except String Unit → String) (evidence : LocalProcedureAttempt) :
    Traced (Lawful root config) (verify_cleanup debug ⟨join root.toList config.attempt_id.toList⟩ evidence)
      (fun evidence' events' => events <+: events' ∧ evidence'.receipts = evidence.receipts ∧
        ((evidence'.status = evidence.status ∧ evidence'.cleanup.outcome = "VERIFIED" ∧
            Removed root config.attempt_id events') ∨
          (evidence'.status = .Failed ∧ evidence'.cleanup.outcome = "FAILED"))) events := by
  unfold verify_cleanup
  refine traced_bind ((cleanup_traced hlocatable hrooted).mono ?_)
  rintro (text | _) e ⟨hlater, hremoved⟩
  · exact traced_done ⟨hlater, rfl, Or.inr ⟨rfl, rfl⟩⟩
  · refine traced_bind (traced_file_call (.file hlocatable .find) fun (found : Except Errno Metadata) => traced_done ?_)
    have hall := hlater.trans (List.prefix_append e
      [(⟨.file ⟨attempt_dir root config.attempt_id, .metadata⟩, found⟩ : Event)])
    cases found with
    | ok entry => exact traced_done ⟨hall, rfl, Or.inr ⟨rfl, rfl⟩⟩
    | error err =>
      obtain ⟨reply, hmem, hreply⟩ := hremoved rfl
      have hremoval := (List.singleton_sublist.mpr hmem).append
        (List.Sublist.refl [(⟨.file ⟨attempt_dir root config.attempt_id, .metadata⟩, .error err⟩ : Event)])
      exact traced_done ⟨hall, rfl, Or.inl ⟨rfl, rfl, reply, err, hreply, hremoval⟩⟩

/-- Once it is reserved, an attempt may go to work. -/
theorem Reserved.grants {started : Nat} (hreserved : Reserved root config events)
    (hstarted : first_now events = some started)
    (hsupported : config.supported = true) :
    Grants (Lawful root config) (started + ms config.timeout_ms.toNat) events where
  clock _ _ _ hclock := .clock hclock
  socket later hlater _ hlaw := by
    obtain ⟨more, rfl⟩ := hlater
    exact .socket hsupported (hreserved.later (List.prefix_append _ _)) (first_now_append hstarted more) hlaw

/-- The evidence that an outcome comes to is honest, whatever is left of the directory. -/
theorem finish_traced {receipts : List LocalReceipt} (debug : Except String Unit → String)
    (outcome : Except SocketError Bool)
    (hlocatable : Locatable root config.attempt_id) (hrooted : Rooted root events)
    (hreserved : Reserved root config events)
    (haccounted : Accounted digest config receipts events)
    (hconcluded : ∀ executed, outcome = .ok executed → Concluded digest config executed receipts events)
    (hblamed : ∀ error, outcome = .error error → Blamed (.io error) events) :
    Traced (Lawful root config)
      (verify_cleanup debug ⟨join root.toList config.attempt_id.toList⟩
        ⟨(LocalAttemptStatus.of_outcome outcome).1, receipts,
        ⟨"NOT_VERIFIED", "", "NOT_VERIFIED"⟩, (LocalAttemptStatus.of_outcome outcome).2⟩)
      (fun evidence events' => events <+: events' ∧ Honest digest root config evidence events') events := by
  refine (verify_cleanup_traced hlocatable hrooted debug _).mono ?_
  rintro evidence e ⟨hlater, hreceipts, hcleanup⟩
  have hreserved := hreserved.later hlater
  have haccounted : Accounted digest config evidence.receipts e := hreceipts ▸ haccounted.later hlater
  refine ⟨hlater, ?_⟩
  rcases hcleanup with ⟨hstatus, hverified, hremoved⟩ | ⟨hstatus, hfailed⟩
  · refine ⟨hreserved, haccounted, fun h => ?_, fun h => ?_, fun h => ?_, Or.inl ⟨hverified, hremoved⟩⟩
    all_goals rw [hstatus] at h
    · cases outcome with
      | ok executed =>
        cases executed with
        | true =>
          have hdone := hconcluded true rfl
          exact ⟨hdone.supported.symm, hreceipts ▸ hdone.complete rfl⟩
        | false => cases h
      | error error =>
        unfold LocalAttemptStatus.of_outcome at h
        dsimp only at h
        split at h <;> cases h
    · cases outcome with
      | ok executed =>
        cases executed with
        | true => cases h
        | false =>
          have hdone := hconcluded false rfl
          exact ⟨hdone.supported.symm, hreceipts.trans (hdone.none rfl)⟩
      | error error =>
        unfold LocalAttemptStatus.of_outcome at h
        dsimp only at h
        split at h <;> cases h
    · cases outcome with
      | ok executed => cases executed <;> cases h
      | error error =>
        unfold LocalAttemptStatus.of_outcome at h
        dsimp only at h
        split at h
        · rename_i hkind
          exact (hblamed error rfl error rfl hkind).later hlater
        · cases h
  · have hnot {status : LocalAttemptStatus} (hne : status ≠ .Failed) : evidence.status ≠ status := fun h =>
      hne (h.symm.trans hstatus)
    exact ⟨hreserved, haccounted, fun h => absurd h (hnot nofun), fun h => absurd h (hnot nofun), fun h =>
      absurd h (hnot nofun),
      Or.inr ⟨hfailed, hstatus⟩⟩

theorem attempt_in_traced {started started_unix_ms : Nat} {debug : Except String Unit → String} {fuel : Nat}
    (hlocatable : Locatable root config.attempt_id) (hrooted : Rooted root events) (hunclaimed : Unclaimed events)
    (hunix : ⟨.unix_ms, started_unix_ms⟩ ∈ events) (hstarted : first_now events = some started) :
    Traced (Lawful root config) (attempt_in digest debug fuel config root
        ⟨started, started + ms config.timeout_ms.toNat⟩
        started_unix_ms ⟨join root.toList config.attempt_id.toList⟩)
      (fun result events' => events <+: events' ∧ ∀ evidence, result = .ok evidence →
        Honest digest root config evidence events')
      events := by
  unfold attempt_in
  refine traced_bind ((reserve_traced hlocatable hrooted hunclaimed hunix).mono ?_)
  rintro (text | _) e₁ ⟨hlater₁, hreserved⟩
  · exact traced_done ⟨hlater₁, nofun⟩
  have hreserved := hreserved rfl
  have hstarted₁ : first_now e₁ = some started := by
    obtain ⟨more, rfl⟩ := hlater₁
    exact first_now_append hstarted more
  have hfixture := Traced.grows (local_fixture_traced digest ⟨started, started + ms config.timeout_ms.toNat⟩ fuel
    (fun _ _ _ hclock => Lawful.clock hclock) fun hsupported => hreserved.grants hstarted₁ hsupported)
  refine traced_bind (hfixture.mono ?_)
  rintro ⟨outcome, receipts⟩ e₂ ⟨hlater₂, hsettled⟩
  have hall := hlater₁.trans hlater₂
  have hreturn {evidence : LocalProcedureAttempt} {e : List Event} (hlater : e₂ <+: e)
      (hhonest : Honest digest root config evidence e) : Traced (Lawful root config)
        (.done (.ok evidence : Except Failure LocalProcedureAttempt)) (fun result events' => events <+: events' ∧
          ∀ evidence, result = .ok evidence → Honest digest root config evidence events') e :=
    traced_done ⟨hall.trans hlater, fun other hother => Except.ok.inj hother ▸ hhonest⟩
  have hrooted := hrooted.later hall
  have hreserved := hreserved.later hlater₂
  cases outcome with
  | ok executed =>
    have hconcluded : Concluded digest config executed receipts e₂ := hsettled
    exact traced_bind ((finish_traced debug (.ok executed) hlocatable hrooted hreserved hconcluded.accounted
      (fun other hother => Except.ok.inj hother ▸ hconcluded) nofun).mono fun evidence e h => hreturn h.1 h.2)
  | error failure =>
    obtain ⟨haccounted, hblamed⟩ : Accounted digest config receipts e₂ ∧ Blamed failure e₂ := hsettled
    cases failure with
    | unfinished => exact traced_done ⟨hall, nofun⟩
    | io error =>
      exact traced_bind ((finish_traced debug (.error error) hlocatable hrooted hreserved haccounted nofun
        fun other hother => Except.error.inj hother ▸ hblamed).mono fun evidence e h => hreturn h.1 h.2)

theorem Honest.later {evidence : LocalProcedureAttempt} (h : Honest digest root config evidence events)
    (hlater : events <+: events') : Honest digest root config evidence events' where
  reserved := h.reserved.later hlater
  accounted := h.accounted.later hlater
  executed := h.executed
  unsupported := h.unsupported
  cancelled hstatus := (h.cancelled hstatus).later hlater
  cleanup := h.cleanup.imp_left fun ⟨hverified, reply, e, hreply, hremoval⟩ =>
    ⟨hverified, reply, e, hreply, hremoval.trans hlater.sublist⟩

/-- An attempt keeps the law, and the evidence that it returns is honest. -/
theorem run_in_root_traced (digest : List UInt8 → List UInt8) (debug : Except String Unit → String) (fuel : Nat)
    (config : LocalProcedureConfig) (root : String) :
    Traced (Lawful root config) (run_in_root digest debug fuel config root)
      (fun result events' => ∀ evidence, result = .ok evidence → Honest digest root config evidence events') [] := by
  unfold run_in_root
  split
  · exact traced_done nofun
  split
  · exact traced_done nofun
  refine traced_bind (traced_call (.clock rfl) fun (unix : Nat) => traced_done ?_)
  refine traced_bind (traced_call (.clock rfl) fun (started : Nat) => traced_done ?_)
  have hunix : (⟨.unix_ms, unix⟩ : Event) ∈ [(⟨.unix_ms, unix⟩ : Event)] ++ [⟨.now, started⟩] := List.mem_cons_self
  have hunclaimed : Unclaimed ([(⟨.unix_ms, unix⟩ : Event)] ++ [⟨.now, started⟩]) := by
    intro event hevent
    rcases List.mem_cons.mp hevent with rfl | hevent
    · rfl
    · rw [List.mem_singleton.mp hevent]
      rfl
  refine traced_bind (allocate_traced.mono ?_)
  rintro (text | sandbox) e₁ ⟨hbefore, hmade⟩
  · exact traced_done nofun
  obtain ⟨rfl, hlocatable, hrooted⟩ := hmade sandbox rfl
  have hstarted : first_now e₁ = some started := by
    obtain ⟨more, rfl⟩ := hbefore.later
    exact first_now_append rfl more
  refine traced_bind ((attempt_in_traced hlocatable hrooted (hbefore.unclaimed hunclaimed) (hbefore.later.mem hunix)
    hstarted).mono ?_)
  rintro result e₂ ⟨hlater, hhonest⟩
  have hdrop {result : Except Failure LocalProcedureAttempt}
      (hhonest : ∀ evidence, result = .ok evidence → Honest digest root config evidence e₂) :
      Traced (Lawful root config) (Sys.files (Sandbox.cleanup ⟨join root.toList config.attempt_id.toList⟩) >>=
        fun _ => .done result)
        (fun result events' => ∀ evidence, result = .ok evidence → Honest digest root config evidence events') e₂ :=
    traced_bind ((cleanup_traced hlocatable (hrooted.later hlater)).mono fun _ e h =>
      traced_done fun evidence hresult => (hhonest evidence hresult).later h.1)
  cases result with
  | ok evidence => exact hdrop hhonest
  | error failure =>
    cases failure with
    | unfinished => exact traced_done nofun
    | io error => exact hdrop hhonest

end

end asmodeus.runner
