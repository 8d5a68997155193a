import Asmodeus.Runner.ProcedureLocal.System

open FileTree UnixPath
open asmodeus.dsl

namespace asmodeus.runner

section

variable {root attempt_id other : String} {config : LocalProcedureConfig} {t t' : Option (FsTree Component)}
  {events : List Event} {follow : Option (FsTree Component) → FsPath → FsPath} {answers : Answers} {ancestor : FsPath}

theorem root_ne_nil (h : path_in_scope root = true) : root.toList ≠ [] := by
  obtain ⟨hhead, -⟩ := path_in_scope_components h
  rintro hnil
  rw [hnil] at hhead
  cases hhead

theorem Locatable.attempt_dir_eq (h : Locatable root attempt_id) :
    attempt_dir root attempt_id = components root.toList ++ [.normal attempt_id.toList] :=
  components_join (root_ne_nil h.root) (run_id_name h.nonempty h.chars)

def ledger_name (attempt_id : String) : Component := .normal (attempt_id ++ ".ownership.json").toList

/-- The ledger is no other name of an attempt. -/
theorem ledger_is_name (attempt_id : String) (h : attempt_id.toList.all run_id_char = true) :
    IsName (attempt_id ++ ".ownership.json").toList := by
  rw [String.toList_append]
  have hlength : 15 ≤ (attempt_id.toList ++ ".ownership.json".toList).length := by
    rw [List.length_append]
    have hsuffix : ".ownership.json".toList.length = 15 := by decide
    omega
  refine ⟨fun hnil => ?_, fun hdot => ?_, fun hdots => ?_, fun hmem => ?_⟩
  · rw [hnil] at hlength
    exact absurd hlength (by decide)
  · rw [hdot] at hlength
    exact absurd hlength (by decide)
  · rw [hdots] at hlength
    exact absurd hlength (by decide)
  · rcases List.mem_append.mp hmem with hmem | hmem
    · exact absurd (List.all_eq_true.mp h _ hmem) (by decide)
    · exact absurd hmem (by decide)

theorem Locatable.ownership_record_eq (h : Locatable root attempt_id) :
    ownership_record root attempt_id = components root.toList ++ [ledger_name attempt_id] :=
  components_join (root_ne_nil h.root) (ledger_is_name attempt_id h.chars)

theorem ledger_name_injective (h : ledger_name attempt_id = ledger_name other) : attempt_id = other := by
  have htext := Component.normal.inj h
  rw [String.toList_append, String.toList_append] at htext
  exact String.toList_inj.mp (List.append_cancel_right htext)

/-- The name of a directory has no dot. -/
theorem Locatable.ledger_ne (h : Locatable root attempt_id) (other : String) :
    Component.normal attempt_id.toList ≠ ledger_name other := by
  intro heq
  have htext := Component.normal.inj heq
  have hdot : '.' ∈ attempt_id.toList := by
    rw [htext, String.toList_append]
    exact List.mem_append_right _ (by decide)
  exact absurd (List.all_eq_true.mp h.chars _ hdot) (by decide)

/-- Nothing above the root changes, but for new directories. -/
def Firm (root : String) (t t' : Option (FsTree Component)) : Prop :=
  ∀ q, q <+: components root.toList → node q t' = node q t ∨ (node q t = none ∧ node q t' = some .dir)

/-- The canary root that the root is below is reached over no symbolic link. -/
def RootReached (root : String) (t : Option (FsTree Component)) : Prop :=
  ∀ canary ∈ CANARY_ROOTS, components canary.toList <+: components root.toList →
    Unlinked (components canary.toList).dropLast t

theorem RootReached.firm (h : RootReached root t) (hfirm : Firm root t t') : RootReached root t' := by
  intro canary hcanary hbelow above habove hlink
  obtain hsame | ⟨-, hdir⟩ := hfirm above (habove.trans ((List.dropLast_prefix _).trans hbelow))
  · rw [hsame] at hlink
    exact h canary hcanary hbelow above habove hlink
  · rw [hdir] at hlink
    cases hlink

/-- What a call of an attempt does to the tree: its own ledger apart, no ledger changes. -/
structure Calm (root : String) (except : Option String) (t t' : Option (FsTree Component)) : Prop where
  firm : Firm root t t'
  ledgers : ∀ name, some name ≠ except → node (components root.toList ++ [ledger_name name]) t' =
    node (components root.toList ++ [ledger_name name]) t

theorem Calm.refl (root : String) (except : Option String) (t : Option (FsTree Component)) : Calm root except t t :=
  ⟨fun _ _ => Or.inl rfl, fun _ _ => rfl⟩

theorem Firm.dir (h : Firm root t t') {q : FsPath} (hq : q <+: components root.toList) (hdir : node q t = some .dir) :
    node q t' = some .dir := by
  obtain hsame | ⟨hnone, -⟩ := h q hq
  · exact hsame.trans hdir
  · rw [hdir] at hnone
    cases hnone

/-- What changes at one name below the root changes neither the root nor another name. -/
theorem calm_below {f : Option (FsTree Component) → Option (FsTree Component)} {name : Component}
    {except : Option String}
    (hname : ∀ other, some other ≠ except → name ≠ ledger_name other) :
    Calm root except t (alter f (components root.toList ++ [name]) t) := by
  refine ⟨fun q hq => Or.inl (node_alter fun hbelow => ?_), fun other hother => node_alter fun hbelow => ?_⟩
  · have hlength := hbelow.length_le.trans hq.length_le
    rw [List.length_append, List.length_singleton] at hlength
    omega
  · have heq := hbelow.eq_of_length (by simp)
    exact hname other hother (List.singleton_inj.mp (List.append_cancel_left heq))

/-- A new directory at the root or above. -/
theorem calm_made (habove : node_above ancestor t = some .dir) (hnone : get ancestor t = none)
    (hancestor : ancestor <+: components root.toList) :
      Calm root none t (alter (fun _ => some (.dir [])) ancestor t) := by
  refine ⟨fun q _ => ?_, fun name _ => ?_⟩
  · rw [node_made habove hnone]
    split
    · rename_i heq
      exact Or.inr ⟨by rw [heq, node, hnone]; rfl, rfl⟩
    · exact Or.inl rfl
  · rw [node_made habove hnone, if_neg]
    intro heq
    have hlength := hancestor.length_le
    rw [← heq, List.length_append, List.length_singleton] at hlength
    omega

/-- What the calls of an attempt have told about the tree is still so. -/
structure Testimony (root attempt_id : String) (events : List Event) (t : Option (FsTree Component)) : Prop where
  passed : ∀ ancestor ∈ below_scope (components root.toList), Passed ancestor events → node ancestor t = some .dir
  claimed : Claimed root attempt_id events → ∃ content,
    node (components root.toList ++ [ledger_name attempt_id]) t = some (.file content) ∧
      ((∀ event ∈ events, event.torn = false) → content = recorded events)
  unclaimed : ¬ Claimed root attempt_id events → recorded events = []

/-- What one call of an attempt does. -/
structure Deed (root attempt_id : String) (events : List Event) (event : Event)
    (t t' : Option (FsTree Component)) : Prop where
  calm : Calm root (some attempt_id) t t'
  testimony : Testimony root attempt_id (events ++ [event]) t'
  fresh : Claimed root attempt_id (events ++ [event]) → Claimed root attempt_id events ∨
    node (components root.toList ++ [ledger_name attempt_id]) t = none
  kept : ¬ Claimed root attempt_id (events ++ [event]) →
    node (components root.toList ++ [ledger_name attempt_id]) t' =
      node (components root.toList ++ [ledger_name attempt_id]) t

theorem prefix_of_below_scope {target : FsPath} (h : ancestor ∈ below_scope target) : ancestor <+: target :=
  (List.mem_inits ancestor target).mp ((List.dropWhile_sublist _).mem h)

theorem passed_push {event : Event} (h : Passed ancestor (events ++ [event])) :
    Passed ancestor events ∨ Passed ancestor [event] := by
  rcases h with h | h <;> rcases List.mem_append.mp h with h | h
  · exact Or.inl (Or.inl h)
  · exact Or.inr (Or.inl h)
  · exact Or.inl (Or.inr h)
  · exact Or.inr (Or.inr h)

theorem recorded_push (events : List Event) (event : Event) :
    recorded (events ++ [event]) = recorded events ++ event.written := by
  rw [recorded, List.flatMap_append, List.flatMap_singleton, recorded]

/-- What others do leaves the testimony of an attempt as it is. -/
theorem Testimony.calm (h : Testimony root attempt_id events t) {except : Option String} (hcalm : Calm root except t t')
    (hexcept : Claimed root attempt_id events → some attempt_id ≠ except) : Testimony root attempt_id events t' where
  passed ancestor hmem hpassed := hcalm.firm.dir (prefix_of_below_scope hmem) (h.passed ancestor hmem hpassed)
  claimed hclaimed := by
    rw [hcalm.ledgers attempt_id (hexcept hclaimed)]
    exact h.claimed hclaimed
  unclaimed := h.unclaimed

theorem claimed_push {event : Event} (h : Claimed root attempt_id (events ++ [event])) :
    Claimed root attempt_id events ∨ Claimed root attempt_id [event] := List.mem_append.mp h

/-- A call that neither makes nor writes the ledger. -/
theorem Testimony.deed {event : Event} (h : Testimony root attempt_id events t) (hcalm : Calm root none t t')
    (hclaim : ¬ Claimed root attempt_id [event]) (hwritten : event.written = [])
    (hpassed : ∀ ancestor ∈ below_scope (components root.toList), Passed ancestor [event] →
      node ancestor t' = some .dir) :
    Deed root attempt_id events event t t' := by
  have hclaimed (hpush : Claimed root attempt_id (events ++ [event])) : Claimed root attempt_id events :=
    (claimed_push hpush).resolve_right hclaim
  have hstill := h.calm hcalm (by simp)
  have hsame : recorded (events ++ [event]) = recorded events := by rw [recorded_push, hwritten, List.append_nil]
  refine ⟨⟨hcalm.firm, fun name _ => hcalm.ledgers name (by simp)⟩, ⟨fun ancestor hmem hpush => ?_, fun hpush =>
    ?_, fun hnot => ?_⟩,
    fun hpush => Or.inl (hclaimed hpush), fun _ => hcalm.ledgers attempt_id (by simp)⟩
  · rcases passed_push hpush with hbefore | hnow
    · exact hstill.passed ancestor hmem hbefore
    · exact hpassed ancestor hmem hnow
  · obtain ⟨content, hnode, hcontent⟩ := hstill.claimed (hclaimed hpush)
    refine ⟨content, hnode, fun hwhole => ?_⟩
    rw [hsame]
    exact hcontent fun e he => hwhole e (List.mem_append_left _ he)
  · rw [hsame]
    exact h.unclaimed fun hbefore => hnot (List.mem_append_left _ hbefore)

/-- Calls are told apart by their verbs. -/
theorem verb_ne {path path' : FsPath} {verb verb' : Verb} (h : verb ≠ verb') :
    Syscall.file ⟨path, verb⟩ ≠ .file ⟨path', verb'⟩ := fun heq => h (congrArg Call.verb (Syscall.file.inj heq))

/-- No other verb passes an ancestor. -/
theorem not_passed {path : FsPath} {verb : Verb} {reply : verb.Reply}
    (h : Passed ancestor [⟨.file ⟨path, verb⟩, reply⟩])
    (hlook : verb ≠ .symlink_metadata) (hmake : verb ≠ .create_dir) : False := by
  rcases h with h | h
  · exact verb_ne hlook (congrArg Event.call (List.mem_singleton.mp h)).symm
  · exact verb_ne hmake (congrArg Event.call (List.mem_singleton.mp h)).symm

/-- No other verb claims the ledger. -/
theorem not_claimed {path : FsPath} {verb : Verb} {reply : verb.Reply} (hverb : verb ≠ .create_new) :
    ¬ Claimed root attempt_id [⟨.file ⟨path, verb⟩, reply⟩] := fun h =>
  verb_ne hverb (congrArg Event.call (List.mem_singleton.mp h)).symm

/-- The way to an ancestor is known to be free of links. -/
theorem Testimony.unlinked (h : Testimony root attempt_id events t) (hreached : RootReached root t)
    (hscope : path_in_scope root = true)
    (hmem : ancestor ∈ below_scope (components root.toList))
    (habove : ∀ above ∈ below_scope (components root.toList), above <+: ancestor → above ≠ ancestor →
      Passed above events) :
    Unlinked ancestor.dropLast t := by
  obtain ⟨canary, hcanary, rest, hcomponents, hscoped⟩ := below_scope_eq hscope
  have hlisted := hmem
  rw [hscoped] at hlisted
  obtain ⟨q, hq, rfl⟩ := List.mem_map.mp hlisted
  rcases List.eq_nil_or_concat q with rfl | ⟨front, last, rfl⟩
  · rw [List.append_nil]
    exact hreached canary hcanary (hcomponents ▸ List.prefix_append _ _)
  · rw [List.concat_eq_append, ← List.append_assoc, List.dropLast_concat]
    have hparent : components canary.toList ++ front ∈ below_scope (components root.toList) := by
      rw [hscoped]
      refine List.mem_map_of_mem ((List.mem_inits _ _).mpr ?_)
      have hfront : front <+: front.concat last := by
        rw [List.concat_eq_append]
        exact List.prefix_append front [last]
      exact hfront.trans ((List.mem_inits _ _).mp hq)
    refine unlinked_of_dir (h.passed _ hparent (habove _ hparent ?_ ?_))
    · rw [List.concat_eq_append, ← List.append_assoc]
      exact List.prefix_append _ _
    · intro heq
      have hlength := congrArg List.length heq
      simp at hlength

/-- The root is a directory where all its ancestors are passed. -/
theorem Testimony.root_dir (h : Testimony root attempt_id events t) (hscope : path_in_scope root = true)
    (hrooted : Rooted root events) :
    node (components root.toList) t = some .dir := by
  obtain ⟨canary, hcanary, rest, hcomponents, hscoped⟩ := below_scope_eq hscope
  have hmem : components root.toList ∈ below_scope (components root.toList) := by
    rw [hscoped, hcomponents]
    exact List.mem_map_of_mem ((List.mem_inits _ _).mpr List.prefix_rfl)
  exact h.passed _ hmem (hrooted _ hmem)

section

variable {fault : Option (Fault Component)}

/-- An ancestor is looked at. -/
theorem look_deed {reply : Except Errno Metadata} (h : Testimony root attempt_id events t)
    (hunlinked : Unlinked ancestor.dropLast t)
    (hexec : (⟨ancestor, .symlink_metadata⟩ : Call Component).exec follow fault t = (reply, t')) :
    Deed root attempt_id events ⟨.file ⟨ancestor, .symlink_metadata⟩, reply⟩ t t' := by
  obtain ⟨hreply, hsame⟩ := exec_symlink_metadata follow fault hunlinked
  rw [hexec] at hreply hsame
  dsimp only at hreply hsame
  subst hsame
  refine h.deed (.refl ..) (not_claimed (by simp)) rfl fun other _ hpassed => ?_
  rcases hpassed with hmem | hmem
  · cases List.mem_singleton.mp hmem
    exact node_of_stat hreply.symm
  · exact absurd (congrArg Event.call (List.mem_singleton.mp hmem)) (verb_ne (by simp))

/-- A directory is made at the root or above, unless that fails. -/
theorem make_deed {reply : Except Errno Unit} (h : Testimony root attempt_id events t)
    (hunlinked : Unlinked ancestor.dropLast t) (hancestor : ancestor <+: components root.toList)
    (hexec : (⟨ancestor, .create_dir⟩ : Call Component).exec follow fault t = (reply, t')) :
    Deed root attempt_id events ⟨.file ⟨ancestor, .create_dir⟩, reply⟩ t t' := by
  obtain ⟨hreply, habove, hnone, htree⟩ | ⟨⟨e, hreply⟩, hsame⟩ := exec_create_dir follow fault hunlinked
  · rw [hexec] at htree
    dsimp only at htree
    subst htree
    refine h.deed (calm_made habove hnone hancestor) (not_claimed (by simp)) rfl fun other _ hpassed => ?_
    rcases hpassed with hmem | hmem
    · exact absurd (congrArg Event.call (List.mem_singleton.mp hmem)) (verb_ne (by simp))
    · cases List.mem_singleton.mp hmem
      rw [node_made habove hnone, if_pos rfl]
  · rw [hexec] at hreply hsame
    dsimp only at hreply hsame
    subst hsame
    refine h.deed (.refl ..) (not_claimed (by simp)) rfl fun other _ hpassed => ?_
    rcases hpassed with hmem | hmem
    · exact absurd (congrArg Event.call (List.mem_singleton.mp hmem)) (verb_ne (by simp))
    · cases List.mem_singleton.mp hmem
      cases hreply

/-- The directory of the attempt is made, unless that fails. -/
theorem allocate_deed {reply : Except Errno Unit} (h : Testimony root attempt_id events t)
    (hlocatable : Locatable root attempt_id)
    (hroot : node (components root.toList) t = some .dir)
    (hexec : (⟨attempt_dir root attempt_id, .create_dir⟩ : Call Component).exec follow fault t = (reply, t')) :
    Deed root attempt_id events ⟨.file ⟨attempt_dir root attempt_id, .create_dir⟩, reply⟩ t t' := by
  have hpath := hlocatable.attempt_dir_eq
  have hunlinked : Unlinked (attempt_dir root attempt_id).dropLast t := by
    rw [hpath, List.dropLast_concat]
    exact unlinked_of_dir hroot
  have hother (reply : Except Errno Unit) : ∀ ancestor ∈ below_scope (components root.toList),
      ¬ Passed ancestor [⟨.file ⟨attempt_dir root attempt_id, .create_dir⟩, reply⟩] := by
    rintro ancestor hmem (hpassed | hpassed)
    · exact absurd (congrArg Event.call (List.mem_singleton.mp hpassed)) (verb_ne (by simp))
    · have hlength := (prefix_of_below_scope hmem).length_le
      cases List.mem_singleton.mp hpassed
      rw [hpath, List.length_append, List.length_singleton] at hlength
      omega
  obtain ⟨hreply, habove, hnone, htree⟩ | ⟨-, hsame⟩ := exec_create_dir follow fault hunlinked
  · rw [hexec] at htree
    dsimp only at htree
    subst htree
    refine h.deed ?_ (not_claimed (by simp)) rfl fun ancestor hmem hpassed =>
      absurd hpassed (hother reply ancestor hmem)
    rw [hpath]
    exact calm_below fun name _ => hlocatable.ledger_ne name
  · rw [hexec] at hsame
    dsimp only at hsame
    subst hsame
    exact h.deed (.refl ..) (not_claimed (by simp)) rfl fun ancestor hmem hpassed =>
      absurd hpassed (hother reply ancestor hmem)

theorem remove_deed {reply : Except Errno Unit} (h : Testimony root attempt_id events t)
    (hlocatable : Locatable root attempt_id)
    (hroot : node (components root.toList) t = some .dir)
    (hexec : (⟨attempt_dir root attempt_id, .remove_dir_all⟩ : Call Component).exec follow fault t = (reply, t')) :
    Deed root attempt_id events ⟨.file ⟨attempt_dir root attempt_id, .remove_dir_all⟩, reply⟩ t t' := by
  have hpath := hlocatable.attempt_dir_eq
  have hunlinked : Unlinked (attempt_dir root attempt_id).dropLast t := by
    rw [hpath, List.dropLast_concat]
    exact unlinked_of_dir hroot
  have htree := congrArg Prod.snd hexec
  unfold Call.exec at htree
  dsimp only at htree
  rw [locate_unlinked rfl hunlinked] at htree
  subst htree
  refine h.deed ?_ (not_claimed (by simp)) rfl fun ancestor _ hpassed => (not_passed hpassed (by simp) (by simp)).elim
  rw [hpath]
  exact calm_below fun name _ => hlocatable.ledger_ne name

/-- Looking for the directory and syncing the ledger change nothing. -/
theorem find_deed {reply : Except Errno Metadata} (h : Testimony root attempt_id events t)
    (hexec : (⟨attempt_dir root attempt_id, .metadata⟩ : Call Component).exec follow fault t = (reply, t')) :
    Deed root attempt_id events ⟨.file ⟨attempt_dir root attempt_id, .metadata⟩, reply⟩ t t' := by
  have htree := congrArg Prod.snd hexec
  obtain rfl : t = t' := (alter_get _ t).symm.trans htree
  exact h.deed (.refl ..) (not_claimed (by simp)) rfl fun ancestor _ hpassed =>
    (not_passed hpassed (by simp) (by simp)).elim

theorem sync_deed {reply : Except Errno Unit} (h : Testimony root attempt_id events t)
    (hexec : (⟨ownership_record root attempt_id, .sync_all⟩ : Call Component).exec follow fault t = (reply, t')) :
    Deed root attempt_id events ⟨.file ⟨ownership_record root attempt_id, .sync_all⟩, reply⟩ t t' := by
  have htree := congrArg Prod.snd hexec
  obtain rfl : t = t' := (alter_get _ t).symm.trans htree
  exact h.deed (.refl ..) (not_claimed (by simp)) rfl fun ancestor _ hpassed =>
    (not_passed hpassed (by simp) (by simp)).elim

/-- A change at the ledger of the attempt is calm to the others. -/
theorem calm_ledger {f : Option (FsTree Component) → Option (FsTree Component)} :
    Calm root (some attempt_id) t (alter f (components root.toList ++ [ledger_name attempt_id]) t) :=
  calm_below fun _ hother heq => hother (congrArg some (ledger_name_injective heq).symm)

/-- The ledger is made, where there was none, or that fails. -/
theorem claim_deed {reply : Except Errno Unit} (h : Testimony root attempt_id events t)
    (hlocatable : Locatable root attempt_id)
    (hroot : node (components root.toList) t = some .dir)
    (hexec : (⟨ownership_record root attempt_id, .create_new⟩ : Call Component).exec follow fault t = (reply, t')) :
    Deed root attempt_id events ⟨.file ⟨ownership_record root attempt_id, .create_new⟩, reply⟩ t t' := by
  have hpath := hlocatable.ownership_record_eq
  have hunlinked : Unlinked (ownership_record root attempt_id).dropLast t := by
    rw [hpath, List.dropLast_concat]
    exact unlinked_of_dir hroot
  have hbased : Based (components root.toList ++ [ledger_name attempt_id]) t := by
    refine based_of_above ?_
    rw [node_above, if_neg (by simp), List.dropLast_concat]
    exact hroot
  have hnot {reply : Except Errno Unit} {ancestor : FsPath} :
      ¬ Passed ancestor [⟨.file ⟨ownership_record root attempt_id, .create_new⟩, reply⟩] :=
    fun hpassed => not_passed hpassed (by simp) (by simp)
  obtain ⟨hreply, hnone, htree⟩ | ⟨⟨e, hreply⟩, hsame⟩ := exec_create_new follow fault hunlinked
  · rw [hexec, hpath] at htree
    rw [hexec] at hreply
    rw [hpath] at hnone
    dsimp only at hreply htree
    subst hreply htree
    have hcalm : Calm root (some attempt_id) t
      (alter (fun _ => some (.file [])) (components root.toList ++ [ledger_name attempt_id]) t) :=
      calm_ledger
    have hnode : node (components root.toList ++ [ledger_name attempt_id])
        (alter (fun _ => some (.file [])) (components root.toList ++ [ledger_name attempt_id]) t) =
          some (.file []) := by
      rw [node, get_alter (Or.inr hbased)]
      rfl
    have hunclaimed : ¬ Claimed root attempt_id events := fun hclaimed => by
      obtain ⟨content, hcontent, -⟩ := h.claimed hclaimed
      rw [node, hnone] at hcontent
      cases hcontent
    have hstill := h.calm hcalm fun hclaimed => absurd hclaimed hunclaimed
    refine ⟨hcalm, ⟨fun ancestor hmem hpush => ?_, fun _ => ⟨[], hnode, fun _ => ?_⟩, fun hnot => ?_⟩, fun _ =>
      Or.inr ?_,
      fun hnot => ?_⟩
    · exact hstill.passed ancestor hmem ((passed_push hpush).resolve_right hnot)
    · rw [recorded_push, h.unclaimed hunclaimed]
      rfl
    · exact absurd (List.mem_append_right _ List.mem_cons_self) hnot
    · rw [node, hnone]
      rfl
    · exact absurd (List.mem_append_right _ List.mem_cons_self) hnot
  · rw [hexec] at hreply hsame
    dsimp only at hreply hsame
    subst hreply hsame
    refine h.deed (.refl ..) (fun hclaimed => ?_) rfl fun ancestor _ hpassed => (hnot hpassed).elim
    cases List.mem_singleton.mp hclaimed

/-- The ledger is written to, as far as that goes. -/
theorem write_deed {bytes : List UInt8} {reply : Except Errno Unit} (h : Testimony root attempt_id events t)
    (hlocatable : Locatable root attempt_id) (hclaimed : Claimed root attempt_id events)
    (hexec : (⟨ownership_record root attempt_id, .write_all bytes⟩ : Call Component).exec follow fault t =
      (reply, t')) :
    Deed root attempt_id events ⟨.file ⟨ownership_record root attempt_id, .write_all bytes⟩, reply⟩ t t' := by
  have hpath := hlocatable.ownership_record_eq
  obtain ⟨content, hnode, hcontent⟩ := h.claimed hclaimed
  have hget : get (components root.toList ++ [ledger_name attempt_id]) t = some (.file content) := by
    obtain ⟨s, hs, hfile⟩ := Option.map_eq_some_iff.mp hnode
    cases s with
    | file other =>
      obtain rfl := Node.file.inj hfile
      exact hs
    | _ => cases hfile
  obtain ⟨added, htree, hreply⟩ := exec_write_all follow fault bytes (hpath.symm ▸ hget)
  rw [hexec] at htree hreply
  dsimp only at htree hreply
  subst htree
  rw [hpath]
  have hcalm : Calm root (some attempt_id) t
      (alter (fun _ => some (.file (content ++ added))) (components root.toList ++ [ledger_name attempt_id]) t) :=
        calm_ledger
  have hwritten : node (components root.toList ++ [ledger_name attempt_id])
      (alter (fun _ => some (.file (content ++ added))) (components root.toList ++ [ledger_name attempt_id]) t) =
        some (.file (content ++ added)) := by
    rw [node, get_alter (Or.inr (based_of_get hget))]
    rfl
  refine ⟨hcalm, ⟨fun ancestor hmem hpush => ?_, fun _ => ⟨content ++ added, hwritten, fun hwhole => ?_⟩,
    fun hnot => ?_⟩,
    fun _ => Or.inl hclaimed, fun hnot => ?_⟩
  · rcases passed_push hpush with hbefore | hnow
    · exact hcalm.firm.dir (prefix_of_below_scope hmem) (h.passed ancestor hmem hbefore)
    · exact (not_passed hnow (by simp) (by simp)).elim
  · rw [recorded_push, ← hcontent fun event hevent => hwhole event (List.mem_append_left _ hevent)]
    have hlast := hwhole _ (List.mem_append_right _ List.mem_cons_self)
    rcases hreply with ⟨rfl, rfl⟩ | ⟨e, rfl⟩
    · rfl
    · cases hlast
  · exact absurd (List.mem_append_left _ hclaimed) hnot
  · exact absurd (List.mem_append_left _ hclaimed) hnot

end

/-- Only file calls change the tree. -/
theorem still_deed {call : Syscall} (h : Testimony root attempt_id events t) (hstill : ∀ file, call ≠ .file file) :
    Deed root attempt_id events ⟨call, (call.exec follow answers t).1⟩ t (call.exec follow answers t).2 := by
  have htree : (call.exec follow answers t).2 = t := by
    cases call with
    | file file => exact absurd rfl (hstill file)
    | _ => rfl
  rw [htree]
  refine h.deed (.refl ..) (fun hclaimed => ?_) ?_ fun ancestor _ hpassed => ?_
  · exact absurd (congrArg Event.call (List.mem_singleton.mp hclaimed)).symm (hstill _)
  · cases call with
    | file file => exact absurd rfl (hstill file)
    | _ => rfl
  · rcases hpassed with hmem | hmem
    · exact absurd (congrArg Event.call (List.mem_singleton.mp hmem)).symm (hstill _)
    · exact absurd (congrArg Event.call (List.mem_singleton.mp hmem)).symm (hstill _)

theorem SocketLaw.still {deadline : Nat} {call : Syscall} (h : SocketLaw deadline events call) :
    ∀ file, call ≠ .file file := by
  rintro file rfl
  cases h

/-- What a lawful call of an attempt does. -/
theorem Testimony.next {call : Syscall} (h : Testimony root config.attempt_id events t) (hreached : RootReached root t)
    (hlaw : Lawful root config events call) :
    Deed root config.attempt_id events ⟨call, (call.exec follow answers t).1⟩ t (call.exec follow answers t).2 := by
  cases hlaw with
  | clock hclock =>
    refine still_deed h ?_
    rintro file rfl
    cases hclock
  | file hlocatable hlaw =>
    cases hlaw with
    | look hmem habove => exact look_deed h (h.unlinked hreached hlocatable.root hmem habove) rfl
    | make hmem habove =>
      exact make_deed h (h.unlinked hreached hlocatable.root hmem habove) (prefix_of_below_scope hmem) rfl
    | allocate hrooted => exact allocate_deed h hlocatable (h.root_dir hlocatable.root hrooted) rfl
    | claim hrooted => exact claim_deed h hlocatable (h.root_dir hlocatable.root hrooted) rfl
    | write hclaimed _ => exact write_deed h hlocatable hclaimed rfl
    | sync => exact sync_deed h rfl
    | remove hrooted => exact remove_deed h hlocatable (h.root_dir hlocatable.root hrooted) rfl
    | find => exact find_deed h rfl
  | socket _ _ _ hlaw => exact still_deed h hlaw.still

/-- Who has not claimed a ledger does not claim it when another has. -/
theorem Deed.unclaimed {event : Event} {others : List Event} (hdeed : Deed root attempt_id events event t t')
    (hother : Testimony root attempt_id others t) (hclaimed : Claimed root attempt_id others)
    (hnot : ¬ Claimed root attempt_id events) : ¬ Claimed root attempt_id (events ++ [event]) := by
  intro hnow
  rcases hdeed.fresh hnow with hbefore | hnone
  · exact hnot hbefore
  · obtain ⟨content, hnode, -⟩ := hother.claimed hclaimed
    rw [hnone] at hnode
    cases hnode

/-- What another attempt has been told is still so after a call. -/
theorem Testimony.others {event : Event} {others : List Event} (h : Testimony root other others t)
    (hdeed : Deed root attempt_id events event t t')
    (hone : other = attempt_id → Claimed root other others → ¬ Claimed root attempt_id events) :
      Testimony root other others t' := by
  by_cases hclaimed : other = attempt_id ∧ Claimed root other others
  · obtain ⟨rfl, hclaimed⟩ := hclaimed
    have hnot := hdeed.unclaimed h hclaimed (hone rfl hclaimed)
    have hcalm : Calm root none t t' := by
      refine ⟨hdeed.calm.firm, fun name _ => ?_⟩
      by_cases hname : name = other
      · rw [hname]
        exact hdeed.kept hnot
      · exact hdeed.calm.ledgers name fun heq => hname (Option.some.inj heq)
    exact h.calm hcalm fun _ => by simp
  · exact h.calm hdeed.calm fun hclaims heq => hclaimed ⟨Option.some.inj heq, hclaims⟩

/-- What stands of all attempts in a root, against the tree they have started on. -/
structure Standing (root : String) (t₀ : Option (FsTree Component)) (pool : AttemptPool) : Prop where
  reached : RootReached root pool.shared
  testimony : ∀ (i : Nat) run, pool.parts[i]? = some run → Testimony root run.config.attempt_id run.events pool.shared
  unique : ∀ (i j : Nat) run other, pool.parts[i]? = some run → pool.parts[j]? = some other →
    run.config.attempt_id = other.config.attempt_id → Claimed root run.config.attempt_id run.events →
      Claimed root other.config.attempt_id other.events → i = j
  spent : ∀ name found, node (components root.toList ++ [ledger_name name]) t₀ = some found →
    node (components root.toList ++ [ledger_name name]) pool.shared = some found ∧
      ∀ (i : Nat) run, pool.parts[i]? = some run → run.config.attempt_id = name → ¬ Claimed root name run.events

section

variable {digest : List UInt8 → List UInt8} {debug : Except String Unit → String} {fuel : Nat}
    {t₀ : Option (FsTree Component)}
  {configs : List LocalProcedureConfig} {pool next : AttemptPool} {labels : List (Nat × Answers)} {i j : Nat}
  {run moved moved' : AttemptRun}

/-- One call of one attempt. -/
theorem Standing.deed {event : Event} (h : Standing root t₀ pool) (hmoved : pool.parts[i]? = some moved)
    (hconfig : moved'.config = moved.config) (hevents : moved'.events = moved.events ++ [event])
    (hdeed : Deed root moved.config.attempt_id moved.events event pool.shared t') :
    Standing root t₀ ⟨t', pool.parts.set i moved'⟩ := by
  have hunclaimed {j : Nat} {run : AttemptRun} (hj : j ≠ i) (hpart : pool.parts[j]? = some run)
      (hsame : run.config.attempt_id = moved.config.attempt_id)
        (hclaimed : Claimed root run.config.attempt_id run.events) :
      ¬ Claimed root moved.config.attempt_id moved.events := fun hbefore =>
    hj (h.unique j i run moved hpart hmoved hsame hclaimed hbefore)
  have hapart {j : Nat} {run : AttemptRun} (hj : j ≠ i) (hpart : pool.parts[j]? = some run)
      (hsame : run.config.attempt_id = moved.config.attempt_id)
        (hclaimed : Claimed root run.config.attempt_id run.events) :
      ¬ Claimed root moved'.config.attempt_id moved'.events := by
    rw [hconfig, hevents]
    exact hdeed.unclaimed (hsame ▸ h.testimony j run hpart) (hsame ▸ hclaimed) (hunclaimed hj hpart hsame hclaimed)
  refine ⟨h.reached.firm hdeed.calm.firm, fun j run hj => ?_, fun j k run other hj hk hsame hclaimed hclaimed' => ?_,
    fun name found hfound => ?_⟩
  · obtain ⟨rfl, rfl⟩ | ⟨hne, hpart⟩ := Pool.set_cases hmoved hj
    · rw [hconfig, hevents]
      exact hdeed.testimony
    · exact (h.testimony j run hpart).others hdeed fun hsame hclaimed => hunclaimed hne hpart hsame hclaimed
  · obtain ⟨rfl, rfl⟩ | ⟨hne, hpart⟩ := Pool.set_cases hmoved hj
    · obtain ⟨rfl, rfl⟩ | ⟨hne, hpart⟩ := Pool.set_cases hmoved hk
      · rfl
      · exact absurd hclaimed (hapart hne hpart (hsame.symm.trans (congrArg _ hconfig)) hclaimed')
    · obtain ⟨rfl, rfl⟩ | ⟨hne', hpart'⟩ := Pool.set_cases hmoved hk
      · exact absurd hclaimed' (hapart hne hpart (hsame.trans (congrArg _ hconfig)) hclaimed)
      · exact h.unique j k run other hpart hpart' hsame hclaimed hclaimed'
  · obtain ⟨hstill, hspent⟩ := h.spent name found hfound
    have hnot (hname : moved.config.attempt_id = name) : ¬ Claimed root name (moved.events ++ [event]) := by
      subst hname
      intro hnow
      rcases hdeed.fresh hnow with hbefore | hnone
      · exact hspent i moved hmoved rfl hbefore
      · rw [hstill] at hnone
        cases hnone
    refine ⟨?_, fun j run hj hname => ?_⟩
    · by_cases hname : moved.config.attempt_id = name
      · subst hname
        exact (hdeed.kept (hnot rfl)).trans hstill
      · exact (hdeed.calm.ledgers name fun heq => hname (Option.some.inj heq).symm).trans hstill
    · obtain ⟨rfl, rfl⟩ | ⟨-, hpart⟩ := Pool.set_cases hmoved hj
      · rw [hevents]
        exact hnot (hconfig ▸ hname)
      · exact hspent j run hpart hname

theorem Standing.start (hreached : RootReached root t₀) :
    Standing root t₀ (.start digest debug fuel root t₀ configs) := by
  have hparts {i : Nat} {run : AttemptRun}
      (hpart : (AttemptPool.start digest debug fuel root t₀ configs).parts[i]? = some run) : run.events = [] := by
    rw [AttemptPool.start, List.getElem?_map, Option.map_eq_some_iff] at hpart
    obtain ⟨config, -, rfl⟩ := hpart
    rfl
  have hunclaimed {i : Nat} {run : AttemptRun} (name : String)
      (hpart : (AttemptPool.start digest debug fuel root t₀ configs).parts[i]? = some run) :
        ¬ Claimed root name run.events := by
    rw [hparts hpart]
    exact List.not_mem_nil
  refine ⟨hreached, fun i run hpart => ⟨fun ancestor _ hpassed => ?_, fun hclaimed =>
    absurd hclaimed (hunclaimed _ hpart),
    fun _ => ?_⟩, fun i j run other hpart _ _ hclaimed _ => absurd hclaimed (hunclaimed _ hpart),
    fun name found hfound => ⟨hfound, fun i run hpart _ => hunclaimed name hpart⟩⟩
  · rw [hparts hpart] at hpassed
    rcases hpassed with hmem | hmem
    · cases hmem
    · cases hmem
  · rw [hparts hpart]
    rfl

/-- However the attempts take turns. -/
theorem attempts_stand (hreached : RootReached root t₀)
    (hrun : Transition.run (AttemptPool.step follow) (.start digest debug fuel root t₀ configs) labels = some pool) :
    Standing root t₀ pool := by
  have hpreserved : Transition.Preserved (AttemptPool.step follow) fun pool =>
      (∀ (i : Nat) run, pool.parts[i]? = some run → Conforms digest root run) ∧ Standing root t₀ pool := by
    rintro pool ⟨i, answers⟩ next ⟨hkept, hstanding⟩ hstep
    refine ⟨conforms_step hkept hstep, ?_⟩
    obtain ⟨moved, moved', shared, hmoved, hmove, rfl⟩ := Pool.step_cases hstep
    obtain ⟨call, rest, hrest, rfl, rfl⟩ := AttemptRun.move_cases hmove
    have hlaw := ((hkept i moved hmoved).call hrest follow answers pool.shared).1
    exact hstanding.deed hmoved rfl rfl ((hstanding.testimony i moved hmoved).next hstanding.reached hlaw)
  exact (hpreserved.run ⟨conforms_start, .start hreached⟩ hrun).2

end

/-- The calls on sockets. -/
def Syscall.socket : Syscall → Bool
  | .file _ | .sleep _ => false
  | call => !call.clock

/-- The attempt has got past its reservation: it has used a socket or returned evidence. -/
def AttemptRun.Engaged (run : AttemptRun) : Prop :=
  (∃ event ∈ run.events, event.call.socket = true) ∨ ∃ evidence, run.evidence = some evidence

section

variable {digest : List UInt8 → List UInt8} {debug : Except String Unit → String} {fuel : Nat}
    {t₀ : Option (FsTree Component)}
  {configs : List LocalProcedureConfig} {pool next : AttemptPool} {labels : List (Nat × Answers)} {i j : Nat}
  {run moved moved' : AttemptRun}

theorem Conforms.reserved (h : Conforms digest root run) (hengaged : run.Engaged) :
    Reserved root run.config run.events := by
  obtain ⟨event, hmem, hsocket⟩ | ⟨evidence, hevidence⟩ := hengaged
  · obtain ⟨before, after, hevents⟩ := List.append_of_mem hmem
    have hlaw := h.lawful before event after hevents
    obtain ⟨call, reply⟩ := event
    cases hlaw with
    | clock hclock =>
      cases call with
      | file => cases hclock
      | _ => simp [Syscall.socket, hclock] at hsocket
    | file => cases hsocket
    | socket _ hreserved => exact hreserved.later (hevents ▸ List.prefix_append _ _)
  · exact (h.honest hevidence).reserved

/-- Whose ledger is claimed has one. -/
theorem Conforms.locatable (h : Conforms digest root run) (hclaimed : Claimed root run.config.attempt_id run.events) :
    Locatable root run.config.attempt_id := by
  obtain ⟨before, after, hevents⟩ := List.append_of_mem hclaimed
  cases h.lawful before _ after hevents with
  | clock hclock => cases hclock
  | file hlocatable => exact hlocatable
  | socket _ _ _ hlaw => cases hlaw

/-- After the sync nothing more is written. -/
theorem Conforms.written_after (h : Conforms digest root run) {before after : List Event}
    (hevents : run.events = before ++ after)
    (hsynced : ⟨.file ⟨ownership_record root run.config.attempt_id, .sync_all⟩,
      (Except.ok () : Except Errno Unit)⟩ ∈ before) :
    ∀ event ∈ after, event.written = [] ∧ event.torn = false := by
  intro event hmem
  obtain ⟨front, back, rfl⟩ := List.append_of_mem hmem
  have hlaw := h.lawful (before ++ front) event back (by rw [hevents, List.append_assoc])
  obtain ⟨call, reply⟩ := event
  cases hlaw with
  | clock hclock =>
    cases call with
    | file => cases hclock
    | _ => exact ⟨rfl, rfl⟩
  | file _ hlaw =>
    cases hlaw with
    | write _ hunsynced => exact absurd rfl (hunsynced _ (List.mem_append_left _ hsynced))
    | _ => exact ⟨rfl, rfl⟩
  | socket _ _ _ hlaw =>
    cases hlaw with
    | _ => exact ⟨rfl, rfl⟩

/-- The ledger of an attempt past its reservation. -/
theorem Standing.reservation (h : Standing root t₀ pool) (hconforms : Conforms digest root run)
    (hpart : pool.parts[i]? = some run) (hengaged : run.Engaged) :
    Claimed root run.config.attempt_id run.events ∧ ∃ started, ⟨.unix_ms, started⟩ ∈ run.events ∧
      node (components root.toList ++ [ledger_name run.config.attempt_id]) pool.shared =
        some (.file (reservation root run.config started)) := by
  obtain ⟨before, ⟨after, hevents⟩, hreserving⟩ := hconforms.reserved hengaged
  have hafter := hconforms.written_after hevents.symm hreserving.synced
  have hclaimed : Claimed root run.config.attempt_id run.events := hevents ▸ List.mem_append_left _ hreserving.claimed
  obtain ⟨started, hstarted, hrecorded⟩ := hreserving.recorded
  obtain ⟨content, hnode, hcontent⟩ := (h.testimony i run hpart).claimed hclaimed
  refine ⟨hclaimed, started, hevents ▸ List.mem_append_left _ hstarted, ?_⟩
  rw [hnode, hcontent fun event hmem => ?_, ← hevents, recorded, List.flatMap_append, ← recorded, hrecorded,
    List.flatMap_eq_nil_iff.mpr fun event hmem => (hafter event hmem).1, List.append_nil]
  rw [← hevents] at hmem
  rcases List.mem_append.mp hmem with hmem | hmem
  · exact hreserving.whole event hmem
  · exact (hafter event hmem).2

/-- However many attempts there are in a root, in processes that may stop anywhere, and however their
calls take turns and fail: of those with one id at most one gets past its reservation, which is then
in its ledger as a whole and stays so; a ledger that was there before is never touched, and nobody
with its id gets on. -/
theorem reservations_stand (hreached : RootReached root t₀)
    (hrun : Transition.run (AttemptPool.step follow) (.start digest debug fuel root t₀ configs) labels = some pool) :
    (∀ (i j : Nat) run other, pool.parts[i]? = some run → pool.parts[j]? = some other →
      run.config.attempt_id = other.config.attempt_id → run.Engaged → other.Engaged → i = j) ∧
    (∀ (i : Nat) run, pool.parts[i]? = some run → run.Engaged → ∃ started, ⟨.unix_ms, started⟩ ∈ run.events ∧
      node (ownership_record root run.config.attempt_id) pool.shared =
        some (.file (reservation root run.config started))) ∧
    ∀ name found, Locatable root name → node (ownership_record root name) t₀ = some found →
      node (ownership_record root name) pool.shared = some found ∧
        ∀ (i : Nat) run, pool.parts[i]? = some run → run.config.attempt_id = name → ¬ run.Engaged := by
  have hstanding := attempts_stand hreached hrun
  have hkept := attempts_kept hrun
  refine ⟨fun i j run other hi hj hsame hengaged hengaged' => ?_, fun i run hi hengaged => ?_,
    fun name found hlocatable hfound => ?_⟩
  · obtain ⟨hclaimed, -⟩ := hstanding.reservation (hkept i run hi) hi hengaged
    obtain ⟨hclaimed', -⟩ := hstanding.reservation (hkept j other hj) hj hengaged'
    exact hstanding.unique i j run other hi hj hsame hclaimed hclaimed'
  · obtain ⟨hclaimed, started, hstarted, hnode⟩ := hstanding.reservation (hkept i run hi) hi hengaged
    rw [((hkept i run hi).locatable hclaimed).ownership_record_eq]
    exact ⟨started, hstarted, hnode⟩
  · rw [hlocatable.ownership_record_eq] at hfound ⊢
    obtain ⟨hstill, hspent⟩ := hstanding.spent name found hfound
    refine ⟨hstill, fun i run hi hname hengaged => ?_⟩
    obtain ⟨hclaimed, -⟩ := hstanding.reservation (hkept i run hi) hi hengaged
    exact hspent i run hi hname (hname ▸ hclaimed)

/-- The second of two attempts with one id, which comes when the first has ended. -/
theorem second_attempt_refused : ∃ pool run other, control_attempts 2
    (List.replicate 46 0 ++ List.replicate 7 1) = some pool ∧
    pool.parts[0]? = some run ∧ pool.parts[1]? = some other ∧ run.Engaged ∧ ¬ other.Engaged := by
  have hended : ((control_attempts 2 (List.replicate 46 0 ++ List.replicate 7 1)).bind fun pool =>
    pool.parts[0]?.bind fun run =>
      run.evidence.bind fun _ => pool.parts[1]?).isSome = true := by decide +kernel
  obtain ⟨other, hother⟩ := Option.isSome_iff_exists.mp hended
  obtain ⟨pool, hpool, hparts⟩ := Option.bind_eq_some_iff.mp hother
  obtain ⟨run, hpart, hrest⟩ := Option.bind_eq_some_iff.mp hparts
  obtain ⟨evidence, hevidence, hpart'⟩ := Option.bind_eq_some_iff.mp hrest
  have hconfig : control_config = run.config := Option.some.inj (attempts_config hpool hpart)
  have hconfig' : control_config = other.config := Option.some.inj (attempts_config hpool hpart')
  have hengaged : run.Engaged := Or.inr ⟨evidence, hevidence⟩
  obtain ⟨hone, -⟩ := reservations_stand (fun canary hcanary _ => bare_host_unlinked canary hcanary) hpool
  refine ⟨pool, run, other, hpool, hpart, hpart', hengaged, fun hengaged' => ?_⟩
  exact absurd (hone 0 1 run other hpart hpart' (by rw [← hconfig, ← hconfig']) hengaged hengaged') (by decide)

end

end

end asmodeus.runner
