import Asmodeus.Runner.Host

open FileTree UnixPath
open asmodeus.dsl

namespace asmodeus.runner

/-- The canary roots are reached over no symbolic link. -/
def RootsUnlinked (t : Option (FsTree Component)) : Prop :=
  ∀ root ∈ CANARY_ROOTS, Unlinked (components root.toList).dropLast t

theorem canary_root_scope : ∀ root ∈ CANARY_ROOTS, (components root.toList).getLast? = some scope_name ∧
    scope_name ∉ (components root.toList).dropLast := by
  decide

/-- Of all beginnings of a list those are dropped that come before its first good one. -/
theorem inits_dropWhile {α : Type} {P : List α → Bool} {front rest : List α} {c : α}
    (hfront : ∀ q, q <+: front → P q = true)
    (hfirst : P (front ++ [c]) = false) :
    (front ++ c :: rest).inits.dropWhile P = rest.inits.map fun q => (front ++ [c]) ++ q := by
  induction front generalizing P with
  | nil =>
    have hnil : P [] = true := hfront [] List.nil_prefix
    rw [List.nil_append] at hfirst
    rw [List.nil_append, List.inits_cons, List.dropWhile_cons_of_pos hnil]
    cases rest <;> simp [hfirst]
  | cons a front ih =>
    have hnil : P [] = true := hfront [] List.nil_prefix
    rw [List.cons_append, List.inits_cons, List.dropWhile_cons_of_pos hnil, List.dropWhile_map]
    have hbelow : (front ++ c :: rest).inits.dropWhile (P ∘ fun q => a :: q) = rest.inits.map fun q =>
      (front ++ [c]) ++ q :=
      ih (fun q hq => hfront (a :: q) (List.prefix_cons_inj a |>.mpr hq)) hfirst
    rw [hbelow, List.map_map]
    rfl

/-- The ancestors that are looked at are a canary root and what lies below it. -/
theorem below_scope_eq {target : String} (h : path_in_scope target = true) : ∃ root ∈ CANARY_ROOTS, ∃ rest,
    components target.toList = components root.toList ++ rest ∧
      below_scope (components target.toList) = rest.inits.map fun q => components root.toList ++ q := by
  obtain ⟨-, -, -, root, hroot, rest, hrest⟩ := path_in_scope_components h
  obtain ⟨hlast, hfront⟩ := canary_root_scope root hroot
  refine ⟨root, hroot, rest, hrest.symm, ?_⟩
  have hsplit : (components root.toList).dropLast ++ [scope_name] = components root.toList :=
    List.dropLast_append_getLast? scope_name hlast
  rw [below_scope, ← hrest, ← hsplit, List.append_assoc, List.singleton_append]
  refine inits_dropWhile (fun q hq => ?_) (by simp)
  have hnot : ¬ q.getLast? = some scope_name := fun hscope => hfront (hq.subset (List.mem_of_getLast? hscope))
  simp [hnot]

/-- The sandbox is one name below the target. -/
theorem Placeable.components_eq {plan : ExecutionPlan} {req : ExecuteRequest} (h : Placeable plan req) :
    components (sandbox_dir plan req) = components plan.target_dir.toList ++ [.normal req.run_id.toList] := by
  obtain ⟨hhead, -⟩ := path_in_scope_components h.target_dir
  have htarget : plan.target_dir.toList ≠ [] := by
    intro hnil
    rw [hnil] at hhead
    cases hhead
  exact components_join htarget (run_id_name h.run_id.1 h.run_id.2.2)

/-- The sandbox is new, empty and reached over directories, or nothing is made at its path. -/
def Created (base : FsPath) (before : Option (FsTree Component)) : Except String Unit → Option (FsTree Component) → Prop
  | .ok _, t => before = none ∧ Reached base t ∧ get base t = some (.dir [])
  | .error _, t => get base t = before

section

variable {follow : Option (FsTree Component) → FsPath → FsPath} {base path : FsPath} {name : Component}
  {before t : Option (FsTree Component)}

/-- File work of one run, among others that leave its directory alone. -/
abbrev Holds (follow : Option (FsTree Component) → FsPath → FsPath) (base : FsPath) (before : Option (FsTree Component))
    {α : Type} (x : Fs α) (Post : α → Option (FsTree Component) → Prop) (t : Option (FsTree Component)) : Prop :=
  Program.Holds (fun fault : Option (Fault Component) => Call.exec follow fault) (Leaves base)
    (Guards base before) Post x t

/-- Looking at an ancestor. -/
theorem symlink_metadata_holds (hpath : path <+: base) (hne : path ≠ base) (hunlinked : Unlinked path.dropLast t)
    (hbefore : get base t = before) :
    Holds follow base before (fs.symlink_metadata path)
      (fun found t => (found = .ok .dir → node path t = some .dir) ∧ Unlinked path.dropLast t ∧
        get base t = before) t := by
  intro t₁ hleaves fault
  have hparent := (List.dropLast_prefix path).trans hpath
  have hparent_ne : path.dropLast ≠ base := fun heq =>
    hne (hpath.eq_of_length_le (heq ▸ (List.dropLast_prefix path).length_le))
  have hunlinked₁ := hunlinked.leaves hparent hparent_ne hleaves
  have hbefore₁ : get base t₁ = before := hleaves.own.trans hbefore
  obtain ⟨hreply, hsame⟩ := exec_symlink_metadata follow fault hunlinked₁
  dsimp only
  rw [hreply, hsame]
  refine ⟨.refl base before t₁, fun t₂ hleaves₂ => ⟨fun hdir => ?_, hunlinked₁.leaves hparent hparent_ne hleaves₂,
    hleaves₂.own.trans hbefore₁⟩⟩
  exact hleaves₂.dir hpath hne (node_of_stat hdir)

/-- Making an ancestor, where there is none. -/
theorem create_ancestor_holds (hpath : path <+: base) (hne : path ≠ base) (hunlinked : Unlinked path.dropLast t)
    (hbefore : get base t = before) :
    Holds follow base before (fs.create_dir path)
      (fun made t => (made = .ok () → node path t = some .dir) ∧ Unlinked path.dropLast t ∧ get base t = before) t := by
  intro t₁ hleaves fault
  have hparent := (List.dropLast_prefix path).trans hpath
  have hparent_ne : path.dropLast ≠ base := fun heq =>
    hne (hpath.eq_of_length_le (heq ▸ (List.dropLast_prefix path).length_le))
  have hunlinked₁ := hunlinked.leaves hparent hparent_ne hleaves
  have hbefore₁ : get base t₁ = before := hleaves.own.trans hbefore
  obtain ⟨hreply, habove, hnone, htree⟩ | ⟨⟨e, hreply⟩, hsame⟩ := exec_create_dir follow fault hunlinked₁
  · obtain ⟨hown, hguards⟩ := guards_made before hpath hne habove hnone
    dsimp only
    rw [hreply, htree]
    have hmade : node path (alter (fun _ => some (.dir [])) path t₁) = some .dir := by
      rw [node_made habove hnone, if_pos rfl]
    have hunlinked₂ : Unlinked path.dropLast (alter (fun _ => some (.dir [])) path t₁) := fun above habove' =>
      unlinked_of_dir hmade above (habove'.trans (List.dropLast_prefix path))
    refine ⟨hguards, fun t₂ hleaves₂ => ⟨fun _ => hleaves₂.dir hpath hne hmade, hunlinked₂.leaves hparent
      hparent_ne hleaves₂,
      hleaves₂.own.trans (hown.trans hbefore₁)⟩⟩
  · dsimp only
    rw [hreply, hsame]
    exact ⟨.refl base before t₁, fun t₂ hleaves₂ => ⟨nofun, hunlinked₁.leaves hparent hparent_ne hleaves₂,
      hleaves₂.own.trans hbefore₁⟩⟩

/-- An ancestor that was passed is a directory. -/
theorem make_ancestor_holds (hpath : path <+: base) (hne : path ≠ base) (hunlinked : Unlinked path.dropLast t)
    (hbefore : get base t = before) :
    Holds follow base before (make_ancestor path)
      (fun result t => (result = .ok () → node path t = some .dir) ∧ get base t = before) t := by
  have hdone {result : Except String Unit} {t : Option (FsTree Component)}
      (hdir : result = .ok () → node path t = some .dir)
      (hbefore : get base t = before) :
      Holds follow base before (.done result)
        (fun result t => (result = .ok () → node path t = some .dir) ∧ get base t = before) t := fun t' hleaves =>
    ⟨fun hok => hleaves.dir hpath hne (hdir hok), hleaves.own.trans hbefore⟩
  unfold make_ancestor
  refine Program.holds_bind (.refl base) ((symlink_metadata_holds hpath hne hunlinked hbefore).mono ?_)
  rintro found t₁ ⟨hfound, hunlinked₁, hbefore₁⟩
  -- An ancestor that is there is good or bad; one that is not is made, or was made meanwhile.
  cases found with
  | ok entry =>
    cases entry with
    | dir => exact hdone (fun _ => hfound rfl) hbefore₁
    | _ => exact hdone nofun hbefore₁
  | error e =>
    cases e with
    | NotFound =>
      refine Program.holds_bind (.refl base) ((create_ancestor_holds hpath hne hunlinked₁ hbefore₁).mono ?_)
      rintro made t₂ ⟨hmade, hunlinked₂, hbefore₂⟩
      cases made with
      | ok _ => exact hdone (fun _ => hmade rfl) hbefore₂
      | error e =>
        cases e with
        | AlreadyExists =>
          refine Program.holds_bind (.refl base) ((symlink_metadata_holds hpath hne hunlinked₂ hbefore₂).mono ?_)
          rintro again t₃ ⟨hagain, -, hbefore₃⟩
          cases again with
          | ok entry =>
            cases entry with
            | dir => exact hdone (fun _ => hagain rfl) hbefore₃
            | _ => exact hdone nofun hbefore₃
          | error e => exact hdone nofun hbefore₃
        | _ => exact hdone nofun hbefore₂
    | _ => exact hdone nofun hbefore₁

theorem make_sandbox_holds {front rest : FsPath} (hbase : base = front ++ rest ++ [name])
    (hunlinked : Unlinked front.dropLast t) (hbefore : get base t = before) :
    Holds follow base before (make_sandbox base (rest.inits.map fun q => front ++ q)) (Created base before) t := by
  have hfailed {e : String} {t : Option (FsTree Component)} (hbefore : get base t = before) :
      Holds follow base before (.done (.error e)) (Created base before) t := fun t' hleaves => hleaves.own.trans hbefore
  induction rest generalizing front t with
  | nil =>
    have hfront : front <+: base := ⟨[name], by simp [hbase]⟩
    have hne : front ≠ base := fun heq => by
      have hlength := congrArg List.length (hbase.symm.trans heq.symm)
      simp at hlength
    rw [List.inits, List.map_singleton, List.append_nil]
    refine Program.holds_bind (.refl base) ((make_ancestor_holds hfront hne hunlinked hbefore).mono ?_)
    rintro result t₁ ⟨hdir, hbefore₁⟩
    cases result with
    | error e => exact hfailed hbefore₁
    | ok _ =>
      intro t₂ hleaves₂ fault
      have hdir₂ := hleaves₂.dir hfront hne (hdir rfl)
      have hbefore₂ := hleaves₂.own.trans hbefore₁
      have hunlinked₂ : Unlinked base.dropLast t₂ := by
        rw [hbase, List.append_nil, List.dropLast_concat]
        exact unlinked_of_dir hdir₂
      obtain ⟨hreply, habove, hnone, htree⟩ | ⟨⟨e, hreply⟩, hsame⟩ :=
        exec_create_dir follow fault hunlinked₂
      · obtain ⟨hreached, hempty, hguards⟩ := guards_own habove
        dsimp only
        rw [hreply, htree]
        obtain rfl : before = none := hbefore₂.symm.trans hnone
        exact ⟨hguards, fun t₃ hleaves₃ => ⟨rfl, hleaves₃.reached hreached, hleaves₃.own.trans hempty⟩⟩
      · dsimp only
        rw [hreply, hsame]
        exact ⟨.refl base before t₂, hfailed hbefore₂⟩
  | cons c rest ih =>
    have hfront : front <+: base := ⟨c :: rest ++ [name], by simp [hbase]⟩
    have hne : front ≠ base := fun heq => by
      have hlength := congrArg List.length (hbase.symm.trans heq.symm)
      simp at hlength
    rw [List.inits_cons, List.map_cons, List.append_nil, List.map_map]
    refine Program.holds_bind (.refl base) ((make_ancestor_holds hfront hne hunlinked hbefore).mono ?_)
    rintro result t₁ ⟨hdir, hbefore₁⟩
    cases result with
    | error e => exact hfailed hbefore₁
    | ok _ =>
      have hsteps : (fun q => front ++ q) ∘ (fun q => c :: q) = fun q => (front ++ [c]) ++ q := by
        funext q
        simp
      rw [hsteps]
      refine ih (by simp [hbase]) ?_ hbefore₁
      rw [List.dropLast_concat]
      exact unlinked_of_dir (hdir rfl)

end

end asmodeus.runner
