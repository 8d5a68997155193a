import Asmodeus.Lib.FileTree.Share

namespace FileTree

section

variable {ν : Type} [DecidableEq ν]

/-- No symbolic link is on the way of the path. -/
def Unlinked (path : List ν) (t : Option (FsTree ν)) : Prop := ∀ above, above <+: path → node above t ≠ some .symlink

/-- A program that makes its directory itself: what was there before stays as it was. -/
structure Guards (base : List ν) (before t t' : Option (FsTree ν)) : Prop where
  grows : Grows base t t'
  kept : before ≠ none → get base t' = get base t

variable {follow : Option (FsTree ν) → List ν → List ν} {fault : Option (Fault ν)} {base path : List ν}
  {before t t' t'' : Option (FsTree ν)}

theorem Guards.refl (base : List ν) (before t : Option (FsTree ν)) : Guards base before t t :=
  ⟨.refl base t, fun _ => rfl⟩

theorem Guards.trans (h : Guards base before t t') (h' : Guards base before t' t'') : Guards base before t t'' :=
  ⟨h.grows.trans h'.grows, fun hbefore => (h'.kept hbefore).trans (h.kept hbefore)⟩

/-- A directory is reached over directories. -/
theorem unlinked_of_dir (h : node path t = some .dir) : Unlinked path t := by
  obtain ⟨entries, hentries⟩ := node_dir h
  intro above habove hlink
  by_cases heq : above = path
  · rw [heq, h] at hlink
    cases hlink
  · rw [based_of_get hentries above habove heq] at hlink
    cases hlink

theorem Unlinked.leaves (h : Unlinked path t) (hpath : path <+: base) (hne : path ≠ base) (hleaves : Leaves base t t') :
    Unlinked path t' := fun above habove => by
  have hproper : above ≠ base := fun heq => hne (hpath.eq_of_length_le (heq ▸ habove.length_le))
  exact hleaves.unlinked (habove.trans hpath) hproper (h above habove)

theorem Unlinked.grows (h : Unlinked path t) (hpath : path <+: base) (hne : path ≠ base) (hgrows : Grows base t t') :
    Unlinked path t' := fun above habove hlink => by
  have hproper : ¬ base <+: above := fun hbase => hne
    (hpath.eq_of_length_le (hbase.length_le.trans habove.length_le))
  obtain hsame | ⟨-, hdir, -⟩ := hgrows.node above hproper
  · exact h above habove (hsame.symm.trans hlink)
  · rw [hlink] at hdir
    cases hdir

/-- A path whose last step alone may be a link is where the call arrives. -/
theorem locate_unlinked {verb : Verb} (hverb : verb.follows = false) (h : Unlinked path.dropLast t) :
    (⟨path, verb⟩ : Call ν).locate follow t = path := by
  have hnone : links path.dropLast t = false := links_eq_false.mpr h
  unfold Call.locate
  dsimp only
  rw [hverb, if_neg Bool.false_ne_true, hnone]
  rfl

theorem exec_symlink_metadata (follow : Option (FsTree ν) → List ν → List ν) (fault : Option (Fault ν))
    (h : Unlinked path.dropLast t) :
    ((⟨path, .symlink_metadata⟩ : Call ν).exec follow fault t).1 = stat fault (get path t) ∧
      ((⟨path, .symlink_metadata⟩ : Call ν).exec follow fault t).2 = t := by
  unfold Call.exec
  dsimp only
  rw [locate_unlinked rfl h]
  exact ⟨rfl, alter_get path t⟩

/-- Looking at a path tells of a directory only where there is one. -/
theorem node_of_stat {s : Option (FsTree ν)} (h : stat fault s = .ok .dir) : node [] s = some .dir := by
  unfold stat at h
  split at h
  · cases h
  · cases h
  · rename_i s
    cases s with
    | dir entries => rfl
    | file content => cases Except.ok.inj h
    | symlink => cases Except.ok.inj h

/-- A new directory, or nothing new. -/
theorem exec_create_dir (follow : Option (FsTree ν) → List ν → List ν) (fault : Option (Fault ν))
    (h : Unlinked path.dropLast t) :
    (((⟨path, .create_dir⟩ : Call ν).exec follow fault t).1 = Except.ok () ∧ node_above path t = some .dir ∧
      get path t = none ∧
      ((⟨path, .create_dir⟩ : Call ν).exec follow fault t).2 = alter (fun _ => some (.dir [])) path t) ∨
    (∃ e, ((⟨path, .create_dir⟩ : Call ν).exec follow fault t).1 = Except.error e) ∧
      ((⟨path, .create_dir⟩ : Call ν).exec follow fault t).2 = t := by
  unfold Call.exec
  dsimp only
  rw [locate_unlinked rfl h]
  have hsame := alter_get path t
  cases fault with
  | some fault => exact Or.inr ⟨⟨_, rfl⟩, hsame⟩
  | none =>
    cases hget : get path t with
    | some s =>
      rw [hget] at hsame
      exact Or.inr ⟨⟨_, rfl⟩, hsame⟩
    | none =>
      rw [hget] at hsame
      cases habove : node_above path t with
      | none => exact Or.inr ⟨⟨_, rfl⟩, hsame⟩
      | some above =>
        cases above with
        | dir => exact Or.inl ⟨rfl, rfl, rfl, rfl⟩
        | file content => exact Or.inr ⟨⟨_, rfl⟩, hsame⟩
        | symlink => exact Or.inr ⟨⟨_, rfl⟩, hsame⟩

/-- A new file, or nothing new. -/
theorem exec_create_new (follow : Option (FsTree ν) → List ν → List ν) (fault : Option (Fault ν))
    (h : Unlinked path.dropLast t) :
    (((⟨path, .create_new⟩ : Call ν).exec follow fault t).1 = Except.ok () ∧ get path t = none ∧
      ((⟨path, .create_new⟩ : Call ν).exec follow fault t).2 = alter (fun _ => some (.file [])) path t) ∨
    (∃ e, ((⟨path, .create_new⟩ : Call ν).exec follow fault t).1 = Except.error e) ∧
      ((⟨path, .create_new⟩ : Call ν).exec follow fault t).2 = t := by
  unfold Call.exec
  dsimp only
  rw [locate_unlinked rfl h]
  have hsame := alter_get path t
  cases fault with
  | some fault => exact Or.inr ⟨⟨_, rfl⟩, hsame⟩
  | none =>
    cases hget : get path t with
    | some s =>
      rw [hget] at hsame
      exact Or.inr ⟨⟨_, rfl⟩, hsame⟩
    | none =>
      rw [hget] at hsame
      cases node_above path t with
      | none => exact Or.inr ⟨⟨_, rfl⟩, hsame⟩
      | some above =>
        cases above with
        | dir => exact Or.inl ⟨rfl, rfl, rfl⟩
        | file content => exact Or.inr ⟨⟨_, rfl⟩, hsame⟩
        | symlink => exact Or.inr ⟨⟨_, rfl⟩, hsame⟩

/-- Writing to a file adds to it, all or a part of the bytes. -/
theorem exec_write_all (follow : Option (FsTree ν) → List ν → List ν) (fault : Option (Fault ν)) (bytes : List UInt8)
    {content : List UInt8} (h : get path t = some (.file content)) :
    ∃ added, ((⟨path, .write_all bytes⟩ : Call ν).exec follow fault t).2 =
        alter (fun _ => some (.file (content ++ added))) path t ∧
      ((((⟨path, .write_all bytes⟩ : Call ν).exec follow fault t).1 = Except.ok () ∧ added = bytes) ∨
        ∃ e, ((⟨path, .write_all bytes⟩ : Call ν).exec follow fault t).1 = Except.error e) := by
  have hlocate : (⟨path, .write_all bytes⟩ : Call ν).locate follow t = path := by
    refine Call.locate_eq fun above habove hlink => ?_
    by_cases heq : above = path
    · rw [heq, node, h] at hlink
      cases hlink
    · rw [based_of_get h above habove heq] at hlink
      cases hlink
  unfold Call.exec
  dsimp only
  rw [hlocate, h]
  cases fault with
  | none => exact ⟨bytes, rfl, Or.inl ⟨rfl, rfl⟩⟩
  | some fault => exact ⟨bytes.take fault.written, rfl, Or.inr ⟨_, rfl⟩⟩

theorem based_of_above (h : node_above path t = some .dir) : Based path t := by
  intro above habove hne
  have hpath : path ≠ [] := by
    rintro rfl
    exact hne (List.prefix_nil.mp habove)
  rw [node_above, if_neg hpath] at h
  have hbelow : above <+: path.dropLast := by
    refine List.prefix_of_prefix_length_le habove (List.dropLast_prefix path) ?_
    have hshorter : above.length ≠ path.length := fun hlength => hne (habove.eq_of_length hlength)
    have hle := habove.length_le
    rw [List.length_dropLast]
    omega
  obtain ⟨entries, hentries⟩ := node_dir h
  by_cases heq : above = path.dropLast
  · rw [heq, h]
  · exact based_of_get hentries above hbelow heq

/-- A new directory, and the tree around it. -/
theorem node_made (habove : node_above path t = some .dir) (hnone : get path t = none) (q : List ν) :
    node q (alter (fun _ => some (.dir [])) path t) = if q = path then some .dir else node q t := by
  by_cases hq : path <+: q
  · obtain ⟨rest, rfl⟩ := hq
    rw [node, get_append, get_alter (Or.inr (based_of_above habove)), node, get_append, hnone]
    cases rest with
    | nil => simp [FsTree.node]
    | cons name rest => simp [get, lookup, KeyedList.find]
  · rw [node_alter hq, if_neg]
    rintro rfl
    exact hq List.prefix_rfl

/-- A new directory above the base is all that is new. -/
theorem guards_made (before : Option (FsTree ν)) (hpath : path <+: base) (hne : path ≠ base)
    (habove : node_above path t = some .dir)
    (hnone : get path t = none) :
    get base (alter (fun _ => some (.dir [])) path t) = get base t ∧
      Guards base before t (alter (fun _ => some (.dir [])) path t) := by
  obtain ⟨rest, rfl⟩ := hpath
  have hrest : rest ≠ [] := by
    rintro rfl
    exact hne (by simp)
  have hsame : get (path ++ rest) (alter (fun _ => some (.dir [])) path t) = get (path ++ rest) t := by
    rw [get_append, get_alter (Or.inr (based_of_above habove)), get_append, hnone]
    cases rest with
    | nil => exact absurd rfl hrest
    | cons name rest => simp [get, lookup, KeyedList.find]
  refine ⟨hsame, ⟨fun q hq => ?_, fun q hq => ?_⟩, fun _ => hsame⟩
  · rw [node_made habove hnone]
    by_cases heq : q = path
    · subst heq
      rw [if_pos rfl, node, hnone]
      exact Or.inr ⟨rfl, rfl, List.prefix_append q rest⟩
    · exact Or.inl (if_neg heq)
  · by_cases hbelow : path <+: q
    · obtain ⟨below, rfl⟩ := hbelow
      have hbelow : below ≠ [] := by
        rintro rfl
        rw [List.append_nil] at hq
        exact hq.2 (List.prefix_append path rest)
      rw [get_append, get_alter (Or.inr (based_of_above habove)), get_append, hnone]
      cases below with
      | nil => exact absurd rfl hbelow
      | cons name below => simp [get, lookup, KeyedList.find]
    · refine get_alter_apart ⟨hbelow, fun habove' => hq.2 (habove'.trans (List.prefix_append path rest))⟩

/-- The base itself, made where there was nothing. -/
theorem guards_own (habove : node_above base t = some .dir) :
    Reached base (alter (fun _ => some (.dir [])) base t) ∧
      get base (alter (fun _ => some (.dir [])) base t) = some (.dir []) ∧
      Guards base none t (alter (fun _ => some (.dir [])) base t) := by
  have hmade : get base (alter (fun _ => some (.dir [])) base t) = some (.dir []) :=
    get_alter (Or.inr (based_of_above habove))
  have hlinkless : Linkless (get base (alter (fun _ => some (.dir [])) base t)) := by
    rw [hmade]
    exact linkless_empty
  exact ⟨⟨based_of_get hmade, hlinkless⟩, hmade, ⟨fun q hq => Or.inl (node_alter hq), fun q hq => get_alter_apart hq⟩,
    fun hbefore => absurd rfl hbefore⟩

end

end FileTree
