import Asmodeus.Runner.Injectors.Entries

open FileTree UnixPath
open asmodeus.dsl

namespace asmodeus.runner

variable {ι : Type}

/-- Some call may fail for a reason of its own. -/
def Faulty (fault : ι → Option (Fault Component)) : Prop := ∃ i, fault i ≠ none

/-- The names as components. -/
def normals (names : List String) : List Component := names.map fun name => .normal name.toList

/-- No directory, or one with nothing but files under the given names. -/
def Residue (names : List Component) (s : Option (FsTree Component)) : Prop := s = none ∨ Litter names s

section

variable {fault : ι → Option (Fault Component)} {base : FsPath} {dir : List Char} {s : Option (FsTree Component)}
  {name : Component} {entries : Entries} {names : List String}

theorem entry_path_eq {name : String} (hdir : dir ≠ []) (hname : IsName name.toList) :
    entry_path dir name = components dir ++ [.normal name.toList] := components_join hdir hname

theorem mem_removed {e : Component × FsTree Component} (he : e ∈ assign name entries none) :
    e ∈ entries ∧ e.1 ≠ name := by
  obtain ⟨hmem, hne⟩ := List.mem_filter.mp he
  exact ⟨hmem, of_decide_eq_true hne⟩

theorem remove_file_meets (hwritable : Writable name entries) :
    (remove_file_idempotent (base ++ [name])).Meets fault base (fun _ t => t = some (.dir (assign name entries none)))
      (fun t => Faulty fault ∧ t = some (.dir entries)) (some (.dir entries)) := by
  have hremove : (fs.remove_file (base ++ [name])).wp (fun i => act base (fault i)) (Below base)
      (fun result t => (result = .ok () ∨ result = .error .NotFound) ∧ t = some (.dir (assign name entries none)) ∨
        (∃ message, result = .error (.Other message)) ∧ Faulty fault ∧ t = some (.dir entries))
          (some (.dir entries)) := by
    refine wp_entry.mpr fun i => ?_
    obtain hnone | ⟨content, hfile⟩ := hwritable
    · rw [hnone]
      cases hfault : fault i with
      | none => exact Or.inl ⟨Or.inr rfl, rfl⟩
      | some f => exact Or.inl ⟨Or.inr rfl, rfl⟩
    · rw [hfile]
      cases hfault : fault i with
      | none => exact Or.inl ⟨Or.inl rfl, rfl⟩
      | some f =>
        have hsame := assign_lookup name entries
        rw [hfile] at hsame
        refine Or.inr ⟨⟨_, rfl⟩, ⟨i, by simp [hfault]⟩, congrArg (fun e => some (FsTree.dir e)) hsame⟩
  unfold remove_file_idempotent
  refine Io.meets_bind (Io.meets_lift hremove) ?_
  rintro result t (⟨hresult, htree⟩ | ⟨⟨message, hresult⟩, hfaulty, htree⟩)
  · obtain rfl | rfl := hresult
    · exact htree
    · exact htree
  · subst hresult
    exact ⟨hfaulty, htree⟩

theorem remove_files_meets (hpath : ∀ name ∈ names, entry_path dir name = components dir ++ [.normal name.toList])
    (hfiles : ∀ e ∈ entries, ∃ content, e.2 = .file content) :
    (names.forM fun name => remove_file_idempotent (entry_path dir name)).Meets fault (components dir)
      (fun _ t => ∃ entries' : Entries, t = some (.dir entries') ∧ ∀ e ∈ entries', e ∈ entries ∧ e.1 ∉ normals names)
      (fun t => Faulty fault ∧ ∃ entries' : Entries, t = some (.dir entries') ∧ ∀ e ∈ entries', e ∈ entries)
      (some (.dir entries)) := by
  induction names generalizing entries with
  | nil => exact ⟨entries, rfl, fun e he => ⟨he, List.not_mem_nil⟩⟩
  | cons name names ih =>
    have hwritable : Writable (.normal name.toList) entries := by
      cases hfound : KeyedList.find Prod.fst (Component.normal name.toList) entries with
      | none => exact Or.inl (by rw [lookup, hfound, Option.map_none])
      | some e =>
        obtain ⟨content, hcontent⟩ := hfiles e (KeyedList.find_some hfound).1
        exact Or.inr ⟨content, by rw [lookup, hfound, Option.map_some, hcontent]⟩
    change (remove_file_idempotent (entry_path dir name) >>= fun _ => _).Meets _ _ _ _ _
    rw [hpath name List.mem_cons_self]
    refine Io.meets_bind ((remove_file_meets hwritable).mono (fun _ _ h => h)
      fun t h => ⟨h.1, entries, h.2, fun e he => he⟩) ?_
    rintro _ _ rfl
    refine (ih (fun other hother => hpath other (List.mem_cons_of_mem _ hother))
      fun e he => hfiles e (mem_removed he).1).mono ?_ ?_
    · rintro _ _ ⟨entries', rfl, hleft⟩
      refine ⟨entries', rfl, fun e he => ?_⟩
      obtain ⟨hmem, hnames⟩ := hleft e he
      obtain ⟨hentry, hname⟩ := mem_removed hmem
      exact ⟨hentry, fun h => (List.mem_cons.mp h).elim hname hnames⟩
    · rintro _ ⟨hfaulty, entries', rfl, hleft⟩
      exact ⟨hfaulty, entries', rfl, fun e he => (mem_removed (hleft e he)).1⟩

theorem path_exists_meets (s : Option (FsTree Component)) :
    (fs.path_exists base).wp (fun i => act base (fault i)) (Below base)
    (fun found t => t = s ∧ (found = s.isSome ∨ (Faulty fault ∧ found = false))) s := by
  refine wp_base.mpr fun i => ⟨rfl, ?_⟩
  cases hfault : fault i with
  | some f => exact Or.inr ⟨⟨i, by simp [hfault]⟩, rfl⟩
  | none => cases s <;> exact Or.inl rfl

theorem remove_dir_meets : (fs.remove_dir base).wp (fun i => act base (fault i)) (Below base)
    (fun _ t => t = none ∨ (Faulty fault ∧ t = some (.dir []))) (some (.dir [])) := by
  refine wp_base.mpr fun i => ?_
  cases hfault : fault i with
  | some f => exact Or.inr ⟨⟨i, by simp [hfault]⟩, rfl⟩
  | none => exact Or.inl rfl

/-- The cleanup of an injector leaves nothing behind, unless a call of its own fails. -/
theorem cleanup_files_meets (hpath : ∀ name ∈ names, entry_path dir name = components dir ++ [.normal name.toList])
    (h : Residue (normals names) s) :
    (cleanup_files dir names).Meets fault (components dir)
      (fun _ t => t = none ∨ (Faulty fault ∧ Residue (normals names) t))
      (fun t => Faulty fault ∧ Residue (normals names) t) s := by
  unfold cleanup_files
  refine Io.meets_bind (Io.meets_lift (path_exists_meets s)) ?_
  rintro found _ ⟨rfl, hfound | ⟨hfaulty, rfl⟩⟩
  · obtain rfl | ⟨entries, rfl, hentries⟩ := h
    · subst hfound
      exact Or.inl rfl
    · subst hfound
      refine Io.meets_bind ((remove_files_meets hpath fun e he => (hentries e he).2).mono (fun _ _ h => h) ?_) ?_
      · rintro _ ⟨hfaulty, entries', rfl, hleft⟩
        exact ⟨hfaulty, Or.inr ⟨entries', rfl, fun e he => hentries e (hleft e he)⟩⟩
      · rintro _ _ ⟨entries', rfl, hleft⟩
        have hempty : entries' = [] := List.eq_nil_iff_forall_not_mem.mpr fun e he =>
          (hleft e he).2 (hentries e (hleft e he).1).1
        subst hempty
        refine Io.meets_bind (Io.meets_lift remove_dir_meets) ?_
        rintro _ _ (rfl | ⟨hfaulty, rfl⟩)
        · exact Or.inl rfl
        · exact Or.inr ⟨hfaulty, Or.inr ⟨[], rfl, fun e he => absurd he List.not_mem_nil⟩⟩
  · exact Or.inr ⟨hfaulty, h⟩

end

end asmodeus.runner
