import Asmodeus.Lib.KeyedList

namespace FileTree

/-- A file tree. A name that is given twice stands for its first entry. -/
inductive FsTree (ν : Type)
  | file (content : List UInt8)
  | symlink
  | dir (entries : List (ν × FsTree ν))

/-- What is at a path, without what is below it. -/
inductive Node
  | file (content : List UInt8)
  | symlink
  | dir
  deriving DecidableEq

def FsTree.node {ν : Type} : FsTree ν → Node
  | .file content => .file content
  | .symlink => .symlink
  | .dir _ => .dir

/-- Neither path leads to the other. -/
def Apart {ν : Type} (p q : List ν) : Prop := ¬ p <+: q ∧ ¬ q <+: p

theorem Apart.symm {ν : Type} {p q : List ν} (h : Apart p q) : Apart q p := ⟨h.2, h.1⟩

section

variable {ν : Type} [DecidableEq ν]

def lookup (name : ν) (entries : List (ν × FsTree ν)) : Option (FsTree ν) :=
  (KeyedList.find Prod.fst name entries).map Prod.snd

/-- The entries of a directory with another subtree, or none, under a name. -/
def assign (name : ν) (entries : List (ν × FsTree ν)) : Option (FsTree ν) → List (ν × FsTree ν)
  | none => entries.filter fun entry => decide (entry.1 ≠ name)
  | some t => KeyedList.upsert Prod.fst entries (name, t)

/-- The subtree at a path. -/
def get : List ν → Option (FsTree ν) → Option (FsTree ν)
  | [], t => t
  | name :: path, some (.dir entries) => get path (lookup name entries)
  | _ :: _, _ => none

/-- The tree with its subtree at a path changed. Nothing happens below what is no directory. -/
def alter (f : Option (FsTree ν) → Option (FsTree ν)) : List ν → Option (FsTree ν) → Option (FsTree ν)
  | [], t => f t
  | name :: path, some (.dir entries) => some (.dir (assign name entries (alter f path (lookup name entries))))
  | _ :: _, t => t

def node (path : List ν) (t : Option (FsTree ν)) : Option Node := (get path t).map FsTree.node

/-- Everything above the path is a directory. -/
def Based (path : List ν) (t : Option (FsTree ν)) : Prop :=
  ∀ above, above <+: path → above ≠ path → node above t = some .dir

/-- There is no symbolic link in the tree. -/
def Linkless (t : Option (FsTree ν)) : Prop := ∀ path, node path t ≠ some .symlink

variable {f g : Option (FsTree ν) → Option (FsTree ν)} {t : Option (FsTree ν)} {entries : List (ν × FsTree ν)}
  {name : ν}
  {p q : List ν}

@[simp] theorem lookup_assign_self (s : Option (FsTree ν)) : lookup name (assign name entries s) = s := by
  cases s with
  | none =>
    have hgone : KeyedList.find Prod.fst name (entries.filter fun entry => decide (entry.1 ≠ name)) = none :=
      KeyedList.find_filter_self name entries
    rw [lookup, assign, hgone, Option.map_none]
  | some s =>
    have hfound : KeyedList.find Prod.fst name (KeyedList.upsert Prod.fst entries (name, s)) = some (name, s) :=
      KeyedList.find_upsert_self entries (name, s)
    rw [lookup, assign, hfound, Option.map_some]

theorem lookup_assign_of_ne {other : ν} (hne : other ≠ name) (s : Option (FsTree ν)) :
    lookup other (assign name entries s) = lookup other entries := by
  cases s with
  | none => rw [lookup, assign, KeyedList.find_filter_ne hne, lookup]
  | some s =>
    have hkept : KeyedList.find Prod.fst other (KeyedList.upsert Prod.fst entries (name, s)) =
        KeyedList.find Prod.fst other entries := KeyedList.find_upsert_of_ne hne
    rw [lookup, assign, hkept, lookup]

theorem assign_lookup (name : ν) (entries : List (ν × FsTree ν)) :
    assign name entries (lookup name entries) = entries := by
  cases hfound : KeyedList.find Prod.fst name entries with
  | none =>
    rw [lookup, hfound]
    exact List.filter_eq_self.mpr fun e he => decide_eq_true (KeyedList.find_eq_none.mp hfound e he)
  | some e =>
    obtain ⟨-, rfl⟩ := KeyedList.find_some hfound
    have hstep : KeyedList.upsert Prod.fst entries (e.1, e.2) = KeyedList.replace Prod.fst e.1 e entries :=
      KeyedList.upsert_of_find_some hfound
    rw [lookup, hfound, Option.map_some, assign, hstep]
    exact KeyedList.replace_find_self hfound

@[simp] theorem get_nil (t : Option (FsTree ν)) : get [] t = t := rfl

@[simp] theorem get_none (path : List ν) : get path none = none := by
  cases path <;> rfl

@[simp] theorem get_cons_dir (path : List ν) : get (name :: path) (some (.dir entries)) = get path
    (lookup name entries) :=
  rfl

@[simp] theorem alter_nil (t : Option (FsTree ν)) : alter f [] t = f t := rfl

theorem get_append (p q : List ν) (t : Option (FsTree ν)) : get (p ++ q) t = get q (get p t) := by
  induction p generalizing t with
  | nil => rfl
  | cons name path ih =>
    match t with
    | some (.dir entries) => exact ih _
    | some (.file _) | some .symlink | none =>
      rw [List.cons_append]
      simp [get]

theorem alter_append (p q : List ν) (t : Option (FsTree ν)) : alter f (p ++ q) t = alter (alter f q) p t := by
  induction p generalizing t with
  | nil => rfl
  | cons name path ih =>
    match t with
    | some (.dir entries) => simp only [List.cons_append, alter, ih]
    | some (.file _) | some .symlink | none => rfl

theorem node_append (p q : List ν) (t : Option (FsTree ν)) : node (p ++ q) t = node q (get p t) := by
  rw [node, node, get_append]

/-- What has something below it is a directory. -/
theorem dir_of_get {s : FsTree ν} (h : get (name :: p) t = some s) : ∃ entries, t = some (.dir entries) := by
  match t with
  | some (.dir entries) => exact ⟨entries, rfl⟩
  | some (.file _) | some .symlink | none => simp [get] at h

theorem node_dir (h : node p t = some .dir) : ∃ entries, get p t = some (.dir entries) := by
  obtain ⟨s, hs, hdir⟩ := Option.map_eq_some_iff.mp h
  cases s with
  | dir entries => exact ⟨entries, hs⟩
  | file content => cases hdir
  | symlink => cases hdir

theorem based_of_get {s : FsTree ν} (h : get p t = some s) : Based p t := by
  rintro above ⟨below, rfl⟩ hne
  cases below with
  | nil => exact absurd (List.append_nil above).symm hne
  | cons name path =>
    rw [get_append] at h
    obtain ⟨entries, hentries⟩ := dir_of_get h
    rw [node, hentries]
    rfl

theorem based_cons (h : Based (name :: p) t) : ∃ entries, t = some (.dir entries) ∧ Based p (lookup name entries) := by
  obtain ⟨entries, hentries⟩ := node_dir (h [] List.nil_prefix nofun)
  obtain rfl : t = some (.dir entries) := hentries
  refine ⟨entries, rfl, fun above habove hne => ?_⟩
  exact h (name :: above) (List.prefix_cons_inj name |>.mpr habove) fun heq => hne (List.cons.inj heq).2

/-- A change is seen at its path, unless it makes something where there is no directory for it. -/
theorem get_alter (h : f none = none ∨ Based p t) : get p (alter f p t) = f (get p t) := by
  induction p generalizing t with
  | nil => rfl
  | cons name path ih =>
    match t with
    | some (.dir entries) =>
      have hbelow : f none = none ∨ Based path (lookup name entries) := by
        refine h.imp_right fun hbased => ?_
        obtain ⟨other, hother, hrest⟩ := based_cons hbased
        obtain rfl : entries = other := by simpa using hother
        exact hrest
      simp only [alter, get_cons_dir, lookup_assign_self, ih hbelow]
    | some (.file _) | some .symlink | none =>
      obtain hnone | hbased := h
      · simp [get, alter, hnone]
      · obtain ⟨entries, hentries, -⟩ := based_cons hbased
        cases hentries

/-- A subtree that stays what it is changes nothing. -/
theorem alter_get (p : List ν) (t : Option (FsTree ν)) : alter (fun _ => get p t) p t = t := by
  induction p generalizing t with
  | nil => rfl
  | cons name path ih =>
    match t with
    | some (.dir entries) =>
      simp only [alter, get_cons_dir]
      rw [ih, assign_lookup]
    | some (.file _) | some .symlink | none => rfl

theorem get_alter_above (hq : q ≠ []) : get p (alter f (p ++ q) t) = alter f q (get p t) := by
  rw [alter_append]
  refine get_alter (Or.inl ?_)
  cases q with
  | nil => exact absurd rfl hq
  | cons name path => rfl

theorem get_alter_apart (h : Apart p q) : get q (alter f p t) = get q t := by
  induction p generalizing q t with
  | nil => exact absurd List.nil_prefix h.1
  | cons name path ih =>
    cases q with
    | nil => exact absurd List.nil_prefix h.2
    | cons other rest =>
      match t with
      | some (.dir entries) =>
        simp only [alter, get_cons_dir]
        by_cases hname : other = name
        · subst hname
          rw [lookup_assign_self]
          exact ih ⟨fun hp => h.1 (List.prefix_cons_inj other |>.mpr hp), fun hq =>
            h.2 (List.prefix_cons_inj other |>.mpr hq)⟩
        · rw [lookup_assign_of_ne hname]
      | some (.file _) | some .symlink | none => rfl

theorem node_alter_below (hq : q ≠ []) : node [] (alter f q t) = node [] t := by
  cases q with
  | nil => exact absurd rfl hq
  | cons name path =>
    match t with
    | some (.dir entries) => rfl
    | some (.file _) | some .symlink | none => rfl

/-- A change leaves everything alone that is not below its path. -/
theorem node_alter (h : ¬ p <+: q) : node q (alter f p t) = node q t := by
  by_cases hq : q <+: p
  · obtain ⟨rest, rfl⟩ := hq
    have hrest : rest ≠ [] := by
      rintro rfl
      exact h (by simp)
    have hbelow : node [] (alter f rest (get q t)) = node [] (get q t) := node_alter_below hrest
    rw [node, get_alter_above hrest]
    exact hbelow
  · rw [node, get_alter_apart ⟨h, hq⟩, node]

theorem linkless_dir : Linkless (some (.dir entries)) ↔ ∀ name, Linkless (lookup name entries) := by
  constructor
  · exact fun h name path => h (name :: path)
  · intro h path
    cases path with
    | nil => simp [node, FsTree.node]
    | cons name path => exact h name path

theorem linkless_none : Linkless (none : Option (FsTree ν)) := fun path => by simp [node]

theorem Linkless.get (h : Linkless t) (p : List ν) : Linkless (get p t) := fun path => by
  rw [← node_append]
  exact h (p ++ path)

theorem Linkless.alter (h : Linkless t) (hf : ∀ s, Linkless s → Linkless (f s)) (p : List ν) :
    Linkless (alter f p t) := by
  induction p generalizing t with
  | nil => exact hf t h
  | cons name path ih =>
    match t with
    | some (.dir entries) =>
      rw [linkless_dir] at h
      rw [FileTree.alter, linkless_dir]
      intro other
      by_cases hname : other = name
      · rw [hname, lookup_assign_self]
        exact ih (h name)
      · rw [lookup_assign_of_ne hname]
        exact h other
    | some (.file _) | some .symlink | none => exact h

end

end FileTree
