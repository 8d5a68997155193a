import Asmodeus.Lib.FileTree.Share
import Asmodeus.Runner.Injectors

open FileTree UnixPath
open asmodeus.dsl

namespace asmodeus.runner

/-- The entries of a directory. -/
abbrev Entries := List (Component × FsTree Component)

variable {ι α β : Type}

/-- Whatever fails, file work in a directory takes its subtree to where it should be after a
success, or after an error. -/
def Io.Meets (fault : ι → Option (Fault Component)) (base : FsPath) (x : Io α)
    (Ok : α → Option (FsTree Component) → Prop) (Err : Option (FsTree Component) → Prop)
    (s : Option (FsTree Component)) : Prop :=
  x.run.wp (fun i => act base (fault i)) (Below base) (fun result t => match result with
    | .ok a => Ok a t
    | .error _ => Err t) s

/-- A file written under a name. -/
def put (name : Component) (entries : Entries) (content : List UInt8) : Entries :=
  assign name entries (some (.file content))

/-- Nothing or a file is under the name. -/
def Writable (name : Component) (entries : Entries) : Prop :=
  lookup name entries = none ∨ ∃ content, lookup name entries = some (.file content)

/-- A directory of files under the given names. -/
def Litter (names : List Component) (s : Option (FsTree Component)) : Prop :=
  ∃ entries : Entries, s = some (.dir entries) ∧ ∀ e ∈ entries, e.1 ∈ names ∧ ∃ content, e.2 = .file content

section

variable {fault : ι → Option (Fault Component)} {base : FsPath} {Ok : β → Option (FsTree Component) → Prop}
  {Mid Mid' : α → Option (FsTree Component) → Prop} {Err Err' : Option (FsTree Component) → Prop}
  {s : Option (FsTree Component)} {name other : Component} {entries : Entries} {names : List Component}

namespace Io

theorem Meets.mono {x : Io α} (h : x.Meets fault base Mid Err s) (hok : ∀ a t, Mid a t → Mid' a t)
    (herr : ∀ t, Err t → Err' t) : x.Meets fault base Mid' Err' s := by
  refine Program.wp.mono h fun result t ht => ?_
  cases result with
  | ok a => exact hok a t ht
  | error e => exact herr t ht

theorem meets_pure {a : α} (h : Mid a s) : (pure a : Io α).Meets fault base Mid Err s := h

theorem meets_throw {e : InjectError} (h : Err s) : (throw e : Io α).Meets fault base Mid Err s := h

theorem meets_bind {x : Io α} {f : α → Io β} (hx : x.Meets fault base Mid Err s)
    (hf : ∀ a t, Mid a t → (f a).Meets fault base Ok Err t) : (x >>= f).Meets fault base Ok Err s := by
  unfold Meets
  rw [ExceptT.run_bind]
  refine Program.wp_bind (Program.wp.mono hx fun result t ht => ?_)
  cases result with
  | ok a => exact hf a t ht
  | error e => exact ht

theorem meets_lift {x : Fs α} (h : x.wp (fun i => act base (fault i)) (Below base) Mid s) :
    (liftM x : Io α).Meets fault base Mid Err s := by
  change (x >>= fun a => Program.done (Except.ok a)).wp _ _ _ _
  exact Program.wp_bind h

theorem meets_of {x : Fs (Except Errno α)} (Post : Except Errno α → Option (FsTree Component) → Prop)
    (h : x.wp (fun i => act base (fault i)) (Below base) Post s) (hok : ∀ a t, Post (.ok a) t → Mid a t)
    (herr : ∀ e t, Post (.error e) t → Err t) : (Io.of x).Meets fault base Mid Err s := by
  refine Program.wp_bind (Program.wp.mono h fun result t ht => ?_)
  cases result with
  | ok a => exact hok a t ht
  | error e => exact herr e t ht

end Io

@[simp] theorem lookup_put_self (name : Component) (entries : Entries) (content : List UInt8) :
    lookup name (put name entries content) = some (.file content) := lookup_assign_self _

theorem writable_put (name : Component) (entries : Entries) (content : List UInt8) :
    Writable name (put name entries content) := Or.inr ⟨content, lookup_put_self name entries content⟩

@[simp] theorem put_put (name : Component) (entries : Entries) (first second : List UInt8) :
    put name (put name entries first) second = put name entries second := by
  have hsecond : KeyedList.upsert Prod.fst (put name entries first) (name, .file second) =
      KeyedList.replace Prod.fst name (name, .file second) (put name entries first) :=
    KeyedList.upsert_of_find_some (KeyedList.find_upsert_self entries (name, .file first))
  refine hsecond.trans ?_
  unfold put assign
  dsimp only
  cases hfound : KeyedList.find Prod.fst name entries with
  | none =>
    have hbefore := KeyedList.find_eq_none.mp hfound
    have happend (content : List UInt8) : KeyedList.upsert Prod.fst entries (name, .file content) =
        entries ++ [(name, .file content)] := KeyedList.upsert_of_find_none hfound
    rw [happend, happend]
    exact KeyedList.replace_middle hbefore rfl
  | some e =>
    have hreplace (content : List UInt8) : KeyedList.upsert Prod.fst entries (name, .file content) =
        KeyedList.replace Prod.fst name (name, .file content) entries := KeyedList.upsert_of_find_some hfound
    rw [hreplace, hreplace]
    exact KeyedList.replace_replace rfl

theorem put_fresh (hfresh : lookup name entries = none) (content : List UInt8) :
    put name entries content = entries ++ [(name, .file content)] := by
  have hfound : KeyedList.find Prod.fst name entries = none := Option.map_eq_none_iff.mp hfresh
  exact KeyedList.upsert_of_find_none hfound

theorem litter_put (h : Litter names (some (.dir entries))) (hname : name ∈ names) (content : List UInt8) :
    Litter names (some (.dir (put name entries content))) := by
  obtain ⟨other, heq, hentries⟩ := h
  obtain rfl : entries = other := by simpa using heq
  refine ⟨_, rfl, fun e he => ?_⟩
  obtain rfl | hmem := KeyedList.mem_upsert he
  · exact ⟨hname, content, rfl⟩
  · exact hentries e hmem

/-- The calls on one file, each with what it does when it fails. -/
theorem create_meets (hwritable : Writable name entries) :
    (Io.of (fs.create (base ++ [name]))).Meets fault base (fun _ t => t = some (.dir (put name entries [])))
      (fun t => t = some (.dir entries)) (some (.dir entries)) := by
  refine Io.meets_of (fun result t => match result with
    | .ok _ => t = some (.dir (put name entries []))
    | .error _ => t = some (.dir entries)) (wp_entry.mpr fun i => ?_) (fun _ _ h => h) fun _ _ h => h
  obtain hnone | ⟨content, hfile⟩ := hwritable
  · cases hfault : fault i with
    | none =>
      rw [hnone]
      rfl
    | some f =>
      have hsame := assign_lookup name entries
      exact congrArg (fun e => some (FsTree.dir e)) hsame
  · cases hfault : fault i with
    | none =>
      rw [hfile]
      rfl
    | some f =>
      have hsame := assign_lookup name entries
      exact congrArg (fun e => some (FsTree.dir e)) hsame

theorem write_all_meets {content : List UInt8} (hfile : lookup name entries = some (.file content))
    (bytes : List UInt8) :
    (Io.of (fs.write_all (base ++ [name]) bytes)).Meets fault base
      (fun _ t => t = some (.dir (put name entries (content ++ bytes))))
      (fun t => ∃ written, t = some (.dir (put name entries written))) (some (.dir entries)) := by
  refine Io.meets_of (fun result t => match result with
    | .ok _ => t = some (.dir (put name entries (content ++ bytes)))
    | .error _ => ∃ written, t = some (.dir (put name entries written))) (wp_entry.mpr fun i => ?_) (fun _ _ h => h)
    fun _ _ h => h
  rw [hfile]
  cases hfault : fault i with
  | none => rfl
  | some f => exact ⟨_, rfl⟩

theorem read_meets {content : List UInt8} (hfile : lookup name entries = some (.file content)) :
    (Io.of (fs.read (base ++ [name]))).Meets fault base (fun data t => data = content ∧ t = some (.dir entries))
      (fun t => t = some (.dir entries)) (some (.dir entries)) := by
  have hsame := assign_lookup name entries
  refine Io.meets_of (fun result t => (∀ data, result = .ok data → data = content) ∧ t = some (.dir entries))
    (wp_entry.mpr fun i => ⟨?_, congrArg (fun e => some (FsTree.dir e)) hsame⟩) (fun data t h => ⟨h.1 data rfl, h.2⟩)
    fun _ _ h => h.2
  rw [hfile]
  cases hfault : fault i with
  | none => exact fun data hdata => (Except.ok.inj hdata).symm
  | some f => nofun

theorem metadata_meets {content : List UInt8} (hfile : lookup name entries = some (.file content)) :
    (Io.of (fs.metadata (base ++ [name]))).Meets fault base
      (fun found t => found = .file content.length ∧ t = some (.dir entries))
      (fun t => t = some (.dir entries)) (some (.dir entries)) := by
  have hsame := assign_lookup name entries
  refine Io.meets_of (fun result t => (∀ found, result = .ok found → found = .file content.length) ∧
    t = some (.dir entries)) (wp_entry.mpr fun i => ⟨?_, congrArg (fun e => some (FsTree.dir e)) hsame⟩)
    (fun found t h => ⟨h.1 found rfl, h.2⟩) fun _ _ h => h.2
  rw [hfile]
  cases hfault : fault i with
  | none => exact fun found hfound => (Except.ok.inj hfound).symm
  | some f => nofun

theorem of_write (path : FsPath) (bytes : List UInt8) :
    Io.of (fs.write path bytes) = (do Io.of (fs.create path); Io.of (fs.write_all path bytes)) := by
  refine congrArg (Program.call (⟨path, .create⟩ : Call Component)) (funext fun reply => ?_)
  cases reply with
  | ok _ => rfl
  | error e => rfl

theorem write_meets (hwritable : Writable name entries) (bytes : List UInt8) :
    (Io.of (fs.write (base ++ [name]) bytes)).Meets fault base (fun _ t => t = some (.dir (put name entries bytes)))
      (fun t => t = some (.dir entries) ∨ ∃ written, t = some (.dir (put name entries written)))
      (some (.dir entries)) := by
  rw [of_write]
  refine Io.meets_bind ((create_meets hwritable).mono (fun _ _ h => h) fun _ h => Or.inl h) ?_
  rintro _ _ rfl
  refine (write_all_meets (lookup_put_self name entries []) bytes).mono ?_ ?_
  · rintro _ _ rfl
    rw [put_put, List.nil_append]
  · rintro _ ⟨written, rfl⟩
    rw [put_put]
    exact Or.inr ⟨written, rfl⟩

/-- The directory is there already. -/
theorem create_dir_all_meets {dir : List Char} (hdir : components dir ≠ []) :
    (create_dir_all dir).Meets fault (components dir) (fun _ t => t = some (.dir entries))
      (fun t => t = some (.dir entries)) (some (.dir entries)) := by
  have hchecked (e : Errno) : (fs.is_dir (components dir) >>= fun found =>
      (pure (if found = true then .ok () else .error e) : Fs (Except Errno Unit))).wp
        (fun i => act (components dir) (fault i)) (Below (components dir)) (fun _ t => t = some (.dir entries))
        (some (.dir entries)) := by
    refine wp_base.mpr fun i => ?_
    rfl
  obtain ⟨name, above, hreverse⟩ : ∃ name above, (components dir).reverse = name :: above :=
    List.exists_cons_of_ne_nil (by simpa using hdir)
  have hpath : (name :: above).reverse = components dir := by rw [← hreverse, List.reverse_reverse]
  unfold create_dir_all
  rw [hreverse]
  refine Io.meets_of (fun _ t => t = some (.dir entries)) ?_ (fun _ _ h => h) fun _ _ h => h
  rw [fs.create_dir_all, hpath]
  refine wp_base.mpr fun i => ?_
  cases hfault : fault i with
  | none => exact hchecked .AlreadyExists
  | some f => exact hchecked (.Other f.message)

end

end asmodeus.runner
