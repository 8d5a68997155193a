import Asmodeus.Lib.FileTree.Calls

namespace FileTree

section

variable {ν : Type} [DecidableEq ν]

/-- The call is at a directory or below it. -/
def Below (base : List ν) (call : Call ν) : Prop := base <+: call.path

/-- A call below a directory against the subtree there. -/
def act (base : List ν) (fault : Option (Fault ν)) (call : Call ν) (s : Option (FsTree ν)) :
    call.verb.Reply × Option (FsTree ν) :=
  let path := call.path.drop base.length
  let done := call.verb.run fault (node_above path s) (get path s)
  (done.1, alter (fun _ => done.2) path s)

/-- What a program for one directory does to the rest of the tree: new directories above its
own, and nothing else. -/
structure Grows (base : List ν) (t t' : Option (FsTree ν)) : Prop where
  node : ∀ q, ¬ base <+: q → node q t' = node q t ∨ (node q t = none ∧ node q t' = some .dir ∧ q <+: base)
  apart : ∀ q, Apart base q → get q t' = get q t

/-- What a program for one directory relies on: nobody touches that, and above it there
are only new directories. -/
structure Leaves (base : List ν) (t t' : Option (FsTree ν)) : Prop where
  own : get base t' = get base t
  above : ∀ q, q <+: base → q ≠ base →
    node q t' = node q t ∨ (node q t = none ∧ node q t' = some .dir)

/-- The directory is reached over no link, and there are none in it. -/
structure Reached (base : List ν) (t : Option (FsTree ν)) : Prop where
  based : Based base t
  linkless : Linkless (get base t)

variable {ι : Type} {fault : ι → Option (Fault ν)} {follow : Option (FsTree ν) → List ν → List ν} {base other : List ν}
  {s t t' t'' : Option (FsTree ν)} {entries : List (ν × FsTree ν)} {name : ν} {verb : Verb} {α : Type}

theorem Grows.refl (base : List ν) (t : Option (FsTree ν)) : Grows base t t := ⟨fun _ _ => Or.inl rfl, fun _ _ => rfl⟩

theorem Grows.trans (h : Grows base t t') (h' : Grows base t' t'') : Grows base t t'' where
  node q hq := by
    obtain hsame | ⟨hnone, hdir, hprefix⟩ := h'.node q hq
    · rw [hsame]
      exact h.node q hq
    · obtain hbefore | ⟨-, hmade, -⟩ := h.node q hq
      · exact Or.inr ⟨hbefore.symm.trans hnone, hdir, hprefix⟩
      · rw [hmade] at hnone
        cases hnone
  apart q hq := (h'.apart q hq).trans (h.apart q hq)

theorem Leaves.refl (base : List ν) (t : Option (FsTree ν)) : Leaves base t t := ⟨rfl, fun _ _ _ => Or.inl rfl⟩

theorem Leaves.trans (h : Leaves base t t') (h' : Leaves base t' t'') : Leaves base t t'' where
  own := h'.own.trans h.own
  above q hq hne := by
    obtain hsame | ⟨hnone, hdir⟩ := h'.above q hq hne
    · rw [hsame]
      exact h.above q hq hne
    · obtain hbefore | ⟨-, hmade⟩ := h.above q hq hne
      · exact Or.inr ⟨hbefore.symm.trans hnone, hdir⟩
      · rw [hmade] at hnone
        cases hnone

/-- A directory above stays one. -/
theorem Leaves.dir {q : List ν} (h : Leaves base t t') (hq : q <+: base) (hne : q ≠ base)
    (hdir : node q t = some .dir) :
    node q t' = some .dir := by
  obtain hsame | ⟨hnone, -⟩ := h.above q hq hne
  · exact hsame.trans hdir
  · rw [hdir] at hnone
    cases hnone

/-- No link comes to be above. -/
theorem Leaves.unlinked {q : List ν} (h : Leaves base t t') (hq : q <+: base) (hne : q ≠ base)
    (hlink : node q t ≠ some .symlink) : node q t' ≠ some .symlink := by
  obtain hsame | ⟨-, hdir⟩ := h.above q hq hne
  · rwa [hsame]
  · rw [hdir]
    exact fun heq => nomatch heq

/-- Programs for directories apart leave each other alone. -/
theorem Grows.leaves (h : Grows base t t') (hapart : Apart base other) : Leaves other t t' where
  own := h.apart other hapart
  above q hq _ := (h.node q fun hbase => hapart.1 (hbase.trans hq)).imp_right fun hnew => ⟨hnew.1, hnew.2.1⟩

theorem Leaves.reached (h : Leaves base t t') (hreached : Reached base t) : Reached base t' where
  based q hq hne := h.dir hq hne (hreached.based q hq hne)
  linkless := h.own ▸ hreached.linkless

/-- A call below a directory that is reached acts on the subtree there alone. -/
theorem exec_act (follow : Option (FsTree ν) → List ν → List ν) (fault : Option (Fault ν)) {call : Call ν}
    (hreached : Reached base t) (hbelow : Below base call) :
    (call.exec follow fault t).1 = (act base fault call (get base t)).1 ∧
      get base (call.exec follow fault t).2 = (act base fault call (get base t)).2 ∧
      Reached base (call.exec follow fault t).2 ∧ Grows base t (call.exec follow fault t).2 := by
  obtain ⟨path, verb⟩ := call
  obtain ⟨rest, rfl⟩ := hbelow
  have hlocate : (⟨base ++ rest, verb⟩ : Call ν).locate follow t = base ++ rest :=
    locate_below hreached.based hreached.linkless
  have hlocal : (⟨rest, verb⟩ : Call ν).locate follow (get base t) = rest :=
    Call.locate_eq fun above _ => hreached.linkless above
  obtain ⟨hreply, hafter⟩ : ((⟨base ++ rest, verb⟩ : Call ν).exec follow fault t).1 =
      ((⟨rest, verb⟩ : Call ν).exec follow fault (get base t)).1 ∧
      get base ((⟨base ++ rest, verb⟩ : Call ν).exec follow fault t).2 =
        ((⟨rest, verb⟩ : Call ν).exec follow fault (get base t)).2 := exec_below hreached.based hreached.linkless
  have hact : (⟨rest, verb⟩ : Call ν).exec follow fault (get base t) =
      act base fault ⟨base ++ rest, verb⟩ (get base t) := by
    unfold Call.exec act
    dsimp only
    rw [hlocal, List.drop_left]
  rw [hact] at hreply hafter
  refine ⟨hreply, hafter, ⟨fun above habove hne => ?_, ?_⟩, fun q hq => Or.inl ?_, fun q hq => ?_⟩
  · rw [Call.exec_node, hreached.based above habove hne]
    rw [hlocate]
    intro hprefix
    have hlength := ((List.prefix_append base rest).trans hprefix).length_le
    exact hne (habove.eq_of_length_le hlength)
  · rw [hafter, ← hact]
    exact Call.linkless_exec hreached.linkless
  · refine Call.exec_node ?_
    rw [hlocate]
    exact fun hprefix => hq ((List.prefix_append base rest).trans hprefix)
  · refine Call.exec_apart ?_
    rw [hlocate]
    refine ⟨fun hprefix => hq.1 ((List.prefix_append base rest).trans hprefix), fun hprefix => ?_⟩
    obtain hproper | hbase := List.prefix_or_prefix_of_prefix hprefix (List.prefix_append base rest)
    · exact hq.2 hproper
    · exact hq.1 hbase

/-- A program that keeps below a directory, among others that leave it alone. -/
theorem wp_holds {program : Program (Call ν) (fun call => call.verb.Reply) α} {Post : α → Option (FsTree ν) → Prop}
    (hreached : Reached base t) (h : program.wp (fun i => act base (fault i)) (Below base) Post (get base t)) :
    program.Holds (fun i => Call.exec follow (fault i)) (Leaves base) (Grows base)
      (fun a t => Reached base t ∧ Post a (get base t)) t := by
  refine Program.wp.holds (fun s t hs hleaves => ⟨hleaves.reached hs, hleaves.own⟩) ?_ hreached h
  exact fun input call s hs hbelow => exec_act follow (fault input) hs hbelow

/-- A call on an entry of the directory. -/
theorem wp_entry {next : verb.Reply → Program (Call ν) (fun call => call.verb.Reply) α}
    {Post : α → Option (FsTree ν) → Prop} :
    (Program.call (⟨base ++ [name], verb⟩ : Call ν) next).wp (fun i => act base (fault i)) (Below base) Post
        (some (.dir entries)) ↔
      ∀ i, (next (verb.run (fault i) (some .dir) (lookup name entries)).1).wp (fun i => act base (fault i))
        (Below base) Post
        (some (.dir (assign name entries (verb.run (fault i) (some .dir) (lookup name entries)).2))) := by
  have hact (fault : Option (Fault ν)) : act base fault (⟨base ++ [name], verb⟩ : Call ν) (some (.dir entries)) =
      ((verb.run fault (some .dir) (lookup name entries)).1,
        some (.dir (assign name entries (verb.run fault (some .dir) (lookup name entries)).2))) := by
    unfold act
    dsimp only
    rw [List.drop_left]
    rfl
  constructor
  · intro h i
    have hnext := h.2 i
    simp only [hact] at hnext
    exact hnext
  · refine fun h => ⟨List.prefix_append base [name], fun i => ?_⟩
    simp only [hact]
    exact h i

/-- A call on the directory itself. -/
theorem wp_base {next : verb.Reply → Program (Call ν) (fun call => call.verb.Reply) α}
    {Post : α → Option (FsTree ν) → Prop} :
    (Program.call (⟨base, verb⟩ : Call ν) next).wp (fun i => act base (fault i)) (Below base) Post s ↔
      ∀ i, (next (verb.run (fault i) (some .dir) s).1).wp (fun i => act base (fault i)) (Below base) Post
        (verb.run (fault i) (some .dir) s).2 := by
  have hact (fault : Option (Fault ν)) :
      act base fault (⟨base, verb⟩ : Call ν) s = verb.run fault (some .dir) s := by
    unfold act
    dsimp only
    rw [List.drop_length]
    rfl
  constructor
  · intro h i
    have hnext := h.2 i
    simp only [hact] at hnext
    exact hnext
  · refine fun h => ⟨List.prefix_rfl, fun i => ?_⟩
    simp only [hact]
    exact h i

end

end FileTree
