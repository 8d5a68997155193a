import Mathlib.Data.List.Nodup

namespace KeyedList

variable {α κ : Type*} [DecidableEq κ]

/-- The first entry of a key. -/
def find (key : α → κ) (k : κ) (entries : List α) : Option α :=
  entries.find? fun entry => decide (key entry = k)

/-- Overwrite the first entry of a key where it stands. -/
def replace (key : α → κ) (k : κ) (entry : α) : List α → List α
  | [] => []
  | head :: rest => if key head = k then entry :: rest else head :: replace key k entry rest

/-- Overwrite the entry of the same key, or add a new one at the end. -/
def upsert (key : α → κ) (entries : List α) (entry : α) : List α :=
  if (find key (key entry) entries).isSome then replace key (key entry) entry entries
  else entries ++ [entry]

/-- No two entries share a key. -/
def Unique (key : α → κ) (entries : List α) : Prop := (entries.map key).Nodup

variable {key : α → κ} {k : κ} {entry old : α} {entries : List α}

theorem find_eq_none : find key k entries = none ↔ ∀ entry ∈ entries, key entry ≠ k := by
  simp [find, List.find?_eq_none]

theorem find_some (h : find key k entries = some entry) : entry ∈ entries ∧ key entry = k :=
  ⟨List.mem_of_find?_eq_some h, by simpa using List.find?_some h⟩

theorem find_isSome : (find key k entries).isSome ↔ k ∈ entries.map key := by
  simp [find, List.find?_isSome]

/-- A found entry splits the list, and its replacement takes its place. -/
theorem find_split (h : find key k entries = some old) :
    ∃ before after, entries = before ++ old :: after ∧ (∀ b ∈ before, key b ≠ k) ∧ key old = k ∧
      ∀ entry, replace key k entry entries = before ++ entry :: after := by
  induction entries with
  | nil => cases h
  | cons head rest ih =>
    by_cases hhead : key head = k
    · simp only [find, List.find?_cons, hhead, decide_true, Option.some.injEq] at h
      subst h
      exact ⟨[], rest, rfl, by simp, hhead, fun entry => by rw [replace, if_pos hhead]; rfl⟩
    · have hrest : find key k rest = some old := by simpa [find, List.find?_cons, hhead] using h
      obtain ⟨before, after, hsplit, hbefore, hold, hreplace⟩ := ih hrest
      refine ⟨head :: before, after, by rw [hsplit]; rfl, ?_, hold, fun entry => ?_⟩
      · intro b hb
        rcases List.mem_cons.mp hb with rfl | hb
        · exact hhead
        · exact hbefore b hb
      · rw [replace, if_neg hhead, hreplace entry]
        rfl

/-- An entry that no other of its key stands before is the one a lookup finds. -/
theorem find_middle {before after : List α} (hbefore : ∀ b ∈ before, key b ≠ k) (hold : key old = k) :
    find key k (before ++ old :: after) = some old := by
  have hfront : find key k before = none := find_eq_none.mpr hbefore
  rw [find] at hfront
  simp [find, List.find?_append, hfront, hold]

theorem replace_middle {before after : List α} (hbefore : ∀ b ∈ before, key b ≠ k) (hold : key old = k) :
    replace key k entry (before ++ old :: after) = before ++ entry :: after := by
  induction before with
  | nil => rw [List.nil_append, replace, if_pos hold, List.nil_append]
  | cons head rest ih =>
    rw [List.cons_append, replace, if_neg (hbefore head List.mem_cons_self),
      ih fun b hb => hbefore b (List.mem_cons_of_mem _ hb), List.cons_append]

theorem replace_of_find_none (h : find key k entries = none) : replace key k entry entries = entries := by
  induction entries with
  | nil => rfl
  | cons head rest ih =>
    rw [find_eq_none] at h
    rw [replace, if_neg (h head List.mem_cons_self),
      ih (find_eq_none.mpr fun b hb => h b (List.mem_cons_of_mem head hb))]

theorem map_replace (hentry : key entry = k) : (replace key k entry entries).map key = entries.map key := by
  induction entries with
  | nil => rfl
  | cons head rest ih =>
    by_cases hhead : key head = k
    · rw [replace, if_pos hhead, List.map_cons, List.map_cons, hentry, hhead]
    · rw [replace, if_neg hhead, List.map_cons, List.map_cons, ih]

theorem find_replace_self (hentry : key entry = k) (h : find key k entries = some old) :
    find key k (replace key k entry entries) = some entry := by
  obtain ⟨before, after, -, hbefore, -, hreplace⟩ := find_split h
  rw [hreplace, find, List.find?_append]
  have hnone : before.find? (fun b => decide (key b = k)) = none := by
    simpa [List.find?_eq_none] using hbefore
  simp [hnone, hentry]

theorem find_replace_of_ne {j : κ} (hentry : key entry = k) (hj : j ≠ k) :
    find key j (replace key k entry entries) = find key j entries := by
  induction entries with
  | nil => rfl
  | cons head rest ih =>
    by_cases hhead : key head = k
    · rw [replace, if_pos hhead]
      simp [find, hentry, hhead, Ne.symm hj]
    · rw [replace, if_neg hhead]
      by_cases hjhead : key head = j
      · simp [find, hjhead]
      · simpa [find, hjhead] using ih

/-- Overwriting at the found position is the replacement. -/
theorem set_findIdx {position : Nat} (h : entries.findIdx? (fun e => decide (key e = k)) = some position) :
    entries.set position entry = replace key k entry entries := by
  induction entries generalizing position with
  | nil => cases h
  | cons head rest ih =>
    rw [List.findIdx?_cons] at h
    by_cases hhead : key head = k
    · simp only [hhead, decide_true, if_true, Option.some.injEq] at h
      rw [← h, replace, if_pos hhead, List.set_cons_zero]
    · simp only [hhead, decide_false, Bool.false_eq_true, if_false, Option.map_eq_some_iff] at h
      obtain ⟨previous, hprevious, rfl⟩ := h
      rw [replace, if_neg hhead, List.set_cons_succ, ih hprevious]

theorem findIdx_isSome :
    (entries.findIdx? fun e => decide (key e = k)).isSome = (find key k entries).isSome := by
  rw [find, List.findIdx?_isSome, Bool.eq_iff_iff]
  simp [List.find?_isSome]

omit [DecidableEq κ] in
@[simp] theorem unique_nil : Unique key ([] : List α) := List.nodup_nil

theorem Unique.replace (hunique : Unique key entries) (hentry : key entry = k) :
    Unique key (replace key k entry entries) := by
  rw [Unique, map_replace hentry]
  exact hunique

theorem Unique.append (hunique : Unique key entries) (hfresh : find key (key entry) entries = none) :
    Unique key (entries ++ [entry]) := by
  rw [find_eq_none] at hfresh
  rw [Unique, List.map_append, List.nodup_append]
  refine ⟨hunique, List.nodup_singleton _, ?_⟩
  intro a ha b hb hab
  obtain ⟨other, hother, rfl⟩ := List.mem_map.mp ha
  rw [List.map_singleton, List.mem_singleton] at hb
  exact hfresh other hother (hab.trans hb)

omit [DecidableEq κ] in
/-- Rewriting every entry under its key. -/
theorem Unique.map_entries {f : α → α} (hunique : Unique key entries) (hkey : ∀ entry, key (f entry) = key entry) :
    Unique key (entries.map f) := by
  have hkeys : (entries.map f).map key = entries.map key := by
    rw [List.map_map]
    exact List.map_congr_left fun entry _ => hkey entry
  rw [Unique, hkeys]
  exact hunique

/-- With unique keys a lookup finds every entry. -/
theorem Unique.find_of_mem (hunique : Unique key entries) (hentry : entry ∈ entries) :
    find key (key entry) entries = some entry := by
  cases h : find key (key entry) entries with
  | none => exact absurd rfl (find_eq_none.mp h entry hentry)
  | some found =>
    obtain ⟨hmem, hkey⟩ := find_some h
    rw [List.inj_on_of_nodup_map hunique hmem hentry hkey]

theorem upsert_of_find_none (h : find key (key entry) entries = none) :
    upsert key entries entry = entries ++ [entry] := by
  rw [upsert, h]
  rfl

theorem upsert_of_find_some (h : find key (key entry) entries = some old) :
    upsert key entries entry = KeyedList.replace key (key entry) entry entries := by
  rw [upsert, h]
  rfl

theorem Unique.upsert (hunique : Unique key entries) : Unique key (upsert key entries entry) := by
  cases h : find key (key entry) entries with
  | none => exact upsert_of_find_none h ▸ hunique.append h
  | some old => exact upsert_of_find_some h ▸ hunique.replace rfl

theorem find_append_self (h : find key k entries = none) (hentry : key entry = k) :
    find key k (entries ++ [entry]) = some entry := by
  rw [find, List.find?_append]
  rw [find] at h
  simp [h, hentry]

theorem find_append_of_ne (hentry : key entry ≠ k) :
    find key k (entries ++ [entry]) = find key k entries := by
  simp [find, List.find?_append, hentry]

/-- Dropping another key does not change a lookup. -/
theorem find_filter_ne {j : κ} (hj : j ≠ k) :
    find key j (entries.filter fun entry => decide (key entry ≠ k)) = find key j entries := by
  rw [find, find, List.find?_filter]
  congr 1
  funext entry
  by_cases hentry : key entry = j
  · simp [hentry, hj]
  · simp [hentry]

theorem find_upsert_self (entries : List α) (entry : α) :
    find key (key entry) (upsert key entries entry) = some entry := by
  cases h : find key (key entry) entries with
  | none =>
    rw [upsert_of_find_none h]
    exact find_append_self h rfl
  | some old =>
    rw [upsert_of_find_some h]
    exact find_replace_self rfl h

theorem find_upsert_of_ne {j : κ} (hj : j ≠ key entry) :
    find key j (upsert key entries entry) = find key j entries := by
  cases h : find key (key entry) entries with
  | none =>
    rw [upsert_of_find_none h]
    exact find_append_of_ne (Ne.symm hj)
  | some old =>
    rw [upsert_of_find_some h]
    exact find_replace_of_ne rfl hj

theorem find_filter_self (k : κ) (entries : List α) :
    find key k (entries.filter fun entry => decide (key entry ≠ k)) = none := by
  rw [find_eq_none]
  intro entry hentry
  exact of_decide_eq_true (List.mem_filter.mp hentry).2

theorem mem_replace {other : α} (h : other ∈ replace key k entry entries) : other = entry ∨ other ∈ entries := by
  induction entries with
  | nil => cases h
  | cons head rest ih =>
    rw [replace] at h
    split at h
    · rcases List.mem_cons.mp h with rfl | h
      · exact Or.inl rfl
      · exact Or.inr (List.mem_cons_of_mem _ h)
    · rcases List.mem_cons.mp h with rfl | h
      · exact Or.inr List.mem_cons_self
      · exact (ih h).imp_right (List.mem_cons_of_mem _)

theorem mem_upsert {other : α} (h : other ∈ upsert key entries entry) : other = entry ∨ other ∈ entries := by
  rw [upsert] at h
  split at h
  · exact mem_replace h
  · rcases List.mem_append.mp h with h | h
    · exact Or.inr h
    · exact Or.inl (List.mem_singleton.mp h)

theorem replace_find_self (h : find key k entries = some old) : replace key k old entries = entries := by
  obtain ⟨before, after, hsplit, -, -, hreplace⟩ := find_split h
  rw [hreplace, hsplit]

theorem replace_replace {first : α} (hfirst : key first = k) :
    replace key k entry (replace key k first entries) = replace key k entry entries := by
  induction entries with
  | nil => rfl
  | cons head rest ih =>
    by_cases hhead : key head = k
    · rw [replace, if_pos hhead, replace, if_pos hfirst, replace, if_pos hhead]
    · rw [replace, if_neg hhead, replace, if_neg hhead, replace, if_neg hhead, ih]

/-- Overwriting the only entry of a key is overwriting every entry of it. -/
theorem replace_eq_map [BEq κ] [LawfulBEq κ] (hcount : (entries.map key).count k ≤ 1) :
    replace key k entry entries = entries.map fun e => if key e = k then entry else e := by
  induction entries with
  | nil => rfl
  | cons head rest ih =>
    rw [List.map_cons, List.count_cons] at hcount
    rw [replace, List.map_cons]
    split
    · rename_i hhead
      have hnone : k ∉ rest.map key := by
        rw [← List.count_eq_zero]
        simpa [hhead] using hcount
      refine congrArg (entry :: ·) ?_
      rw [List.map_congr_left (g := id), List.map_id]
      intro e he
      have hne : key e ≠ k := fun hkey => hnone (hkey ▸ List.mem_map_of_mem he)
      exact if_neg hne
    · rw [ih (by omega)]

section Map

variable {β : Type*} {f : α → β} {image : β → κ}

/-- A view of the entries that keeps their keys commutes with every operation. -/
theorem find_map (himage : ∀ a, image (f a) = key a) (k : κ) (entries : List α) :
    find image k (entries.map f) = (find key k entries).map f := by
  rw [find, find, List.find?_map]
  congr 2
  funext a
  rw [Function.comp_apply, himage]

theorem map_replace_view (himage : ∀ a, image (f a) = key a) (k : κ) (entry : α) (entries : List α) :
    (replace key k entry entries).map f = replace image k (f entry) (entries.map f) := by
  induction entries with
  | nil => rfl
  | cons head rest ih =>
    rw [replace, List.map_cons, replace, himage]
    split
    · rw [List.map_cons]
    · rw [List.map_cons, ih]

theorem map_upsert_view (himage : ∀ a, image (f a) = key a) (entries : List α) (entry : α) :
    (upsert key entries entry).map f = upsert image (entries.map f) (f entry) := by
  rw [upsert, upsert, himage, find_map himage, Option.isSome_map]
  split
  · exact map_replace_view himage _ entry entries
  · rw [List.map_append, List.map_singleton]

theorem map_filter_view (himage : ∀ a, image (f a) = key a) (k : κ) (entries : List α) :
    (entries.filter fun entry => decide (key entry ≠ k)).map f =
      (entries.map f).filter fun entry => decide (image entry ≠ k) := by
  rw [List.filter_map]
  congr 2
  funext a
  rw [Function.comp_apply, himage]

/-- Rewriting an entry by one with the same view does not show in the view. -/
theorem map_replace_of_view_eq (h : find key k entries = some old) (hview : f entry = f old) :
    (replace key k entry entries).map f = entries.map f := by
  obtain ⟨before, after, hsplit, -, -, hreplace⟩ := find_split h
  rw [hreplace, hsplit, List.map_append, List.map_append, List.map_cons, List.map_cons, hview]

end Map

omit [DecidableEq κ] in
theorem Unique.filter (hunique : Unique key entries) (p : α → Bool) : Unique key (entries.filter p) :=
  List.Nodup.sublist (List.Sublist.map key List.filter_sublist) hunique

/-- After a run of upserts the last one under a key is what its lookup finds. -/
theorem find_foldl_upsert (k : κ) (entries added : List α) :
    find key k (added.foldl (upsert key) entries) = (find key k added.reverse).or (find key k entries) := by
  induction added generalizing entries with
  | nil => rfl
  | cons head rest ih =>
    rw [List.foldl_cons, ih, List.reverse_cons]
    by_cases hk : key head = k
    · subst hk
      rw [find_upsert_self, find, find, find, List.find?_append, List.find?_singleton]
      cases rest.reverse.find? fun entry => decide (key entry = key head) <;> simp
    · rw [find_upsert_of_ne (Ne.symm hk), find_append_of_ne hk]

/-- Entries of the same key are the same entry. -/
def Agree (key : α → κ) (entries : List α) : Prop := ∀ a ∈ entries, ∀ b ∈ entries, key a = key b → a = b

theorem Agree.find_perm {other : List α} (hagree : Agree key entries) (hperm : other.Perm entries) (k : κ) :
    find key k other = find key k entries := by
  cases h : find key k entries with
  | none =>
    rw [find_eq_none] at h ⊢
    exact fun entry hentry => h entry (hperm.subset hentry)
  | some found =>
    obtain ⟨hfound, hkey⟩ := find_some h
    have hmem : k ∈ other.map key := List.mem_map.mpr ⟨found, hperm.mem_iff.mpr hfound, hkey⟩
    obtain ⟨first, hfirst⟩ := Option.isSome_iff_exists.mp (find_isSome.mpr hmem)
    obtain ⟨hmem, hkey'⟩ := find_some hfirst
    rw [hfirst, hagree first (hperm.subset hmem) found hfound (hkey'.trans hkey.symm)]

omit [DecidableEq κ] in
theorem Unique.agree (hunique : Unique key entries) : Agree key entries :=
  fun _ ha _ hb => List.inj_on_of_nodup_map hunique ha hb

/-- With unique keys the order of the entries does not matter to a lookup. -/
theorem Unique.find_perm {other : List α} (hunique : Unique key entries) (hperm : other.Perm entries) (k : κ) :
    find key k other = find key k entries := hunique.agree.find_perm hperm k

/-- The order of upserts does not matter to a lookup where they agree. -/
theorem Agree.find_foldl_perm {first second : List α} (hagree : Agree key second) (hperm : first.Perm second) (k : κ) :
    find key k (first.foldl (upsert key) entries) = find key k (second.foldl (upsert key) entries) := by
  have hreverse : Agree key second.reverse := fun a ha b hb =>
    hagree a (List.mem_reverse.mp ha) b (List.mem_reverse.mp hb)
  rw [find_foldl_upsert, find_foldl_upsert,
    hreverse.find_perm ((List.reverse_perm first).trans (hperm.trans (List.reverse_perm second).symm))]

theorem find_foldl_upsert_last (entries added : List α) (entry : α) :
    find key (key entry) ((added ++ [entry]).foldl (upsert key) entries) = some entry := by
  rw [List.foldl_append, List.foldl_cons, List.foldl_nil, find_upsert_self]

end KeyedList
