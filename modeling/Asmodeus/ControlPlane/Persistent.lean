import Asmodeus.Common.Io

open asmodeus.common

namespace asmodeus.control_plane

/-- A configuration catalog with a JSON snapshot of it in a file, if it has a
path. The file holds the published value: every update holds the writer lock
from its first read to its publication and renames the new file into place. -/
structure Persistent (α : Type) where
  value : α
  path : Bool

variable {α β : Type}

def Persistent.update (self : Persistent α) (disk : Disk) (update : α → Except IoError (β × α)) :
    Except IoError β × Persistent α :=
  match update self.value with
  | .error e => (.error e, self)
  | .ok (result, next) =>
    if self.path then match disk with
      | .error e => (.error e, self)
      | .ok () => (.ok result, { self with value := next })
    else (.ok result, { self with value := next })

/-- What a new process loads: the file, or the default without one. -/
def Persistent.reload (self : Persistent α) (fallback : α) : Persistent α :=
  if self.path then self else { self with value := fallback }

theorem Persistent.update_of_error {self : Persistent α} {update : α → Except IoError (β × α)} {e : IoError}
    (h : update self.value = .error e) (disk : Disk) : self.update disk update = (.error e, self) := by
  rw [Persistent.update, h]

theorem Persistent.update_of_ok {self : Persistent α} {update : α → Except IoError (β × α)} {b : β} {next : α}
    (h : update self.value = .ok (b, next)) : self.update (.ok ()) update = (.ok b, { self with value := next }) := by
  rw [Persistent.update, h]
  exact ite_self _

theorem Persistent.update_of_disk {self : Persistent α} {update : α → Except IoError (β × α)} {b : β} {next : α}
    (h : update self.value = .ok (b, next)) (hpath : self.path = true) (e : IoError) :
    self.update (.error e) update = (.error e, self) := by
  rw [Persistent.update, h]
  exact if_pos hpath

/-- An update fails without a trace or publishes what it computed. -/
theorem Persistent.update_cases {self store : Persistent α} {disk : Disk} {update : α → Except IoError (β × α)}
    {result : Except IoError β} (h : self.update disk update = (result, store)) :
    (∃ e, result = .error e ∧ store = self) ∨
      ∃ b next, result = .ok b ∧ update self.value = .ok (b, next) ∧ store = { self with value := next } := by
  unfold Persistent.update at h
  split at h
  · obtain ⟨rfl, rfl⟩ := Prod.mk.inj h
    exact Or.inl ⟨_, rfl, rfl⟩
  · rename_i b next hupdate
    split at h
    · cases disk with
      | error e =>
        obtain ⟨rfl, rfl⟩ := Prod.mk.inj h
        exact Or.inl ⟨e, rfl, rfl⟩
      | ok _ =>
        obtain ⟨rfl, rfl⟩ := Prod.mk.inj h
        exact Or.inr ⟨b, next, rfl, hupdate, rfl⟩
    · obtain ⟨rfl, rfl⟩ := Prod.mk.inj h
      exact Or.inr ⟨b, next, rfl, hupdate, rfl⟩

/-- An update that cannot refuse is published exactly if its snapshot, if there
is one, is written. -/
theorem Persistent.update_ok_cases {self store : Persistent α} {disk : Disk} {update : α → β × α}
    {result : Except IoError β} (h : self.update disk (fun value => .ok (update value)) = (result, store)) :
    (∃ e, result = .error e ∧ store = self) ∨
      (result = .ok (update self.value).1 ∧ store = { self with value := (update self.value).2 } ∧
        (self.path = true → disk = .ok ())) := by
  unfold Persistent.update at h
  dsimp only at h
  split at h
  · cases disk with
    | error e =>
      obtain ⟨rfl, rfl⟩ := Prod.mk.inj h
      exact Or.inl ⟨e, rfl, rfl⟩
    | ok _ =>
      obtain ⟨rfl, rfl⟩ := Prod.mk.inj h
      exact Or.inr ⟨rfl, rfl, fun _ => rfl⟩
  · rename_i hpath
    obtain ⟨rfl, rfl⟩ := Prod.mk.inj h
    exact Or.inr ⟨rfl, rfl, fun h => absurd h hpath⟩

end asmodeus.control_plane
