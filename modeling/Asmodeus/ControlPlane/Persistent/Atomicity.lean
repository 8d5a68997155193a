import Asmodeus.ControlPlane.Persistent
import Asmodeus.Lib.Transition
import Mathlib.Data.List.Nodup

open asmodeus.common

namespace asmodeus.control_plane

/-- The serializer of the stored type. Maps are written in whatever order their
iteration has, so that a value may have several texts. -/
structure Codec (T Order : Type) where
  to_vec_pretty : Order → T → Except String (List UInt8)
  from_slice : List UInt8 → Except String T

/-- Every text of a value reads back as the value. -/
def Codec.RoundTrips {T Order : Type} (codec : Codec T Order) : Prop :=
  ∀ order value bytes, codec.to_vec_pretty order value = .ok bytes → codec.from_slice bytes = .ok value

/-- A value in memory and the file it is saved to. -/
structure Stored (T : Type) where
  value : T
  target : Option (List UInt8)

/-- Where the update that holds the writer lock stands: before its closure,
after it, past each filesystem step in turn, about to remove the temporary file
of a failed write, or about to publish. -/
inductive UpdateStage (T R : Type)
  | entered
  | updated (result : R) (next : T)
  | prepared (result : R) (next : T)
  | encoded (result : R) (next : T) (bytes : List UInt8)
  | opened (result : R) (next : T) (bytes : List UInt8)
  | written (result : R) (next : T) (bytes : List UInt8)
  | synced (result : R) (next : T) (bytes : List UInt8)
  | failing (error : IoError)
  | saved (result : R) (next : T)

/-- The update that holds the writer lock, and what it found when it took it. -/
structure Holder (T R : Type) where
  index : Nat
  update : T → Except IoError (R × T)
  found : Stored T
  stage : UpdateStage T R

/-- An update that has returned: what it found, what it left and its result. -/
structure Finished (T R : Type) where
  index : Nat
  update : T → Except IoError (R × T)
  found : Stored T
  left : Stored T
  result : Except IoError R

/-- A store with its files, the updates requested of it, the one that holds the
writer lock, and those that have returned, in this order. -/
structure UpdateState (T R : Type) where
  path : Bool
  value : T
  target : Option (List UInt8)
  tmp : Option (List UInt8)
  updates : List (T → Except IoError (R × T))
  holder : Option (Holder T R)
  finished : List (Finished T R)

variable {T R Order : Type}

/-- `Persistent::load`, with the result of reading the file if there is a path. -/
def load (codec : Codec T Order) (default : T) : Option (Except IoError (List UInt8)) → Except IoError T
  | some (.ok bytes) => (codec.from_slice bytes).mapError IoError.other
  | some (.error e) => if e.kind ≠ .NotFound then .error e else .ok default
  | none => .ok default

/-- Reading a file that is there or not. -/
def read_file (target : Option (List UInt8)) : Except IoError (List UInt8) :=
  match target with
  | some bytes => .ok bytes
  | none => .error ⟨.NotFound, "No such file or directory (os error 2)"⟩

/-- What a new process loads from the path. -/
def reload (codec : Codec T Order) (default : T) (path : Bool) (target : Option (List UInt8)) : Except IoError T :=
  load codec default (if path then some (read_file target) else none)

def UpdateState.stored (self : UpdateState T R) : Stored T := ⟨self.value, self.target⟩

/-- A store that was just loaded. A temporary file may be left from before. -/
def UpdateState.loaded (path : Bool) (value : T) (target tmp : Option (List UInt8)) : UpdateState T R where
  path := path
  value := value
  target := target
  tmp := tmp
  updates := []
  holder := none
  finished := []

/-- The update returns and releases the lock. -/
def UpdateState.finish (self : UpdateState T R) (holder : Holder T R) (result : Except IoError R) : UpdateState T R :=
  { self with
    holder := none
    finished := self.finished ++ [⟨holder.index, holder.update, holder.found, self.stored, result⟩] }

def UpdateState.enter (self : UpdateState T R) (holder : Holder T R) (stage : UpdateStage T R) : UpdateState T R :=
  { self with holder := some { holder with stage := stage } }

inductive UpdateLabel (T R Order : Type)
  | request (update : T → Except IoError (R × T))
  | acquire (index : Nat)
  | apply
  | create_dir_all (disk : Disk)
  | encode (next_order value_order : Order) (visible : Bool)
  | open (disk : Disk)
  | write_all (written : Nat) (disk : Disk)
  | sync_all (disk : Disk)
  | rename (disk : Disk)
  | remove_file (removed : Bool)
  | publish

/-- A waiting update takes the writer lock. -/
def UpdateState.acquire (self : UpdateState T R) (index : Nat) : Option (UpdateState T R) :=
  match self.holder, self.updates[index]? with
  | none, some update =>
    if index ∈ self.finished.map Finished.index then none
    else some { self with holder := some ⟨index, update, self.stored, .entered⟩ }
  | _, _ => none

/-- The serialization of the next value, its comparison with that of the current
one, and `path.exists()`: a file that is there may fail to be seen. -/
def UpdateState.encode (codec : Codec T Order) (self : UpdateState T R) (holder : Holder T R) (result : R) (next : T)
    (next_order value_order : Order) (visible : Bool) : UpdateState T R :=
  match codec.to_vec_pretty next_order next with
  | .error e => self.enter holder (.failing (.other e))
  | .ok bytes => match codec.to_vec_pretty value_order self.value with
    | .error e => self.enter holder (.failing (.other e))
    | .ok previous =>
      if bytes = previous ∧ visible && self.target.isSome then self.enter holder (.saved result next)
      else self.enter holder (.encoded result next bytes)

/-- A step of the update that holds the lock. A write that fails may leave some
of the bytes, and the file it leaves may fail to be removed. -/
def UpdateState.advance (codec : Codec T Order) (self : UpdateState T R) (holder : Holder T R)
    (label : UpdateLabel T R Order) : Option (UpdateState T R) :=
  match holder.stage, label with
  | .entered, .apply => match holder.update self.value with
    | .error e => some (self.finish holder (.error e))
    | .ok (result, next) =>
      some (self.enter holder (if self.path then .updated result next else .saved result next))
  | .updated result next, .create_dir_all disk => match disk with
    | .error e => some (self.finish holder (.error e))
    | .ok () => some (self.enter holder (.prepared result next))
  | .prepared result next, .encode next_order value_order visible =>
    some (self.encode codec holder result next next_order value_order visible)
  | .encoded result next bytes, .open disk => match disk with
    | .error e => some (self.enter holder (.failing e))
    | .ok () => some { self.enter holder (.opened result next bytes) with tmp := some [] }
  | .opened result next bytes, .write_all written disk => match disk with
    | .error e => some { self.enter holder (.failing e) with tmp := some (bytes.take written) }
    | .ok () => some { self.enter holder (.written result next bytes) with tmp := some bytes }
  | .written result next bytes, .sync_all disk => match disk with
    | .error e => some (self.enter holder (.failing e))
    | .ok () => some (self.enter holder (.synced result next bytes))
  | .synced result next _, .rename disk => match disk with
    | .error e => some (self.enter holder (.failing e))
    | .ok () => some { self.enter holder (.saved result next) with target := self.tmp, tmp := none }
  | .failing e, .remove_file removed =>
    some ({ self with tmp := if removed then none else self.tmp }.finish holder (.error e))
  | .saved result next, .publish => some ({ self with value := next }.finish holder (.ok result))
  | _, _ => none

def UpdateState.step (codec : Codec T Order) (self : UpdateState T R) (label : UpdateLabel T R Order) :
    Option (UpdateState T R) :=
  match label with
  | .request update => some { self with updates := self.updates ++ [update] }
  | .acquire index => self.acquire index
  | label => self.holder.bind fun holder => self.advance codec holder label

/-- An update that fails leaves everything as it was; one that succeeds leaves
what its closure computed, in memory and in the file. -/
structure Finished.AllOrNothing (codec : Codec T Order) (path : Bool) (entry : Finished T R) : Prop where
  error : ∀ e, entry.result = .error e → entry.left = entry.found
  ok : ∀ result, entry.result = .ok result → entry.update entry.found.value = .ok (result, entry.left.value) ∧
    (path = true → ∃ bytes, entry.left.target = some bytes ∧ codec.from_slice bytes = .ok entry.left.value)
  /-- It is the atomic update of the store. -/
  atomic : ∃ disk, Persistent.update ⟨entry.found.value, path⟩ disk entry.update =
    (entry.result, ⟨entry.left.value, path⟩)

/-- The updates took place one after another: each found what the one before it
had left. -/
def Serial (start : Stored T) : List (Finished T R) → Stored T → Prop
  | [], final => final = start
  | entry :: rest, final => entry.found = start ∧ Serial entry.left rest final

/-- The file holds the value, or there is none yet and the value is the default. -/
def Holds (codec : Codec T Order) (default : T) (stored : Stored T) : Prop :=
  match stored.target with
  | some bytes => codec.from_slice bytes = .ok stored.value
  | none => stored.value = default

/-- What holds of a store over all of its updates. -/
structure UpdateState.Transactional (codec : Codec T Order) (default : T) (start : Stored T)
    (s : UpdateState T R) : Prop where
  entries : ∀ entry ∈ s.finished, entry.AllOrNothing codec s.path ∧ s.updates[entry.index]? = some entry.update
  once : (s.finished.map Finished.index).Nodup
  serial : s.holder = none → Serial start s.finished s.stored
  reload : s.holder = none → s.path = true → reload codec default s.path s.target = .ok s.value

/-- What was last settled: what the holder of the lock found, or what is there. -/
def UpdateState.settled (s : UpdateState T R) : Stored T :=
  match s.holder with
  | some holder => holder.found
  | none => s.stored

/-- The closure has succeeded and nothing has changed yet. -/
structure Begun (path : Bool) (stored found : Stored T) (update : T → Except IoError (R × T)) (result : R) (next : T) :
    Prop where
  unchanged : stored = found
  path : path = true
  computed : update found.value = .ok (result, next)

/-- What holds at each stage of the update that has the lock. -/
def UpdateStage.Sound (codec : Codec T Order) (path : Bool) (stored : Stored T) (tmp : Option (List UInt8))
    (found : Stored T)
    (update : T → Except IoError (R × T)) : UpdateStage T R → Prop
  | .entered => stored = found
  | .updated result next | .prepared result next => Begun path stored found update result next
  | .encoded result next bytes | .opened result next bytes =>
    Begun path stored found update result next ∧ codec.from_slice bytes = .ok next
  | .written result next bytes | .synced result next bytes =>
    Begun path stored found update result next ∧ codec.from_slice bytes = .ok next ∧ tmp = some bytes
  | .failing _ => ∃ result next, Begun path stored found update result next
  | .saved result next => stored.value = found.value ∧ update found.value = .ok (result, next) ∧
    (path = true → ∃ bytes, stored.target = some bytes ∧ codec.from_slice bytes = .ok next)

structure UpdateState.Lawful (codec : Codec T Order) (default : T) (start : Stored T) (s : UpdateState T R) : Prop where
  entries : ∀ entry ∈ s.finished, entry.AllOrNothing codec s.path ∧ s.updates[entry.index]? = some entry.update
  once : (s.finished.map Finished.index).Nodup
  serial : Serial start s.finished s.settled
  holds : s.path = true → Holds codec default s.settled
  holder : ∀ holder, s.holder = some holder → holder.index ∉ s.finished.map Finished.index ∧
    s.updates[holder.index]? = some holder.update ∧
      holder.stage.Sound codec s.path s.stored s.tmp holder.found holder.update

section

variable {codec : Codec T Order} {default : T} {start : Stored T} {s next : UpdateState T R} {holder : Holder T R}

theorem Serial.snoc {entries : List (Finished T R)} {entry : Finished T R}
    (hserial : Serial start entries entry.found) :
    Serial start (entries ++ [entry]) entry.left := by
  induction entries generalizing start with
  | nil => exact ⟨hserial, rfl⟩
  | cons head rest ih =>
    obtain ⟨hfound, hrest⟩ := hserial
    exact ⟨hfound, ih hrest⟩

/-- What an update leaves is settled again. -/
theorem Finished.AllOrNothing.holds {entry : Finished T R} (hentry : entry.AllOrNothing codec true)
    (hfound : Holds codec default entry.found) : Holds codec default entry.left := by
  cases hresult : entry.result with
  | error e => rw [hentry.error e hresult]; exact hfound
  | ok result =>
    obtain ⟨bytes, htarget, hbytes⟩ := (hentry.ok result hresult).2 rfl
    unfold Holds
    rw [htarget]
    exact hbytes

/-- The holder goes on to another stage. -/
theorem UpdateState.Lawful.enter (hlawful : s.Lawful codec default start) (hholder : s.holder = some holder)
    {stage : UpdateStage T R} {value : T} {target tmp : Option (List UInt8)}
    (hsound : stage.Sound codec s.path ⟨value, target⟩ tmp holder.found holder.update) :
    UpdateState.Lawful codec default start
      ⟨s.path, value, target, tmp, s.updates, some { holder with stage := stage }, s.finished⟩ := by
  obtain ⟨hindex, hupdate, -⟩ := hlawful.holder holder hholder
  have hsettled : s.settled = holder.found := by rw [UpdateState.settled, hholder]
  refine ⟨hlawful.entries, hlawful.once, ?_, fun hpath => ?_, fun other hother => ?_⟩
  · have hserial := hlawful.serial
    rw [hsettled] at hserial
    exact hserial
  · have hholds := hlawful.holds hpath
    rw [hsettled] at hholds
    exact hholds
  · obtain rfl := Option.some.inj hother
    exact ⟨hindex, hupdate, hsound⟩

/-- The holder returns and releases the lock. -/
theorem UpdateState.Lawful.finish (hlawful : s.Lawful codec default start) (hholder : s.holder = some holder)
    {value : T} {tmp : Option (List UInt8)} {result : Except IoError R}
    (hentry : Finished.AllOrNothing codec s.path
      ⟨holder.index, holder.update, holder.found, ⟨value, s.target⟩, result⟩) :
    UpdateState.Lawful codec default start ({ s with value := value, tmp := tmp }.finish holder result) := by
  obtain ⟨hindex, hupdate, -⟩ := hlawful.holder holder hholder
  have hsettled : s.settled = holder.found := by rw [UpdateState.settled, hholder]
  have hserial := hlawful.serial
  rw [hsettled] at hserial
  refine ⟨fun entry hmem => ?_, ?_, ?_, fun hpath => ?_, fun other hother => by cases hother⟩
  · obtain hold | hnew := List.mem_append.mp hmem
    · exact hlawful.entries entry hold
    · obtain rfl := List.mem_singleton.mp hnew
      exact ⟨hentry, hupdate⟩
  · change ((s.finished ++ [_]).map Finished.index).Nodup
    rw [List.map_append, List.nodup_append]
    refine ⟨hlawful.once, List.nodup_singleton _, fun first hfirst second hsecond => ?_⟩
    rw [List.map_singleton, List.mem_singleton] at hsecond
    intro hsame
    have hholder : first = holder.index := hsame.trans hsecond
    exact hindex (hholder ▸ hfirst)
  · exact Serial.snoc hserial
  · have hholds := hlawful.holds hpath
    rw [hsettled] at hholds
    have hpathtrue : s.path = true := hpath
    rw [hpathtrue] at hentry
    exact hentry.holds hholds

/-- An update that fails at a filesystem step is the atomic update on a disk that
fails. -/
theorem Begun.failed {result : R} {value : T}
    (hbegun : Begun s.path s.stored holder.found holder.update result value) (e : IoError) :
    Finished.AllOrNothing codec s.path
      (⟨holder.index, holder.update, holder.found, s.stored, .error e⟩ : Finished T R) where
  error := fun _ _ => hbegun.unchanged
  ok := fun _ h => by cases h
  atomic := by
    have hvalue : s.stored.value = holder.found.value := congrArg Stored.value hbegun.unchanged
    have hupdate : Persistent.update ⟨holder.found.value, s.path⟩ (.error e) holder.update = (.error e, _) :=
      Persistent.update_of_disk hbegun.computed hbegun.path e
    exact ⟨.error e, hvalue ▸ hupdate⟩

theorem UpdateState.Lawful.acquire (hlawful : s.Lawful codec default start) {index : Nat}
    (h : s.acquire index = some next) : next.Lawful codec default start := by
  unfold UpdateState.acquire at h
  split at h
  · rename_i update hfree hupdate
    split at h
    · cases h
    · rename_i hindex
      obtain rfl := Option.some.inj h
      have hsettled : s.settled = s.stored := by rw [UpdateState.settled, hfree]
      refine ⟨hlawful.entries, hlawful.once, ?_, fun hpath => ?_, fun holder hholder => ?_⟩
      · exact hsettled ▸ hlawful.serial
      · exact hsettled ▸ hlawful.holds hpath
      · obtain rfl := Option.some.inj hholder
        exact ⟨hindex, hupdate, rfl⟩
  · cases h

/-- A new request waits. -/
theorem UpdateState.Lawful.request (hlawful : s.Lawful codec default start) (update : T → Except IoError (R × T)) :
    UpdateState.Lawful codec default start { s with updates := s.updates ++ [update] } := by
  have hkept : ∀ {index : Nat} {known : T → Except IoError (R × T)}, s.updates[index]? = some known →
      (s.updates ++ [update])[index]? = some known := by
    intro index known hknown
    obtain ⟨hlt, -⟩ := List.getElem?_eq_some_iff.mp hknown
    rw [List.getElem?_append_left hlt, hknown]
  refine ⟨fun entry hentry => ?_, hlawful.once, hlawful.serial, hlawful.holds, fun holder hholder => ?_⟩
  · obtain ⟨hlaw, hupdate⟩ := hlawful.entries entry hentry
    exact ⟨hlaw, hkept hupdate⟩
  · obtain ⟨hindex, hupdate, hsound⟩ := hlawful.holder holder hholder
    exact ⟨hindex, hkept hupdate, hsound⟩

theorem UpdateState.Lawful.apply (hlawful : s.Lawful codec default start) (hholder : s.holder = some holder)
    (hfound : s.stored = holder.found) :
    UpdateState.Lawful codec default start (match holder.update s.value with
      | .error e => s.finish holder (.error e)
      | .ok (result, next) => s.enter holder (if s.path then .updated result next else .saved result next)) := by
  have hvalue : s.value = holder.found.value := congrArg Stored.value hfound
  cases hupdate : holder.update s.value with
  | error e =>
    have hatomic : Persistent.update ⟨s.value, s.path⟩ (.ok ()) holder.update = (.error e, _) :=
      Persistent.update_of_error hupdate (.ok ())
    rw [hvalue] at hatomic
    exact hlawful.finish hholder ⟨fun _ _ => hfound, (fun _ h => by cases h), ⟨.ok (), hvalue ▸ hatomic⟩⟩
  | ok computed =>
    obtain ⟨result, value⟩ := computed
    rw [hvalue] at hupdate
    cases hpath : s.path with
    | true => exact hlawful.enter hholder ⟨hfound, hpath, hupdate⟩
    | false =>
      refine hlawful.enter hholder ⟨hvalue, hupdate, fun h => ?_⟩
      rw [hpath] at h
      cases h

/-- A text that is equal to that of the current value needs no write: the value
is the same, and the file that is there holds it. -/
theorem UpdateState.Lawful.encode (hround : codec.RoundTrips) (hlawful : s.Lawful codec default start)
    (hholder : s.holder = some holder) {result : R} {value : T}
    (hbegun : Begun s.path s.stored holder.found holder.update result value)
    (next_order value_order : Order) (visible : Bool) :
    (s.encode codec holder result value next_order value_order visible).Lawful codec default start := by
  unfold UpdateState.encode
  cases hnext : codec.to_vec_pretty next_order value with
  | error e => exact hlawful.enter hholder ⟨result, value, hbegun⟩
  | ok bytes =>
    cases hcurrent : codec.to_vec_pretty value_order s.value with
    | error e => exact hlawful.enter hholder ⟨result, value, hbegun⟩
    | ok previous =>
      dsimp only
      split
      · rename_i hskip
        obtain ⟨hsame, hthere⟩ := hskip
        obtain ⟨-, hsome⟩ := Bool.and_eq_true_iff.mp hthere
        obtain ⟨saved, hsaved⟩ := Option.isSome_iff_exists.mp hsome
        have hvalue : s.value = value := by
          have hread := hround _ _ _ hcurrent
          rw [← hsame, hround _ _ _ hnext] at hread
          exact (Except.ok.inj hread).symm
        refine hlawful.enter hholder ⟨congrArg Stored.value hbegun.unchanged, hbegun.computed, fun _ =>
          ⟨saved, hsaved, ?_⟩⟩
        have hholds := hlawful.holds hbegun.path
        rw [UpdateState.settled, hholder] at hholds
        change Holds codec default holder.found at hholds
        rw [← hbegun.unchanged, Holds, UpdateState.stored] at hholds
        dsimp only at hholds
        rw [hsaved] at hholds
        exact hvalue ▸ hholds
      · exact hlawful.enter hholder ⟨hbegun, hround _ _ _ hnext⟩

/-- The value is published, in memory after the file. -/
theorem UpdateState.Lawful.publish (hlawful : s.Lawful codec default start) (hholder : s.holder = some holder)
    {result : R} {value : T}
    (hsound : (UpdateStage.saved result value).Sound codec s.path s.stored s.tmp holder.found holder.update) :
    UpdateState.Lawful codec default start ({ s with value := value }.finish holder (.ok result)) := by
  obtain ⟨-, hcomputed, htarget⟩ := hsound
  have hatomic : Persistent.update ⟨holder.found.value, s.path⟩ (.ok ()) holder.update = (.ok result, _) :=
    Persistent.update_of_ok hcomputed
  refine hlawful.finish hholder ⟨(fun _ h => by cases h), fun r hresult => ?_, .ok (), hatomic⟩
  obtain rfl := Except.ok.inj hresult
  exact ⟨hcomputed, htarget⟩

theorem UpdateState.Lawful.advance (hround : codec.RoundTrips) (hlawful : s.Lawful codec default start)
    (hholder : s.holder = some holder) {label : UpdateLabel T R Order} (h : s.advance codec holder label = some next) :
    next.Lawful codec default start := by
  obtain ⟨-, -, hsound⟩ := hlawful.holder holder hholder
  unfold UpdateState.advance at h
  cases hstage : holder.stage with
  | entered =>
    rw [hstage] at h hsound
    cases label with
    | apply =>
      have happly := hlawful.apply hholder hsound
      dsimp only at h
      split at h <;> rename_i hupdate <;> rw [hupdate] at happly <;> exact Option.some.inj h ▸ happly
    | _ => cases h
  | updated result value =>
    rw [hstage] at h hsound
    cases label with
    | create_dir_all disk => cases disk with
      | error e => exact Option.some.inj h ▸ hlawful.finish hholder (hsound.failed e)
      | ok _ => exact Option.some.inj h ▸ hlawful.enter hholder hsound
    | _ => cases h
  | prepared result value =>
    rw [hstage] at h hsound
    cases label with
    | encode => exact Option.some.inj h ▸ hlawful.encode hround hholder hsound _ _ _
    | _ => cases h
  | encoded result value bytes =>
    rw [hstage] at h hsound
    cases label with
    | «open» disk => cases disk with
      | error e => exact Option.some.inj h ▸ hlawful.enter hholder ⟨result, value, hsound.1⟩
      | ok _ => exact Option.some.inj h ▸ hlawful.enter hholder hsound
    | _ => cases h
  | opened result value bytes =>
    rw [hstage] at h hsound
    cases label with
    | write_all written disk => cases disk with
      | error e => exact Option.some.inj h ▸ hlawful.enter hholder ⟨result, value, hsound.1⟩
      | ok _ => exact Option.some.inj h ▸ hlawful.enter hholder ⟨hsound.1, hsound.2, rfl⟩
    | _ => cases h
  | written result value bytes =>
    rw [hstage] at h hsound
    cases label with
    | sync_all disk => cases disk with
      | error e => exact Option.some.inj h ▸ hlawful.enter hholder ⟨result, value, hsound.1⟩
      | ok _ => exact Option.some.inj h ▸ hlawful.enter hholder hsound
    | _ => cases h
  | synced result value bytes =>
    rw [hstage] at h hsound
    obtain ⟨hbegun, hbytes, htmp⟩ := hsound
    cases label with
    | rename disk => cases disk with
      | error e => exact Option.some.inj h ▸ hlawful.enter hholder ⟨result, value, hbegun⟩
      | ok _ =>
        -- the rename moves what this update has written
        have hvalue : s.stored.value = holder.found.value := congrArg Stored.value hbegun.unchanged
        exact Option.some.inj h ▸ hlawful.enter hholder ⟨hvalue, hbegun.computed, fun _ => ⟨bytes, htmp, hbytes⟩⟩
    | _ => cases h
  | failing e =>
    rw [hstage] at h hsound
    obtain ⟨_, _, hbegun⟩ := hsound
    cases label with
    | remove_file removed => exact Option.some.inj h ▸ hlawful.finish hholder (hbegun.failed e)
    | _ => cases h
  | saved result value =>
    rw [hstage] at h hsound
    cases label with
    | publish => exact Option.some.inj h ▸ hlawful.publish hholder hsound
    | _ => cases h

theorem UpdateState.Lawful.step (hround : codec.RoundTrips) (hlawful : s.Lawful codec default start)
    {label : UpdateLabel T R Order} (h : s.step codec label = some next) : next.Lawful codec default start := by
  unfold UpdateState.step at h
  split at h
  · rename_i update
    exact Option.some.inj h ▸ hlawful.request update
  · exact hlawful.acquire h
  · obtain ⟨holder, hholder, hadvance⟩ := Option.bind_eq_some_iff.mp h
    exact hlawful.advance hround hholder hadvance

/-- What is settled reads back as the value. -/
theorem Holds.reload {stored : Stored T} (hholds : Holds codec default stored) :
    asmodeus.control_plane.reload codec default true stored.target = .ok stored.value := by
  unfold Holds at hholds
  split at hholds
  · rename_i bytes htarget
    rw [asmodeus.control_plane.reload, if_pos rfl, htarget, read_file, load, hholds]
    rfl
  · rename_i htarget
    rw [asmodeus.control_plane.reload, if_pos rfl, htarget, read_file, load, if_neg (not_not.mpr rfl), hholds]

/-- A store that was loaded from its file holds what the file holds. -/
theorem holds_of_reload {target : Option (List UInt8)} {value : T}
    (hload : asmodeus.control_plane.reload codec default true target = .ok value) :
      Holds codec default ⟨value, target⟩ := by
  cases target with
  | none =>
    rw [asmodeus.control_plane.reload, if_pos rfl, read_file, load, if_neg (not_not.mpr rfl)] at hload
    exact (Except.ok.inj hload).symm
  | some bytes =>
    rw [asmodeus.control_plane.reload, if_pos rfl, read_file, load] at hload
    change codec.from_slice bytes = .ok value
    cases hread : codec.from_slice bytes with
    | error e =>
      rw [hread] at hload
      cases hload
    | ok read =>
      rw [hread] at hload
      exact congrArg Except.ok (Except.ok.inj hload)

end

/-- Over any requests of updates, in any order of their steps and with any of
these failing, the updates of a loaded store are transactions. -/
theorem UpdateState.updates_transactional (codec : Codec T Order) (hround : codec.RoundTrips) (default : T)
    {path : Bool}
    {value : T} {target tmp : Option (List UInt8)} {labels : List (UpdateLabel T R Order)} {s : UpdateState T R}
    (hload : asmodeus.control_plane.reload codec default path target = .ok value)
    (hrun : Transition.run (UpdateState.step codec) (.loaded path value target tmp) labels = some s) :
    s.Transactional codec default ⟨value, target⟩ := by
  have hstart : UpdateState.Lawful codec default ⟨value, target⟩ (.loaded path value target tmp : UpdateState T R) := by
    refine ⟨fun _ h => absurd h List.not_mem_nil, List.nodup_nil, rfl, fun hpath => ?_, fun _ h => by cases h⟩
    have hpath : path = true := hpath
    rw [hpath] at hload
    exact holds_of_reload hload
  have hlawful : s.Lawful codec default ⟨value, target⟩ :=
    Transition.Preserved.run (fun _ _ _ hlawful hstep => hlawful.step hround hstep) hstart hrun
  refine ⟨hlawful.entries, hlawful.once, fun hfree => ?_, fun hfree hpath => ?_⟩
  · have hserial := hlawful.serial
    rw [UpdateState.settled, hfree] at hserial
    exact hserial
  · have hholds := hlawful.holds hpath
    rw [UpdateState.settled, hfree] at hholds
    rw [hpath]
    exact hholds.reload

/-- The JSON of a truth value. -/
def bool_codec : Codec Bool Unit where
  to_vec_pretty _ value := .ok (if value then [116, 114, 117, 101] else [102, 97, 108, 115, 101])
  from_slice bytes :=
    if bytes = [116, 114, 117, 101] then .ok true
    else if bytes = [102, 97, 108, 115, 101] then .ok false
    else .error "expected value at line 1 column 1"

theorem bool_codec_round_trips : bool_codec.RoundTrips := by
  intro order value bytes hbytes
  obtain rfl := Except.ok.inj hbytes
  cases value <;> rfl

def toggle (value : Bool) : Except IoError (Unit × Bool) := .ok ((), !value)

/-- Two updates at once on a file that is not there yet. The rename of the first
one fails. -/
def contended_updates : List (UpdateLabel Bool Unit Unit) :=
  [.request toggle, .request toggle, .acquire 0, .apply, .create_dir_all (.ok ()), .encode () () true, .open (.ok ()),
    .write_all 4 (.ok ()), .sync_all (.ok ()), .rename (.error (.other "No space left on device")), .remove_file true,
    .acquire 1, .apply, .create_dir_all (.ok ()), .encode () () true, .open (.ok ()), .write_all 4 (.ok ()),
    .sync_all (.ok ()), .rename (.ok ()), .publish]

theorem contended_updates_transactional : ∃ s : UpdateState Bool Unit,
    Transition.run (UpdateState.step bool_codec) (.loaded true false none none) contended_updates = some s ∧
      s.finished.map Finished.index = [0, 1] ∧ s.value = true ∧ s.Transactional bool_codec false ⟨false, none⟩ := by
  have hrun : Transition.run (UpdateState.step bool_codec) (.loaded true false none none) contended_updates =
    some _ := rfl
  have hload : reload bool_codec false true none = .ok false := rfl
  exact ⟨_, hrun, rfl, rfl, UpdateState.updates_transactional bool_codec bool_codec_round_trips false hload hrun⟩

end asmodeus.control_plane
