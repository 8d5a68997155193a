import Asmodeus.ControlPlane.Admission

open asmodeus.common asmodeus.dsl

namespace asmodeus.control_plane

section

variable {sign : List UInt8 → List UInt8 → Except String (List UInt8)} {serde : Serde}
variable {catalog : Catalog} {item other : DirEntry} {text : String} {manifest : ScenarioManifest}

/-- The text and the manifest of a file that passes the checks of the loader. -/
def DirEntry.accepted (serde : Serde) (self : DirEntry) : Option (String × ScenarioManifest) :=
  let extension := String.ofList ((self.extension.getD "").toList.map Char.toLower)
  if !self.is_file || !(["yaml", "yml", "json"].contains extension) then none
  else self.content.bind fun content =>
    (parse_and_validate_manifest serde content).toOption.map fun manifest => (content, manifest)

/-- A directory that can be listed, with its files in some order. -/
def Directory.of_files (files : List DirEntry) : Directory := .listed (files.map .ok)

namespace Catalog

/-- The entry the loader makes of a file. -/
def loaded (sign : List UInt8 → List UInt8 → Except String (List UInt8)) (serde : Serde) (self : Catalog)
    (item : DirEntry) : Option CatalogEntry := (self.read_item sign serde item).toOption.join

theorem accepted_content (h : item.accepted serde = some (text, manifest)) : item.content = some text ∧
    parse_and_validate_manifest serde text = .ok manifest := by
  unfold DirEntry.accepted at h
  dsimp only at h
  split at h
  · cases h
  · obtain ⟨content, hcontent, h⟩ := Option.bind_eq_some_iff.mp h
    cases hparse : parse_and_validate_manifest serde content with
    | error e =>
      rw [hparse] at h
      cases h
    | ok parsed =>
      rw [hparse] at h
      cases h
      exact ⟨hcontent, hparse⟩

/-- What the gate accepts has a plan, so that no file stops the loader. -/
theorem read_item_cases (sign : List UInt8 → List UInt8 → Except String (List UInt8)) (serde : Serde)
    (catalog : Catalog) (item : DirEntry) :
    (item.accepted serde = none ∧ catalog.read_item sign serde item = .ok none) ∨
      ∃ text manifest plan, item.accepted serde = some (text, manifest) ∧
        ExecutionPlan.from_manifest manifest = .ok plan ∧ catalog.read_item sign serde item =
          .ok (some (external_entry text manifest plan (catalog.sign_external sign (Utf8.encode text.toList)))) := by
  unfold read_item DirEntry.accepted
  dsimp only
  split
  · exact Or.inl ⟨rfl, rfl⟩
  · cases hcontent : item.content with
    | none => exact Or.inl ⟨rfl, rfl⟩
    | some text =>
      cases hparse : parse_and_validate_manifest serde text with
      | error e =>
        refine Or.inl ⟨?_, ?_⟩ <;> simp [hparse, Except.toOption]
      | ok manifest =>
        obtain ⟨plan, hplan⟩ := (parse_and_validate_manifest_ok hparse).2.plan
        refine Or.inr ⟨text, manifest, plan, ?_, hplan, ?_⟩ <;> simp [hparse, hplan, Except.toOption]

theorem read_item_eq (sign : List UInt8 → List UInt8 → Except String (List UInt8)) (serde : Serde)
    (catalog : Catalog) (item : DirEntry) :
    catalog.read_item sign serde item = .ok (catalog.loaded sign serde item) := by
  unfold loaded
  obtain ⟨-, hread⟩ | ⟨text, manifest, plan, -, -, hread⟩ :=
    read_item_cases sign serde catalog item <;> rw [hread] <;> rfl

/-- Loading files is a run of upserts. -/
theorem load_items_files (count : Nat) (files : List DirEntry) :
    catalog.load_items sign serde count (files.map .ok) =
      ({ catalog with
          entries := (files.filterMap (catalog.loaded sign serde)).foldl (KeyedList.upsert fun e => e.id)
            catalog.entries },
        .ok (count + (files.filterMap (catalog.loaded sign serde)).length)) := by
  induction files generalizing catalog count with
  | nil => rfl
  | cons item rest ih =>
    rw [List.map_cons, load_items, read_item_eq]
    cases hloaded : catalog.loaded sign serde item with
    | none =>
      rw [List.filterMap_cons_none hloaded]
      exact ih count
    | some entry =>
      rw [List.filterMap_cons_some hloaded]
      refine (@ih { catalog with entries := KeyedList.upsert (fun e => e.id) catalog.entries entry }
        (count + 1)).trans ?_
      rw [List.length_cons, Nat.add_assoc, Nat.add_comm 1]
      rfl

theorem loaded_some {entry : CatalogEntry} (h : catalog.loaded sign serde item = some entry) :
    ∃ text manifest, item.accepted serde = some (text, manifest) ∧ entry.id = manifest.metadata.id ∧
      entry.manifest = Utf8.encode text.toList := by
  unfold loaded at h
  obtain ⟨-, hread⟩ | ⟨text, manifest, plan, haccepted, -, hread⟩ := read_item_cases sign serde catalog item
  · rw [hread] at h
    cases h
  · rw [hread] at h
    cases h
    exact ⟨text, manifest, haccepted, rfl, rfl⟩

theorem loaded_of_accepted (sign : List UInt8 → List UInt8 → Except String (List UInt8)) (catalog : Catalog)
    (h : item.accepted serde = some (text, manifest)) :
    ∃ entry, catalog.loaded sign serde item = some entry ∧ entry.id = manifest.metadata.id := by
  unfold loaded
  obtain ⟨hnone, -⟩ | ⟨text', manifest', plan, haccepted, -, hread⟩ := read_item_cases sign serde catalog item
  · rw [hnone] at h
    cases h
  · rw [h] at haccepted
    cases haccepted
    exact ⟨_, by rw [hread]; rfl, rfl⟩

/-- The entry of a file is a matter of its text. -/
theorem loaded_text (ha : item.accepted serde = some (text, manifest)) {manifest' : ScenarioManifest}
    (hb : other.accepted serde = some (text, manifest')) :
    catalog.loaded sign serde item = catalog.loaded sign serde other := by
  obtain rfl : manifest = manifest' :=
    Except.ok.inj ((accepted_content ha).2.symm.trans (accepted_content hb).2)
  unfold loaded
  obtain ⟨hnone, -⟩ | ⟨_, _, plan, haccepted, hplan, hread⟩ := read_item_cases sign serde catalog item
  · rw [hnone] at ha
    cases ha
  · obtain ⟨hnone, -⟩ | ⟨_, _, plan', haccepted', hplan', hread'⟩ := read_item_cases sign serde catalog other
    · rw [hnone] at hb
      cases hb
    · rw [ha] at haccepted
      rw [hb] at haccepted'
      cases haccepted
      cases haccepted'
      obtain rfl := Except.ok.inj (hplan.symm.trans hplan')
      rw [hread, hread']

/-- A process that reads a directory of files starts. -/
theorem from_env_files {is_valid : List UInt8 → List UInt8 → List UInt8 → Bool} (catalog : Catalog)
    (public_of : List UInt8 → Except String (List UInt8)) (files : List DirEntry) :
    catalog.from_env sign is_valid serde public_of none false (some (.of_files files)) =
      .ok (catalog.load_from_dir sign serde (.of_files files)).1 := by
  have hload := @load_items_files sign serde catalog 0 files
  change catalog.use_configured_dir sign serde (some (.listed (files.map .ok))) = _
  simp only [use_configured_dir, Directory.of_files, load_from_dir, hload]

theorem load_files_get (files : List DirEntry) (id : String) :
    (catalog.load_from_dir sign serde (.of_files files)).1.get id = KeyedList.find (fun e => e.id) id
      ((files.filterMap (catalog.loaded sign serde)).foldl (KeyedList.upsert fun e => e.id) catalog.entries) := by
  rw [Directory.of_files, load_from_dir, load_items_files, Catalog.get]

/-- A file that is read last has the last word on its id. -/
theorem loaded_last {files : List DirEntry} {entry : CatalogEntry} (hitem : item ∈ files)
    (hentry : catalog.loaded sign serde item = some entry) : ∃ order : List DirEntry, order.Perm files ∧
      (catalog.load_from_dir sign serde (.of_files order)).1.get entry.id = some entry := by
  obtain ⟨before, after, rfl⟩ := List.append_of_mem hitem
  refine ⟨(before ++ after) ++ [item], ?_, ?_⟩
  · exact (List.perm_append_singleton item (before ++ after)).trans List.perm_middle.symm
  · rw [load_files_get, List.filterMap_append, List.filterMap_cons_some hentry, List.filterMap_nil]
    exact KeyedList.find_foldl_upsert_last catalog.entries _ entry

/-- The directory is read in any order with the same outcome under every id exactly if
no two of its accepted files share an id under different texts. -/
theorem load_order_irrelevant (sign : List UInt8 → List UInt8 → Except String (List UInt8)) (serde : Serde)
    (catalog : Catalog) (files : List DirEntry) :
    (∀ first second : List DirEntry, first.Perm files → second.Perm files → ∀ id,
        (catalog.load_from_dir sign serde (.of_files first)).1.get id =
          (catalog.load_from_dir sign serde (.of_files second)).1.get id) ↔
      ∀ a ∈ files, ∀ b ∈ files, ∀ text manifest text' manifest', a.accepted serde = some (text, manifest) →
        b.accepted serde = some (text', manifest') → manifest.metadata.id = manifest'.metadata.id → text = text' := by
  constructor
  · intro hsame a ha b hb text manifest text' manifest' haccepted haccepted' hid
    obtain ⟨entry, hentry, hentry_id⟩ := loaded_of_accepted sign catalog haccepted
    obtain ⟨entry', hentry', hentry_id'⟩ := loaded_of_accepted sign catalog haccepted'
    obtain ⟨first, hfirst, hget⟩ := loaded_last ha hentry
    obtain ⟨second, hsecond, hget'⟩ := loaded_last hb hentry'
    have heq : entry = entry' := by
      rw [hentry_id] at hget
      rw [hentry_id', ← hid] at hget'
      exact Option.some.inj (hget.symm.trans ((hsame first second hfirst hsecond _).trans hget'))
    obtain ⟨_, _, htext, -, hmanifest⟩ := loaded_some hentry
    obtain ⟨_, _, htext', -, hmanifest'⟩ := loaded_some hentry'
    rw [haccepted] at htext
    rw [haccepted'] at htext'
    cases htext
    cases htext'
    rw [heq] at hmanifest
    exact String.toList_inj.mp (Utf8.encode_injective (hmanifest.symm.trans hmanifest'))
  · intro hagree first second hfirst hsecond id
    have hfiles : KeyedList.Agree (fun e : CatalogEntry => e.id) (files.filterMap (catalog.loaded sign serde)) := by
      intro entry hentry entry' hentry' hid
      obtain ⟨a, ha, hloaded⟩ := List.mem_filterMap.mp hentry
      obtain ⟨b, hb, hloaded'⟩ := List.mem_filterMap.mp hentry'
      obtain ⟨text, manifest, haccepted, hentry_id, -⟩ := loaded_some hloaded
      obtain ⟨text', manifest', haccepted', hentry_id', -⟩ := loaded_some hloaded'
      obtain rfl := hagree a ha b hb _ _ _ _ haccepted haccepted' (hentry_id.symm.trans (hid.trans hentry_id'))
      exact Option.some.inj (hloaded.symm.trans ((loaded_text haccepted haccepted').trans hloaded'))
    rw [load_files_get, load_files_get, hfiles.find_foldl_perm (hfirst.filterMap _),
      hfiles.find_foldl_perm (hsecond.filterMap _)]

end Catalog

end

/-- A reader that knows the texts of some manifests by name. -/
def read_known (render : String → String) (manifest : String → ScenarioManifest) (names : List String)
    (text : List Char) : Except String ScenarioManifest :=
  match KeyedList.find (fun name => (render name).toList) text names with
  | some name => .ok (manifest name)
  | none => .error "expected value"

theorem read_known_ok {render : String → String} {manifest : String → ScenarioManifest} {names : List String}
    (hrender : ∀ name name', (render name).toList = (render name').toList → name = name') (hnames : names.Nodup)
    {name : String} (hname : name ∈ names) : read_known render manifest names (render name).toList = .ok
    (manifest name) := by
  have hunique : KeyedList.Unique (fun name => (render name).toList) names := hnames.map fun _ _ => hrender _ _
  rw [read_known, hunique.find_of_mem hname]

/-- Deserializers that know two latency spikes under one id. -/
def twin_serde : Serde := ⟨read_known latency_text latency_manifest probed_interfaces, fun _ =>
    .error "expected value", fun _ => none⟩

theorem twin_from_str (text : List Char) :
    twin_serde.from_str text = read_known latency_text latency_manifest probed_interfaces text := by
  rw [twin_serde]

def twin_catalog (files : List DirEntry) : Catalog :=
  (latency_seeded.load_from_dir latency_sign twin_serde (.of_files files)).1

theorem latency_text_inj {iface iface' : String} (h : (latency_text iface).toList = (latency_text iface').toList) :
    iface = iface' := by
  unfold latency_text at h
  simp only [String.toList_append, List.append_cancel_left_eq, List.append_cancel_right_eq] at h
  exact String.toList_inj.mp h

theorem latency_entry_manifest (iface : String) :
    (latency_entry iface).manifest = Utf8.encode (latency_text iface).toList := by
  rw [latency_entry, external_entry]

theorem twin_loaded : ∀ iface ∈ probed_interfaces,
    latency_seeded.loaded latency_sign twin_serde (latency_item iface) = some (latency_entry iface) := by
  intro iface hiface
  have hread : twin_serde.from_str (latency_text iface).toList = .ok (latency_manifest iface) :=
    (twin_from_str _).trans (read_known_ok (fun _ _ => latency_text_inj) (by decide) hiface)
  have hitem := latency_read_of hiface hread
  exact Except.ok.inj ((Catalog.read_item_eq _ _ _ _).symm.trans hitem)

/-- The entry of the file that is listed last. -/
theorem twin_catalog_get {iface iface' : String} (hiface : iface ∈ probed_interfaces) :
    (twin_catalog ([latency_item iface'] ++ [latency_item iface])).get (latency_entry iface).id =
      some (latency_entry iface) := by
  rw [twin_catalog, Catalog.load_files_get, List.filterMap_append, List.filterMap_cons_some (twin_loaded iface hiface),
    List.filterMap_nil]
  exact KeyedList.find_foldl_upsert_last _ _ (latency_entry iface)

/-- Of two files that declare the same id the one that is listed last is executed. -/
theorem twin_files_race : ∃ first second : List DirEntry, first.Perm second ∧
    (twin_catalog first).get "LATENCY_PROBE" = some (latency_entry "lo0") ∧
      (twin_catalog second).get "LATENCY_PROBE" = some (latency_entry "eth0") ∧
        (latency_entry "lo0").manifest ≠ (latency_entry "eth0").manifest := by
  refine ⟨[latency_item "eth0"] ++ [latency_item "lo0"], [latency_item "lo0"] ++ [latency_item "eth0"],
    List.perm_append_comm, twin_catalog_get (by decide), twin_catalog_get (by decide), fun h => ?_⟩
  rw [latency_entry_manifest, latency_entry_manifest] at h
  exact absurd (latency_text_inj (Utf8.encode_injective h)) (by decide)

end asmodeus.control_plane
