import Xraytool.Sanity.SupportChat

/-! A blob is deleted when no attachment refers to it. An upload that has found a blob is no reference yet, so the blob
may go before the attachment is stored. -/

namespace Xraytool.SupportUploads

open SupportChat Fallible Transition List Option Pool

def Task.own : Task → List String
  | .insertBlob _ storageKey => [storageKey]
  | .findAgain _ storageKey => [storageKey]
  | .discard _ storageKey _ => [storageKey]
  | _ => []

def Task.doomed : Task → List Path
  | .removeFiles paths => paths
  | _ => []

/-- The key is that of no blob, and no upload has a file under it. -/
structure Dead (s : Scene) (storageKey : String) : Prop where
  blobs : ∀ blob ∈ s.chat.store.blobs.rows, blob.storageKey ≠ storageKey
  tasks : ∀ task ∈ s.tasks, storageKey ∉ task.own

/-- Attachments have blobs, blobs have files, and only files under dead keys are about to be removed. -/
structure Whole (p : Plugin) (s : Scene) : Prop where
  rows : ∀ att ∈ s.chat.store.attachments.rows, currentEncryptionVersion ≤ att.encryptionVersion ∧
    att.legacyStoragePath = "" ∧ ∃ blob ∈ s.chat.store.blobs.rows, blob.storageKey = attachmentStorageKey att
  files : ∀ blob ∈ s.chat.store.blobs.rows, (s.chat.disk.get (blobLocation p blob.storageKey)).isSome
  keys : ∀ blob ∈ s.chat.store.blobs.rows, blob.storageKey ≠ "" ∧ blob.storageKey ∈ s.issued ∧
    ∀ task ∈ s.tasks, blob.storageKey ∉ task.own
  own : ∀ task ∈ s.tasks, ∀ storageKey ∈ task.own, storageKey ≠ "" ∧ storageKey ∈ s.issued
  written : ∀ u storageKey, .insertBlob u storageKey ∈ s.tasks → (s.chat.disk.get (blobLocation p storageKey)).isSome
  distinct : (s.tasks.flatMap Task.own).Nodup
  doomed : ∀ task ∈ s.tasks, ∀ path ∈ task.doomed, ∃ storageKey ∈ s.issued,
    path = attachmentStoragePath p.mediaRoot storageKey ∧ Dead s storageKey

theorem whole_empty {p : Plugin} : Whole p {} where
  rows _ hatt := absurd hatt not_mem_nil
  files _ hbl := absurd hbl not_mem_nil
  keys _ hbl := absurd hbl not_mem_nil
  own _ hta := absurd hta not_mem_nil
  written _ _ hta := absurd hta not_mem_nil
  distinct := nodup_nil
  doomed _ hta := absurd hta not_mem_nil

/-- A key to put to use: nothing is stored under it, and nobody is about to remove its file. -/
structure Free (p : Plugin) (s : Scene) (storageKey : String) : Prop where
  ne : storageKey ≠ ""
  issued : storageKey ∈ s.issued
  dead : Dead s storageKey
  safe : ∀ task ∈ s.tasks, attachmentStoragePath p.mediaRoot storageKey ∉ task.doomed

namespace Whole

variable {p : Plugin} {s : Scene} {att : Attachment} {store : ChatStore} {skey : String} {task : Task} {i : Nat}

section

variable (h : Whole p s)
include h

theorem attachment (hatt : att ∈ s.chat.store.attachments.rows) :
    (∃ blob ∈ s.chat.store.blobs.rows, blob.storageKey = attachmentStorageKey att) ∧
      ((mediaLocation p att).bind s.chat.disk.get).isSome := by
  obtain ⟨hv, _, blob, hbl, hkey⟩ := h.rows att hatt
  refine ⟨⟨blob, hbl, hkey⟩, ?_⟩
  rw [mediaLocation, if_pos hv, ← hkey]
  exact h.files blob hbl

/-- The requests may go on with keys they had or free ones, and remove files they were to remove or those under dead
keys. -/
theorem exchange {tasks : List Task} (new : List Task) (hmem : ∀ t ∈ tasks, t ∈ new ∨ t ∈ s.tasks)
    (hdis : (tasks.flatMap Task.own).Nodup)
    (hown : ∀ key ∈ new.flatMap Task.own, (∃ t ∈ s.tasks, key ∈ t.own) ∨ Free p s key)
    (hwri : ∀ u key, .insertBlob u key ∈ new → (s.chat.disk.get (blobLocation p key)).isSome)
    (hdoo : ∀ path ∈ new.flatMap Task.doomed, (∃ t ∈ s.tasks, path ∈ t.doomed) ∨
      ∃ key ∈ s.issued, path = attachmentStoragePath p.mediaRoot key ∧ Dead s key ∧ ∀ t ∈ new, key ∉ t.own) :
    Whole p { s with tasks := tasks } := by
  have hhe : ∀ t ∈ tasks, ∀ key ∈ t.own, (∃ t ∈ s.tasks, key ∈ t.own) ∨ t ∈ new ∧ Free p s key := by
    intro t ht key hkey
    rcases hmem t ht with ht | ht
    · exact (hown key (mem_flatMap.2 ⟨t, ht, hkey⟩)).imp_right fun hfr => ⟨ht, hfr⟩
    · exact .inl ⟨t, ht, hkey⟩
  refine ⟨h.rows, h.files, fun blob hbl => ?_, fun t ht key hkey => ?_, fun u key ht => ?_, hdis,
    fun t ht path hpa => ?_⟩
  · obtain ⟨hne, hiss, hnob⟩ := h.keys blob hbl
    refine ⟨hne, hiss, fun t ht hkey => ?_⟩
    rcases hhe t ht _ hkey with ⟨t', ht', hkey'⟩ | ⟨-, hfr⟩
    · exact hnob t' ht' hkey'
    · exact hfr.dead.blobs blob hbl rfl
  · rcases hhe t ht key hkey with ⟨t', ht', hkey'⟩ | ⟨-, hfr⟩
    · exact h.own t' ht' key hkey'
    · exact ⟨hfr.ne, hfr.issued⟩
  · exact (hmem _ ht).elim (hwri u key) (h.written u key)
  · obtain ⟨key, hiss, rfl, hde, hsa⟩ : ∃ key ∈ s.issued, path = attachmentStoragePath p.mediaRoot key ∧
        Dead s key ∧ ∀ t ∈ new, Free p s key → key ∉ t.own := by
      have hca := (hmem t ht).elim (fun ht => hdoo path (mem_flatMap.2 ⟨t, ht, hpa⟩))
        fun ht => .inl ⟨t, ht, hpa⟩
      rcases hca with ⟨t', ht', hpa'⟩ | ⟨key, hiss, hpa, hde, hnew⟩
      · obtain ⟨key, hiss, rfl, hde⟩ := h.doomed t' ht' path hpa'
        exact ⟨key, hiss, rfl, hde, fun _ _ hfr => absurd hpa' (hfr.safe t' ht')⟩
      · exact ⟨key, hiss, hpa, hde, fun t ht _ => hnew t ht⟩
    refine ⟨key, hiss, rfl, hde.blobs, fun t ht hkey => ?_⟩
    rcases hhe t ht key hkey with ⟨t', ht', hkey'⟩ | ⟨hnew, hfr⟩
    · exact hde.tasks t' ht' hkey'
    · exact hsa t hnew hfr hkey

theorem add (hown : task.own = []) (hdoo : task.doomed = []) : Whole p { s with tasks := s.tasks ++ [task] } := by
  refine h.exchange [task] (fun t ht => (mem_append.1 ht).symm) ?_ (fun key hkey => ?_) (fun u key ht => ?_)
    fun path hpa => ?_
  · simpa [hown] using h.distinct
  · simp [hown] at hkey
  · rw [← mem_singleton.1 ht] at hown
    cases hown
  · simp [hdoo] at hpa

theorem part (next : List Task) (hi : s.tasks[i]? = some task) (hown : (next.flatMap Task.own).Sublist task.own)
    (hdoo : next.flatMap Task.doomed ⊆ task.doomed) (hwri : ∀ u key, .insertBlob u key ∉ next) :
    Whole p { s with tasks := replace s.tasks i next } := by
  have hta : task ∈ s.tasks := mem_of_getElem? hi
  have hno : task.own.Nodup := by cases task <;> simp [Task.own]
  refine h.exchange next (fun _ => of_mem_replace) ?_ (fun key hkey => .inl ⟨task, hta, hown.subset hkey⟩)
    (fun u key ht => absurd ht (hwri u key)) fun path hpa => .inl ⟨task, hta, hdoo hpa⟩
  exact nodup_flatMap_replace h.distinct hi (hno.sublist hown) fun key hkey => .inl (hown.subset hkey)

theorem not_own_replace {next : List Task} (hi : s.tasks[i]? = some task) (hkey : skey ∈ task.own)
    (hne : next.flatMap Task.own = []) : ∀ t ∈ replace s.tasks i next, skey ∉ t.own := by
  intro t ht
  rcases mem_replace_iff.1 ht with ht | ht
  · rw [flatMap_eq_nil_iff.1 hne t ht]
    exact not_mem_nil
  · exact not_mem_of_mem_others h.distinct hi hkey ht

theorem files_of_disk (disk : Disk) {issued : List String} (hiss : s.issued ⊆ issued)
    (hdi : ∀ key, ¬ Dead s key → (s.chat.disk.get (blobLocation p key)).isSome → (disk.get (blobLocation p key)).isSome) :
    Whole p { s with chat := { s.chat with disk := disk }, issued := issued } where
  rows := h.rows
  files blob hbl := hdi _ (fun hde => hde.blobs blob hbl rfl) (h.files blob hbl)
  keys blob hbl := by
    obtain ⟨hne, hkey, hfr⟩ := h.keys blob hbl
    exact ⟨hne, hiss hkey, hfr⟩
  own task hta key hkey := (h.own task hta key hkey).imp_right fun hkey => hiss hkey
  written u key ht := hdi key (fun hde => hde.tasks _ ht mem_cons_self) (h.written u key ht)
  distinct := h.distinct
  doomed task hta path hpa := by
    obtain ⟨key, hkey, hpa, hde⟩ := h.doomed task hta path hpa
    exact ⟨key, hiss hkey, hpa, hde.blobs, hde.tasks⟩

theorem remove (hde : Dead s skey) : Whole p { s with chat := { s.chat with
      disk := removeFile p.cwd (attachmentStoragePath p.mediaRoot skey) s.chat.disk } } := by
  refine h.files_of_disk _ (Subset.refl _) fun key hkey hso => ?_
  have hpl : blobLocation p key ≠ blobLocation p skey := by
    intro heq
    obtain rfl := blobLocation_inj.1 heq
    exact hkey hde
  rwa [removeFile, Assoc.Map.get_filter_ne, ← blobLocation, if_neg hpl]

/-- Rows of blobs may go, and come under free keys whose files are there. -/
theorem rows_of_store (hro : ∀ att ∈ store.attachments.rows, currentEncryptionVersion ≤ att.encryptionVersion ∧
      att.legacyStoragePath = "" ∧ ∃ blob ∈ store.blobs.rows, blob.storageKey = attachmentStorageKey att)
    (hblo : ∀ blob ∈ store.blobs.rows, blob ∈ s.chat.store.blobs.rows ∨
      Free p s blob.storageKey ∧ (s.chat.disk.get (blobLocation p blob.storageKey)).isSome) :
    Whole p { s with chat := { s.chat with store := store } } := by
  refine ⟨hro, fun blob hbl => ?_, fun blob hbl => ?_, h.own, h.written, h.distinct, fun task hta path hpa => ?_⟩
  · exact (hblo blob hbl).elim (h.files blob) And.right
  · rcases hblo blob hbl with hold | ⟨hfr, -⟩
    · exact h.keys blob hold
    · exact ⟨hfr.ne, hfr.issued, hfr.dead.tasks⟩
  obtain ⟨key, hiss, rfl, hde⟩ := h.doomed task hta path hpa
  refine ⟨key, hiss, rfl, fun blob hbl heq => ?_, hde.tasks⟩
  rcases hblo blob hbl with hold | ⟨hfr, -⟩
  · exact hde.blobs blob hold heq
  · exact hfr.safe task hta (heq ▸ hpa)

theorem insertAttachment {id uid name mimeType : String} {size : Int} {blob : AttachmentBlob}
    (hbl : blob ∈ s.chat.store.blobs.rows)
    (hcre : createAttachment p.keys id blob.storageKey uid name mimeType size s.chat.store = .ok store) :
    Whole p { s with chat := { s.chat with store := store } } := by
  obtain ⟨attachments, hins, hst⟩ := bind_eq_ok.1 hcre
  cases hst
  refine h.rows_of_store (fun att hatt => ?_) fun _ => .inl
  rw [(Table.insert_eq_some (inserted_eq_ok.1 hins)).2, mem_append, mem_singleton] at hatt
  rcases hatt with hatt | rfl
  · exact h.rows att hatt
  · exact ⟨Nat.le_refl _, rfl, blob, hbl, (if_pos (h.keys blob hbl).1).symm⟩

theorem of_attachments (hbl : store.blobs = s.chat.store.blobs)
    (hro : ∀ att' ∈ store.attachments.rows, ∃ att ∈ s.chat.store.attachments.rows,
      att'.encryptionVersion = att.encryptionVersion ∧ att'.legacyStoragePath = att.legacyStoragePath ∧
      attachmentStorageKey att' = attachmentStorageKey att) :
    Whole p { s with chat := { s.chat with store := store } } := by
  refine h.rows_of_store (fun att' hatt' => ?_) fun blob hblo => .inl (hbl ▸ hblo)
  obtain ⟨att, hatt, hv, hleg, hkey⟩ := hro att' hatt'
  rw [hv, hleg, hkey, hbl]
  exact h.rows att hatt

end

theorem key_ne_of_unreferenced {attIDs : List String} (hfr : unreferenced skey attIDs store)
    (hatt : att ∈ store.attachments.rows) (hst : att.id ∉ attIDs) : attachmentStorageKey att ≠ skey := by
  have hco := all_eq_true.1 hfr att hatt
  simp only [Bool.not_eq_true', Bool.and_eq_false_iff, Bool.or_eq_false_iff, beq_eq_false_iff_ne, ne_eq,
    Bool.not_eq_false', contains_iff_mem] at hco
  obtain ⟨hkey, hid⟩ := hco.resolve_right hst
  unfold attachmentStorageKey
  split
  · exact hkey
  · exact hid

/-- A deletion takes a blob only with the last attachment to it, and dooms its file. -/
theorem delete (h : Whole p s) {convID : String} {files : List Path} (hi : s.tasks[i]? = some (.delete convID))
    (hdel : deleteConversation convID p.mediaRoot s.chat.store = .ok (store, files)) :
    Whole p { s with chat := { s.chat with store := store }, tasks := replace s.tasks i [.removeFiles files] } := by
  obtain ⟨conv, _, hdel⟩ := bind_eq_ok.1 hdel
  cases hdel
  refine (h.rows_of_store (fun att hatt => ?_) fun blob hbl => .inl (mem_of_mem_filter hbl)).exchange
    [_] (fun _ => of_mem_replace) ?_ nofun (fun u key ht => ?_) fun path hpa => .inr ?_
  · obtain ⟨hrow, hst⟩ := Table.mem_deleteWhere.1 hatt
    obtain ⟨hv, hpa, blob, hbl, hkey⟩ := h.rows att hrow
    refine ⟨hv, hpa, blob, Table.mem_deleteWhere.2 ⟨hbl, fun hgo => ?_⟩, hkey⟩
    obtain ⟨orphan, horp, heq⟩ := mem_map.1 (contains_iff_mem.1 hgo)
    have hfr := (mem_filter.1 horp).2
    rw [heq, hkey] at hfr
    exact key_ne_of_unreferenced hfr hrow (fun hid => hst (contains_iff_mem.2 hid)) rfl
  · exact nodup_flatMap_replace h.distinct hi nodup_nil nofun
  · cases mem_singleton.1 ht
  · rw [flatMap_singleton] at hpa
    obtain ⟨orphan, horp, hf⟩ := mem_filterMap.1 hpa
    obtain ⟨_, hleg, blob, hbl, hkey⟩ := h.rows orphan (mem_of_mem_filter (mem_of_mem_filter horp))
    obtain ⟨_, hiss, hnob⟩ := h.keys blob hbl
    rw [hkey] at hiss hnob
    refine ⟨attachmentStorageKey orphan, hiss, ?_, ⟨fun other ho heq => ?_, hnob⟩, fun t ht => ?_⟩
    · unfold fileOf at hf
      split at hf
      · exact (some.inj hf).symm
      · rw [if_neg (not_not.2 hleg)] at hf
        cases hf
    · have hke := (Table.mem_deleteWhere.1 ho).2
      rw [heq] at hke
      exact hke (contains_iff_mem.2 (mem_map_of_mem horp))
    · rw [mem_singleton.1 ht]
      exact not_mem_nil

theorem free_of_not_issued (h : Whole p s) {c : Chat} (hblo : c.store = s.chat.store) (hne : skey ≠ "")
    (hnew : skey ∉ s.issued) : Free p { s with chat := c, issued := skey :: s.issued } skey where
  ne := hne
  issued := mem_cons_self
  dead := by
    refine ⟨fun blob hbl heq => ?_, fun t ht hkey => hnew (h.own t ht skey hkey).2⟩
    rw [hblo] at hbl
    exact hnew (heq ▸ (h.keys blob hbl).2.1)
  safe t ht hpa := by
    obtain ⟨key, hiss, hpa, -⟩ := h.doomed t ht _ hpa
    exact hnew (blobLocation_inj.1 (congrArg (Path.locate p.cwd) hpa) ▸ hiss)

theorem write (h : Whole p s) {u : Upload} {file : File} (hi : s.tasks[i]? = some (.write u))
    (hne : skey ≠ "") (hnew : skey ∉ s.issued) :
    Whole p { chat := { s.chat with disk := s.chat.disk.put (blobLocation p skey) file }
              tasks := replace s.tasks i [.insertBlob u skey], issued := skey :: s.issued } := by
  have hfr := h.free_of_not_issued (c := { s.chat with disk := s.chat.disk.put (blobLocation p skey) file }) rfl hne hnew
  have hs := h.files_of_disk (s.chat.disk.put (blobLocation p skey) file) (subset_cons_self skey _)
    fun key _ hkey => by
      rw [Assoc.Map.get_put]
      split
      · rfl
      · exact hkey
  refine hs.exchange [_] (fun _ => of_mem_replace) ?_ (fun key hkey => .inr ?_) (fun u' key ht => ?_)
    (forall_mem_nil _)
  · refine nodup_flatMap_replace h.distinct hi (nodup_singleton _) fun key hkey => .inr ?_
    rw [mem_singleton.1 hkey]
    exact hfr.dead.tasks
  · rw [mem_singleton.1 hkey]
    exact hfr
  cases mem_singleton.1 ht
  rw [Assoc.Map.get_put, if_pos rfl]
  rfl

end Whole

/-- When an attachment is stored, the blob it is to refer to is there. -/
def BlobThere (s : Scene) : Label → Prop
  | .advance i => match s.tasks[i]? with
    | some (.insertAttachment _ storageKey) => ∃ blob ∈ s.chat.store.blobs.rows, blob.storageKey = storageKey
    | _ => True
  | _ => True

instance (s : Scene) (l : Label) : Decidable (BlobThere s l) := by
  unfold BlobThere
  split
  · split <;> infer_instance
  · infer_instance

section Steps

variable {p : Plugin} {s : Scene} {next : List Task} {i : Nat} {task : Task} {u : Upload} {skey : String}
  {store : ChatStore} {c : Chat}

section

variable (h : Whole p s)
include h

theorem whole_insertBlob (hi : s.tasks[i]? = some (.insertBlob u skey))
    (hcre : createAttachmentBlob p.keys skey u.userID (u.digest p.keys) s.chat.store = .ok store) :
    Whole p { s with chat := { s.chat with store := store }
                     tasks := replace s.tasks i [.insertAttachment u skey] } := by
  have hta : Task.insertBlob u skey ∈ s.tasks := mem_of_getElem? hi
  have hkey : skey ∈ (Task.insertBlob u skey).own := mem_cons_self
  obtain ⟨hne, hiss⟩ := h.own _ hta skey hkey
  obtain ⟨blobs, hins, hst⟩ := bind_eq_ok.1 hcre
  cases hst
  have hro := (Table.insert_eq_some (inserted_eq_ok.1 hins)).2
  have hs := h.part [.insertAttachment u skey] hi (nil_sublist _) (nil_subset _) (by simp)
  refine hs.rows_of_store (fun att hatt => ?_) fun blob hbl => ?_
  · obtain ⟨hv, hpa, blob, hbl, hkey⟩ := h.rows att hatt
    exact ⟨hv, hpa, blob, hro ▸ mem_append_left _ hbl, hkey⟩
  rw [hro, mem_append, mem_singleton] at hbl
  refine hbl.imp_right ?_
  rintro rfl
  refine ⟨⟨hne, hiss, ⟨fun blob hbl heq => ?_, h.not_own_replace hi hkey rfl⟩, fun t ht hpa => ?_⟩,
    h.written u skey hta⟩
  · exact (h.keys blob hbl).2.2 _ hta (heq ▸ hkey)
  rcases of_mem_replace ht with ht | ht
  · rw [mem_singleton.1 ht] at hpa
    exact absurd hpa not_mem_nil
  obtain ⟨key, _, hpa', hde⟩ := h.doomed t ht _ hpa
  have hsa := blobLocation_inj.1 (congrArg (Path.locate p.cwd) hpa')
  exact hde.tasks _ hta (hsa ▸ hkey)

theorem whole_discard {found : Option String} (hi : s.tasks[i]? = some (.discard u skey found)) : Whole p { s with
      chat := { s.chat with disk := removeFile p.cwd (attachmentStoragePath p.mediaRoot skey) s.chat.disk }
      tasks := replace s.tasks i (found.toList.map (.insertAttachment u)) } := by
  have hkey : skey ∈ (Task.discard u skey found).own := mem_cons_self
  have hown : (found.toList.map (Task.insertAttachment u)).flatMap Task.own = [] := by cases found <;> rfl
  have hs := h.part (found.toList.map (.insertAttachment u)) hi (hown ▸ nil_sublist _)
    (by cases found <;> exact nil_subset _) (by simp)
  refine hs.remove ⟨fun blob hbl heq => ?_, h.not_own_replace hi hkey hown⟩
  exact (h.keys blob hbl).2.2 _ (mem_of_getElem? hi) (heq ▸ hkey)

theorem whole_shrink {paths paths' : List Path} (hi : s.tasks[i]? = some (.removeFiles paths))
    (hsub : paths' ⊆ paths) : Whole p { s with tasks := replace s.tasks i [.removeFiles paths'] } :=
  h.part _ hi (nil_sublist _) (by simpa [Task.doomed] using hsub) (by simp)

theorem whole_removeFiles {path : Path} {paths : List Path} (hi : s.tasks[i]? = some (.removeFiles (path :: paths))) :
    Whole p { s with chat := { s.chat with disk := removeFile p.cwd path s.chat.disk }
                     tasks := replace s.tasks i [.removeFiles paths] } := by
  have hta : Task.removeFiles (path :: paths) ∈ s.tasks := mem_of_getElem? hi
  obtain ⟨skey, _, rfl, hde⟩ := h.doomed _ hta path mem_cons_self
  refine (whole_shrink h hi (subset_cons_self _ _)).remove ⟨hde.blobs, fun t ht => ?_⟩
  rcases of_mem_replace ht with ht | ht
  · rw [mem_singleton.1 ht]
    exact not_mem_nil
  · exact hde.tasks t ht

theorem whole_fail (hi : s.tasks[i]? = some task) : Whole p { s with tasks := replace s.tasks i task.fail } := by
  cases task with
  | insertBlob u skey | findAgain u skey => exact h.part _ hi (Sublist.refl _) (nil_subset _) (by simp [Task.fail])
  | discard u skey found =>
    cases found <;> exact h.part _ hi (nil_sublist _) (nil_subset _) (by simp [Task.fail])
  | removeFiles paths => exact whole_shrink h hi fun _ => mem_of_mem_tail
  | _ => exact h.part _ hi (nil_sublist _) (nil_subset _) nofun

theorem whole_advance (hi : s.tasks[i]? = some task) (hth : BlobThere s (.advance i))
    (hadv : task.advance p s.chat = some (c, next)) :
    Whole p { s with chat := c, tasks := replace s.tasks i next } := by
  -- a request that fails, or finds nothing to do
  have hle : ∀ next : List Task, next.flatMap Task.own = [] → next.flatMap Task.doomed = [] →
      Whole p { s with tasks := replace s.tasks i next } := by
    intro next hown hdoo
    refine h.part _ hi (hown ▸ nil_sublist _) (hdoo ▸ nil_subset _) fun u key ht => ?_
    exact cons_ne_nil _ _ (flatMap_eq_nil_iff.1 hown _ ht)
  cases task with
  | write u => cases hadv
  | find u =>
    dsimp only [Task.advance] at hadv
    split at hadv <;> cases hadv <;> exact hle _ rfl rfl
  | insertBlob u skey =>
    dsimp only [Task.advance] at hadv
    split at hadv
    · next store hcre =>
      cases hadv
      exact whole_insertBlob h hi hcre
    · cases hadv
      exact whole_fail h hi
  | findAgain u skey =>
    cases hadv
    exact h.part _ hi (Sublist.refl _) (nil_subset _) (by simp)
  | discard u skey found =>
    cases hadv
    exact whole_discard h hi
  | insertAttachment u skey =>
    simp only [BlobThere, hi] at hth
    obtain ⟨blob, hbl, rfl⟩ := hth
    dsimp only [Task.advance] at hadv
    split at hadv
    · next store hcre =>
      cases hadv
      exact (hle [] rfl rfl).insertAttachment hbl hcre
    · cases hadv
      exact hle _ rfl rfl
  | delete convID =>
    dsimp only [Task.advance] at hadv
    split at hadv
    · next store files hdel =>
      cases hadv
      exact h.delete hi hdel
    · cases hadv
      exact hle _ rfl rfl
  | removeFiles paths =>
    cases paths with
    | nil =>
      cases hadv
      exact hle _ rfl rfl
    | cons path paths =>
      cases hadv
      exact whole_removeFiles h hi

theorem whole_write (hi : s.tasks[i]? = some task) (hne : skey ≠ "") (hnew : skey ∉ s.issued)
    (hw : task.writeFile p skey s.chat = some (c, next)) :
    Whole p { chat := c, tasks := replace s.tasks i next, issued := skey :: s.issued } := by
  cases task with
  | write u =>
    dsimp only [Task.writeFile] at hw
    split_ifs at hw
    · cases hw
      exact (whole_fail h hi).files_of_disk _ (subset_cons_self _ _) fun _ _ => id
    · cases hw
      exact h.write hi hne hnew
  | _ => cases hw

theorem whole_step {l : Label} {s' : Scene} (hth : BlobThere s l) (hs : step p s l = some s') : Whole p s' := by
  cases l with
  | upload u | deleteConversation convID =>
    cases hs
    exact h.add rfl rfl
  | advance i =>
    obtain ⟨task, hi, hs⟩ := bind_eq_some_iff.1 hs
    obtain ⟨⟨c, next⟩, hadv, hs⟩ := bind_eq_some_iff.1 hs
    cases hs
    exact whole_advance h hi hth hadv
  | fail i =>
    obtain ⟨task, hi, hs⟩ := bind_eq_some_iff.1 hs
    cases hs
    exact whole_fail h hi
  | write i skey =>
    obtain ⟨task, hi, hs⟩ := bind_eq_some_iff.1 hs
    obtain ⟨⟨c, next⟩, hw, hs⟩ := bind_eq_some_iff.1 hs
    obtain ⟨⟨hne, hnew⟩, hs⟩ := ite_none_right_eq_some.1 hs
    cases hs
    exact whole_write h hi hne hnew hw
  | createConversation id now uid subj =>
    dsimp only [step] at hs
    split at hs
    · next store conv hcre =>
      cases hs
      obtain ⟨convs, _, hcre⟩ := bind_eq_ok.1 hcre
      cases hcre
      exact h.of_attachments rfl fun att hatt => ⟨att, hatt, rfl, rfl, rfl⟩
    · cases hs
  | createMessage msgID now convID senderRole text attachmentIDs =>
    dsimp only [step] at hs
    split at hs
    · next store reply hcre =>
      cases hs
      obtain ⟨_, _, hatta, _, hbl, _⟩ := createMessage_eq_ok hcre
      refine h.of_attachments hbl fun att' hatt' => ?_
      rw [hatta] at hatt'
      obtain ⟨att, hatt, heq⟩ := Table.exists_of_mem_updateWhere
        (fun att => (att.encryptionVersion, att.legacyStoragePath, attachmentStorageKey att))
        Attachment.keeps_link (fun _ => rfl) hatt'
      obtain ⟨hv, hre⟩ := Prod.mk.inj heq
      obtain ⟨hleg, hkey⟩ := Prod.mk.inj hre
      exact ⟨att, hatt, hv.symm, hleg.symm, hkey.symm⟩
    · cases hs

end

end Steps

/-- In a run in which the blob of every upload is still there when its attachment is stored, every attachment has its
blob and its file, whatever is in progress. -/
theorem attachments_keep_blobs (p : Plugin) {s₀ : Scene} (hstart : Whole p s₀) {tr : List Label} {s : Scene}
    (hrun : Run (Guarded BlobThere (stepsTo (step p))) s₀ tr s) :
    ∀ att ∈ s.chat.store.attachments.rows,
      (∃ blob ∈ s.chat.store.blobs.rows, blob.storageKey = attachmentStorageKey att) ∧
        ((mediaLocation p att).bind s.chat.disk.get).isSome := by
  have hwh := hrun.invariant_of_guard (Whole p) hstart fun _ _ _ h hth hs => whole_step h hth hs
  exact fun att hatt => hwh.attachment hatt

def uploadPlugin : Plugin where
  keys := { active := "k" }
  mediaRoot := "/m"
  isAdminUser _ := false

def uploadOf (attachmentID : String) : Upload := ⟨"u", attachmentID, "x", "t", "text"⟩

def uploaded : List Label :=
  [.createConversation "c" 0 "u" "s", .upload (uploadOf "a"), .advance 0, .write 0 "1", .advance 0, .advance 0,
   .createMessage "m" 1 "c" "client" "t" ["a"]]

def uploadedBefore : List Label :=
  uploaded ++ [.upload (uploadOf "b"), .advance 0, .deleteConversation "c", .advance 0, .advance 0, .advance 0]

theorem attachments_keep_blobs_shared :
    ∃ s, Run (Guarded BlobThere (stepsTo (step uploadPlugin))) {} uploadedBefore s ∧
      s.tasks = [] ∧ s.chat.store.attachments.rows.map (·.id) = ["b"] ∧
      ∀ att ∈ s.chat.store.attachments.rows,
        (∃ blob ∈ s.chat.store.blobs.rows, blob.storageKey = attachmentStorageKey att) ∧
          ((mediaLocation uploadPlugin att).bind s.chat.disk.get).isSome := by
  exact Run.exists_of_guardedExec_imp
    (P := fun s => s.tasks = [] ∧ s.chat.store.attachments.rows.map (·.id) = ["b"]) (by decide +kernel)
    fun s hrun ⟨hta, hro⟩ => ⟨hta, hro, attachments_keep_blobs uploadPlugin whole_empty hrun⟩

/-- The second upload finds the blob, and the conversation is deleted before its attachment is stored. -/
def uploadedAfter : List Label :=
  uploaded ++ [.upload (uploadOf "b"), .advance 0, .deleteConversation "c", .advance 1, .advance 1, .advance 1, .advance 0]

/-- Then the attachment has neither blob nor file. -/
theorem attachment_without_blob :
    ∃ s, Run (stepsTo (step uploadPlugin)) {} uploadedAfter s ∧ s.tasks = [] ∧
      (s.chat.store.attachments.rows.map fun att => (att.id, attachmentStorageKey att)) = [("b", "1")] ∧
      s.chat.store.blobs.rows = [] ∧
      ∀ att ∈ s.chat.store.attachments.rows, (mediaLocation uploadPlugin att).bind s.chat.disk.get = none :=
  Run.exists_of_exec (by decide +kernel)

end Xraytool.SupportUploads
