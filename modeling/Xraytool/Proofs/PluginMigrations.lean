import Xraytool.Spec.PluginMigrations

/-! Migrations run once. A call executes the versions that are not recorded, in increasing order, and records each in
the same transaction; so what was executed is recorded and never executed again. The files of a call may be any. -/

namespace Xraytool.PluginMigrations

open Fallible List

def sqlVersions (changes : List Change) : List Int :=
  changes.filterMap fun
    | .sql version _ => some version
    | .schema _ => none

def Progress.recorded (s : Progress) : List Int := s.versions.rows.map (·.version)

def Database.recorded (db : Database) : List Int := (db.versions.getD .empty).rows.map (·.version)

theorem exists_of_mem_sqlVersions {changes : List Change} {v : Int} (h : v ∈ sqlVersions changes) :
    ∃ c ∈ changes, c.version = v := by
  obtain ⟨c, hc, hv⟩ := mem_filterMap.1 h
  cases c with
  | schema version => cases hv
  | sql version text => exact ⟨_, hc, Option.some.inj hv⟩

theorem sqlVersions_append {a b : List Change} : sqlVersions (a ++ b) = sqlVersions a ++ sqlVersions b :=
  filterMap_append

variable {call : Call} {s s' : Progress} {m : SqlMigration} {ms : List SqlMigration} {new : List Change}

/-- A version that is not recorded is executed, if there is anything to execute, and recorded. -/
structure Executed (s s' : Progress) (version : Int) (contents : String) (new : List Change) : Prop where
  fresh : version ∉ s.recorded
  recorded : s'.recorded = s.recorded ++ [version]
  changes : s'.changes = s.changes ++ new
  sql : ∀ v text, .sql v text ∈ new ↔ v = version ∧ text = contents ∧ trimSpace text ≠ ""
  version : ∀ c ∈ new, c.version = version
  once : (sqlVersions new).Nodup

theorem migrateSchema_ok {schema : List Change} (h : migrateSchema call m = .ok schema) :
    ∀ c ∈ schema, c = .schema m.version := by
  intro c hc
  unfold migrateSchema at h
  split_ifs at h
  · cases (of_issue h)
    unfold applyBuiltinPluginSchema at hc
    split_ifs at hc
    · exact mem_singleton.1 hc
    · cases hc
  · cases h
    cases hc

theorem executeSQL_ok {sql : List Change} (h : executeSQL call m = .ok sql) :
    sql = if trimSpace m.sql ≠ "" then [.sql m.version m.sql] else [] := by
  unfold executeSQL at h
  split_ifs at h ⊢
  · exact (Except.ok.inj (of_issue h)).symm
  · exact (Except.ok.inj h).symm

theorem applyMigration_ok (h : applyMigration call s m = .ok s') :
    m.version ∈ s.recorded ∧ s' = s ∨ ∃ new, Executed s s' m.version m.sql new := by
  simp only [applyMigration, bind_eq_ok, issue_eq_ok] at h
  obtain ⟨-, -, -, -, h⟩ := h
  split_ifs at h with happ
  · obtain ⟨row, hrow, hver⟩ := Table.affected_pos.1 happ
    exact .inl ⟨mem_map.2 ⟨row, hrow, beq_iff_eq.1 hver⟩, (Except.ok.inj h).symm⟩
  simp only [bind_eq_ok] at h
  obtain ⟨schema, hsch, sql, hsql, h⟩ := h
  obtain ⟨-, h⟩ := issue_eq_ok.1 h
  obtain ⟨versions, hins, rfl⟩ : ∃ versions, s.versions.insert ⟨m.version, call.now m.version⟩ = some versions ∧
      s' = ⟨versions, s.changes ++ schema ++ sql⟩ := by
    split at h
    · next versions hins => exact ⟨versions, hins, (Except.ok.inj h).symm⟩
    · cases h
  have hsch' := migrateSchema_ok hsch
  obtain ⟨hfr, hro⟩ := Table.insert_eq_some hins
  have hn : sqlVersions schema = [] := by
    refine filterMap_eq_nil_iff.2 fun c hc => ?_
    rw [hsch' c hc]
  have hex := executeSQL_ok hsql
  refine .inr ⟨schema ++ sql, fun hmem => ?_, ?_, append_assoc _ _ _, fun v text => ?_, fun c hc => ?_, ?_⟩
  · obtain ⟨row, hrow, hver⟩ := mem_map.1 hmem
    exact hfr row hrow hver
  · rw [Progress.recorded, hro, map_append]
    rfl
  · have hno : Change.sql v text ∉ schema := fun hmem => by cases hsch' _ hmem
    rw [mem_append, or_iff_right hno, hex]
    by_cases htr : trimSpace m.sql = ""
    · rw [if_neg (not_not.2 htr)]
      refine iff_of_false not_mem_nil ?_
      rintro ⟨-, rfl, hne⟩
      exact hne htr
    · rw [if_pos htr, mem_singleton, Change.sql.injEq]
      refine and_congr_right fun _ => ⟨?_, And.left⟩
      rintro rfl
      exact ⟨rfl, htr⟩
  · rcases mem_append.1 hc with hc | hc
    · rw [hsch' c hc]
      rfl
    · rw [hex] at hc
      split_ifs at hc
      · rw [mem_singleton.1 hc]
        rfl
      · cases hc
  · rw [sqlVersions_append, hn, nil_append, hex]
    split_ifs
    · exact nodup_singleton _
    · exact nodup_nil

structure Ran (s s' : Progress) (ms : List SqlMigration) (new : List Change) : Prop where
  changes : s'.changes = s.changes ++ new
  recorded : ∀ v, v ∈ s'.recorded ↔ v ∈ s.recorded ∨ ∃ m ∈ ms, m.version = v
  fresh : ∀ c ∈ new, c.version ∉ s.recorded ∧ ∃ m ∈ ms, m.version = c.version
  sql : ∀ v text, .sql v text ∈ new ↔
    v ∉ s.recorded ∧ trimSpace text ≠ "" ∧ ∃ m ∈ ms, m.version = v ∧ m.sql = text
  increasing : new.Pairwise fun a b => a.version ≤ b.version
  once : (sqlVersions new).Nodup

theorem Ran.skip (h : Ran s s' ms new) (hm : m.version ∈ s.recorded) : Ran s s' (m :: ms) new where
  changes := h.changes
  recorded v := by
    rw [h.recorded, exists_mem_cons_iff]
    constructor
    · rintro (hv | hv)
      · exact .inl hv
      · exact .inr (.inr hv)
    rintro (hv | rfl | hv)
    · exact .inl hv
    · exact .inl hm
    · exact .inr hv
  fresh c hc := by
    obtain ⟨hfr, m', hm', heq⟩ := h.fresh c hc
    exact ⟨hfr, m', mem_cons_of_mem _ hm', heq⟩
  sql v text := by
    rw [h.sql, exists_mem_cons_iff]
    refine and_congr_right fun hfr => and_congr_right fun _ => (or_iff_right ?_).symm
    rintro ⟨rfl, -⟩
    exact hfr hm
  increasing := h.increasing
  once := h.once

/-- The versions executed later are not recorded when this one is, so they are others, and by the order they are greater. -/
theorem Executed.ran {s1 : Progress} {new1 : List Change} (h1 : Executed s s1 m.version m.sql new1)
    (h : Ran s1 s' ms new) (hlt : ∀ m' ∈ ms, m.version < m'.version) : Ran s s' (m :: ms) (new1 ++ new) where
  changes := by rw [h.changes, h1.changes, append_assoc]
  recorded v := by
    rw [h.recorded, h1.recorded, mem_append, mem_singleton, exists_mem_cons_iff, or_assoc, eq_comm (a := v)]
  fresh c hc := by
    rcases mem_append.1 hc with hc | hc
    · rw [h1.version c hc]
      exact ⟨h1.fresh, m, mem_cons_self, rfl⟩
    obtain ⟨hfr, m', hm', heq⟩ := h.fresh c hc
    rw [h1.recorded, mem_append, not_or] at hfr
    exact ⟨hfr.1, m', mem_cons_of_mem _ hm', heq⟩
  sql v text := by
    rw [mem_append, h1.sql, h.sql, h1.recorded, mem_append, mem_singleton, exists_mem_cons_iff]
    constructor
    · rintro (⟨rfl, rfl, htr⟩ | ⟨hfr, htr, hm⟩)
      · exact ⟨h1.fresh, htr, .inl ⟨rfl, rfl⟩⟩
      · exact ⟨fun hmem => hfr (.inl hmem), htr, .inr hm⟩
    rintro ⟨hfr, htr, ⟨rfl, rfl⟩ | ⟨m', hm', rfl, rfl⟩⟩
    · exact .inl ⟨rfl, rfl, htr⟩
    · exact .inr ⟨not_or.2 ⟨hfr, (hlt m' hm').ne'⟩, htr, m', hm', rfl, rfl⟩
  increasing := by
    refine pairwise_append.2 ⟨?_, h.increasing, fun c hc c' hc' => ?_⟩
    · refine pairwise_of_forall_mem_list fun c hc c' hc' => ?_
      rw [h1.version c hc, h1.version c' hc']
    obtain ⟨-, m', hm', heq⟩ := h.fresh c' hc'
    rw [h1.version c hc, ← heq]
    exact (hlt m' hm').le
  once := by
    rw [sqlVersions_append]
    refine h1.once.append h.once fun v hv hv' => ?_
    obtain ⟨c, hc, rfl⟩ := exists_of_mem_sqlVersions hv
    obtain ⟨c', hc', heq⟩ := exists_of_mem_sqlVersions hv'
    refine (h.fresh c' hc').1 ?_
    rw [heq, h1.version c hc, h1.recorded]
    simp

theorem ran_foldlM (hsor : ms.Pairwise fun a b => a.version < b.version)
    (h : ms.foldlM (applyMigration call) s = .ok s') : ∃ new, Ran s s' ms new := by
  induction ms generalizing s with
  | nil =>
    cases h
    exact ⟨[], by simp, by simp, by simp, by simp, .nil, nodup_nil⟩
  | cons m ms ih =>
    obtain ⟨hlt, hsor⟩ := pairwise_cons.1 hsor
    obtain ⟨s1, h1, h⟩ := bind_eq_ok.1 h
    obtain ⟨new, hnew⟩ := ih hsor h
    rcases applyMigration_ok h1 with ⟨hm, rfl⟩ | ⟨new1, hnew1⟩
    · exact ⟨new, hnew.skip hm⟩
    · exact ⟨new1 ++ new, hnew1.ran hnew hlt⟩

/-- The migration is in a file of the call. -/
def SqlMigration.InFile (m : SqlMigration) (entry : DirEntry) : Prop :=
  ∃ digits ∈ entry.versionText, parseInt digits = some m.version ∧ entry.contents = m.sql

structure FilesRead (ents : List DirEntry) (acc ms : List SqlMigration) : Prop where
  kept : acc ⊆ ms
  files : ∀ entry ∈ ents, ∀ digits ∈ entry.versionText, ∃ m ∈ ms, m.InFile entry
  source : ∀ m ∈ ms, m ∈ acc ∨ ∃ entry ∈ ents, m.InFile entry
  distinct : (acc.map (·.version)).Nodup → (ms.map (·.version)).Nodup

theorem readEntries_ok {ents : List DirEntry} {acc : List SqlMigration} (h : readEntries call ents acc = .ok ms) :
    FilesRead ents acc ms := by
  induction ents generalizing acc with
  | nil =>
    cases h
    exact ⟨Subset.refl _, nofun, fun m hm => .inl hm, id⟩
  | cons entry ents ih =>
    rw [readEntries] at h
    split at h
    · next hn =>
      have hre := ih h
      exact ⟨hre.kept, by simpa [hn] using hre.files,
        fun m hm => (hre.source m hm).imp_right (exists_mem_cons_of_exists ·), hre.distinct⟩
    next digits hdig =>
    split at h
    · cases h
    next version hver =>
    split at h
    · cases h
    next hnew =>
    obtain ⟨-, -, h⟩ := bind_eq_ok.1 h
    have hre := ih h
    have hin : SqlMigration.InFile ⟨version, entry.name, entry.contents⟩ entry :=
      ⟨digits, hdig, (Option.filter_eq_some_iff.1 hver).1, rfl⟩
    refine ⟨fun m hm => hre.kept (mem_append_left _ hm), ?_, fun m hm => ?_, fun hdis => hre.distinct ?_⟩
    · exact forall_mem_cons.2 ⟨fun _ _ => ⟨_, hre.kept (mem_append_right _ mem_cons_self), hin⟩, hre.files⟩
    · rcases hre.source m hm with hacc | ⟨entry', hen, hfi⟩
      · rcases mem_append.1 hacc with hacc | hone
        · exact .inl hacc
        · exact .inr ⟨entry, mem_cons_self, mem_singleton.1 hone ▸ hin⟩
      · exact .inr ⟨entry', mem_cons_of_mem _ hen, hfi⟩
    · rw [map_append, map_singleton]
      refine hdis.append (nodup_singleton _) (disjoint_singleton.2 fun hmem => ?_)
      obtain ⟨m, hm, hver⟩ := mem_map.1 hmem
      exact find?_eq_none.1 hnew m hm (beq_iff_eq.2 hver)

theorem readSQLMigrations_ok (h : readSQLMigrations call = .ok ms) : (ms.Pairwise fun a b => a.version < b.version) ∧
      (∀ entry ∈ call.entries, ∀ digits ∈ entry.versionText, ∃ m ∈ ms, m.InFile entry) ∧
      ∀ m ∈ ms, ∃ entry ∈ call.entries, m.InFile entry := by
  obtain ⟨-, -, h⟩ := bind_eq_ok.1 h
  obtain ⟨read, hr, h⟩ := bind_eq_ok.1 h
  split_ifs at h
  cases h
  have hre := readEntries_ok hr
  refine ⟨?_, fun entry hen digits hdig => ?_, fun m hm => ?_⟩
  · have hle : (read.mergeSort fun a b => decide (a.version ≤ b.version)).Pairwise fun a b =>
        decide (a.version ≤ b.version) := by
      refine pairwise_mergeSort (fun a b c hab hbc => ?_) (fun a b => ?_) read
      · simp only [decide_eq_true_eq] at hab hbc ⊢
        omega
      · simp only [Bool.or_eq_true, decide_eq_true_eq]
        omega
    have hne : (read.mergeSort fun a b => decide (a.version ≤ b.version)).Pairwise fun a b => a.version ≠ b.version :=
      pairwise_map.1 (((mergeSort_perm read _).map _).nodup_iff.2 (hre.distinct nodup_nil))
    exact (hle.and hne).imp fun hab => lt_of_le_of_ne (of_decide_eq_true hab.1) hab.2
  · obtain ⟨m, hm, hfi⟩ := hre.files entry hen digits hdig
    exact ⟨m, mem_mergeSort.2 hm, hfi⟩
  · exact (hre.source m (mem_mergeSort.1 hm)).resolve_left not_mem_nil

variable {db db' : Database}

theorem runMigrations_ok (h : runMigrations call db = .ok db') :
    ∃ ms new, readSQLMigrations call = .ok ms ∧ db'.changes = db.changes ++ new ∧
      (∀ v, v ∈ db'.recorded ↔ v ∈ db.recorded ∨ ∃ m ∈ ms, m.version = v) ∧
      (∀ c ∈ new, c.version ∉ db.recorded ∧ c.version ∈ db'.recorded) ∧
      (∀ v text, .sql v text ∈ new ↔
        v ∉ db.recorded ∧ trimSpace text ≠ "" ∧ ∃ m ∈ ms, m.version = v ∧ m.sql = text) ∧
      (new.Pairwise fun a b => a.version ≤ b.version) ∧ (sqlVersions new).Nodup := by
  unfold runMigrations at h
  split_ifs at h
  simp only [bind_eq_ok, mapError_eq_ok, transaction_eq_ok] at h
  obtain ⟨-, -, ms, hr, -, -, -, -, s, hfo, h⟩ := h
  cases h
  obtain ⟨new, hnew⟩ := ran_foldlM (readSQLMigrations_ok hr).1 hfo
  refine ⟨ms, new, hr, hnew.changes, hnew.recorded, fun c hc => ?_, hnew.sql, hnew.increasing, hnew.once⟩
  obtain ⟨hfr, hf⟩ := hnew.fresh c hc
  exact ⟨hfr, (hnew.recorded _).2 (.inr hf)⟩

/-- What was executed is recorded, and was executed once. -/
structure Once (db : Database) : Prop where
  nodup : (sqlVersions db.changes).Nodup
  recorded : ∀ v ∈ sqlVersions db.changes, v ∈ db.recorded

theorem Once.called (h : Once db) (call : Call) : Once (called db call) := by
  rcases attempt_cases with hok | hsa
  · obtain ⟨ms, new, -, hcha, hrec, hfr, -, -, hnew⟩ := runMigrations_ok hok
    have hvis (v : Int) (hv : v ∈ sqlVersions new) : v ∉ db.recorded ∧ v ∈ (PluginMigrations.called db call).recorded := by
      obtain ⟨c, hc, rfl⟩ := exists_of_mem_sqlVersions hv
      exact hfr c hc
    constructor
    · rw [PluginMigrations.called, hcha, sqlVersions_append]
      exact h.nodup.append hnew fun v hv hv' => (hvis v hv').1 (h.recorded v hv)
    intro v hv
    rw [PluginMigrations.called, hcha, sqlVersions_append, mem_append] at hv
    rcases hv with hv | hv
    · exact (hrec v).2 (.inl (h.recorded v hv))
    · exact (hvis v hv).2
  · rw [PluginMigrations.called, hsa]
    exact h

theorem once_of_calls {versions : Option (Table VersionRow VersionRow.Clash)} {calls : List Call} :
    Once (calls.foldl called { versions := versions }) := by
  induction calls using reverseRecOn with
  | nil => exact ⟨nodup_nil, nofun⟩
  | append_singleton calls call ih =>
    rw [foldl_append]
    exact ih.called call

/-- After any calls, of which any operation may have failed: no version's SQL was committed twice, and the next call
leaves the database as it was or returns without an error. Then it has recorded every version of its files, and executed,
in increasing order, exactly the SQL of those that were not recorded. -/
theorem migrations_run_once (versions : Option (Table VersionRow VersionRow.Clash)) (calls : List Call) (call : Call) :
    (sqlVersions (calls.foldl called { versions := versions }).changes).Nodup ∧
      match runMigrations call (calls.foldl called { versions := versions }) with
      | .error _ => called (calls.foldl called { versions := versions }) call = calls.foldl called { versions := versions }
      | .ok db => called (calls.foldl called { versions := versions }) call = db ∧
          (∀ entry ∈ call.entries, ∀ digits ∈ entry.versionText, ∃ v ∈ db.recorded, parseInt digits = some v) ∧
          ∃ new, db.changes = (calls.foldl called { versions := versions }).changes ++ new ∧
            (∀ v text, .sql v text ∈ new ↔ v ∉ (calls.foldl called { versions := versions }).recorded ∧
              trimSpace text ≠ "" ∧ ∃ entry ∈ call.entries, ∃ digits ∈ entry.versionText,
                parseInt digits = some v ∧ entry.contents = text) ∧
            (new.Pairwise fun a b => a.version ≤ b.version) := by
  refine ⟨once_of_calls.nodup, ?_⟩
  split
  · next e her => rw [called, her, attempt]
  next db hok =>
  obtain ⟨ms, new, hr, hcha, hrec, -, hsql, hsor, -⟩ := runMigrations_ok hok
  obtain ⟨-, hfiles, hsource⟩ := readSQLMigrations_ok hr
  refine ⟨by rw [called, hok, attempt], fun entry hen digits hdig => ?_, new, hcha, fun v text => ?_, hsor⟩
  · obtain ⟨m, hm, digits', hdig', hver, -⟩ := hfiles entry hen digits hdig
    cases Option.mem_unique hdig hdig'
    exact ⟨m.version, (hrec _).2 (.inr ⟨m, hm, rfl⟩), hver⟩
  rw [hsql]
  refine and_congr_right fun _ => and_congr_right fun _ => ⟨?_, ?_⟩
  · rintro ⟨m, hm, rfl, rfl⟩
    exact hsource m hm
  · rintro ⟨entry, hen, digits, hdig, hver, rfl⟩
    obtain ⟨m, hm, digits', hdig', hver', hcon⟩ := hfiles entry hen digits hdig
    cases Option.mem_unique hdig hdig'
    exact ⟨m, hm, Option.some.inj (hver'.symm.trans hver), hcon.symm⟩

end Xraytool.PluginMigrations
