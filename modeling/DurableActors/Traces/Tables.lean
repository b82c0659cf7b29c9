import DurableActors.Traces.Store

/-!
# What writes do to a project's table

Either store keeps, for each project, a log: rows at growing positions up to a head, of which a
part was pruned.  The readers of a log depend on the relation {lit}`Follows` alone.

Main results:

- Theorem {lit}`Store.Reachable.formed`: every table of a reachable store is well formed.
- Theorem {lit}`Store.Step.follows`: a write extends the log of every project, and what it removes
  is at or below the pruned mark.
- Theorem {lit}`Store.Orderly.swept`: if the clock readings of a project's rows increase with their
  positions, whatever a write removes moves the pruned mark.
-/

namespace DurableActors
namespace Traces

variable {ν : Type}

/-! ## Logs -/

/-- A well-formed table. -/
structure Table.Formed (table : Table ν) : Prop where
  ascending : table.records.Pairwise fun a b => a.sequence < b.sequence
  positions : ∀ record ∈ table.records,
    0 < record.sequence ∧ record.sequence ≤ table.metadata.head
  pruned : table.metadata.pruned ≤ table.metadata.head
  head : table.metadata.head ≤ maxI64

/-- The later table of a log. -/
structure Follows (before after : Table ν) : Prop where
  generation : after.metadata.generation = before.metadata.generation
  head : before.metadata.head ≤ after.metadata.head
  pruned : before.metadata.pruned ≤ after.metadata.pruned
  kept : ∀ record ∈ after.records, record.sequence ≤ before.metadata.head →
    record ∈ before.records
  removed : ∀ record ∈ before.records, record ∉ after.records →
    record.sequence ≤ after.metadata.pruned

/-- Whatever was removed moved the pruned mark. -/
def Swept (before after : Table ν) : Prop :=
  ∀ record ∈ before.records, record ∉ after.records →
    before.metadata.pruned < after.metadata.pruned

theorem Follows.refl (table : Table ν) : Follows table table where
  generation := rfl
  head := Nat.le_refl _
  pruned := Nat.le_refl _
  kept := fun _ hmem _ => hmem
  removed := fun _ hmem hnot => absurd hmem hnot

theorem Follows.trans {first second third : Table ν} (h : Follows first second)
    (h' : Follows second third) : Follows first third where
  generation := h'.generation.trans h.generation
  head := Nat.le_trans h.head h'.head
  pruned := Nat.le_trans h.pruned h'.pruned
  kept := fun record hmem hle =>
    h.kept record (h'.kept record hmem (Nat.le_trans hle h.head)) hle
  removed := by
    intro record hmem hnot
    by_cases hmid : record ∈ second.records
    · exact h'.removed record hmid hnot
    · exact Nat.le_trans (h.removed record hmem hmid) h'.pruned

theorem Swept.trans {first second third : Table ν} (h : Swept first second)
    (hfollows : Follows first second) (h' : Swept second third) (hfollows' : Follows second third) :
    Swept first third := by
  intro record hmem hnot
  by_cases hmid : record ∈ second.records
  · exact Nat.lt_of_le_of_lt hfollows.pruned (h' record hmid hnot)
  · exact Nat.lt_of_lt_of_le (h record hmem hmid) hfollows'.pruned

/-- The largest of a list and a start. -/
theorem foldl_max_le {n m : Nat} {values : List Nat} :
    values.foldl max n ≤ m ↔ n ≤ m ∧ ∀ value ∈ values, value ≤ m := by
  induction values generalizing n with
  | nil => simp
  | cons value rest ih =>
    rw [List.foldl_cons, ih]
    simp only [max_le_iff, List.forall_mem_cons, and_assoc]

theorem foldl_max_lt {n m : Nat} {values : List Nat} :
    values.foldl max n < m ↔ n < m ∧ ∀ value ∈ values, value < m := by
  cases m with
  | zero => simp
  | succ m => simpa only [Nat.lt_succ_iff] using foldl_max_le

theorem le_foldl_max {n : Nat} {values : List Nat} : n ≤ values.foldl max n :=
  (foldl_max_le.mp (Nat.le_refl _)).1

theorem mem_le_foldl_max {n value : Nat} {values : List Nat} (h : value ∈ values) :
    value ≤ values.foldl max n :=
  (foldl_max_le.mp (Nat.le_refl _)).2 value h

/-! ## SQLite -/

/-- A consistent SQLite store. -/
structure Sqlite.Sound (store : Sqlite ν) : Prop where
  ascending : store.traces.Pairwise fun a b => a.sequence < b.sequence
  positions : ∀ record ∈ store.traces,
    store.pruned < record.sequence ∧ record.sequence ≤ store.sequence
  marks : store.pruned ≤ store.sequence ∧ store.sequence ≤ maxI64
  rows : ∀ record ∈ store.traces, record.event.trace.projectId ≠ "" →
    ∃ project, store.projects record.event.trace.projectId = some project ∧
      record.sequence ≤ project.head
  projects : ∀ projectId project, store.projects projectId = some project →
    project.pruned ≤ project.head ∧ project.head ≤ store.sequence ∧ project.pruned ≤ store.pruned
  unnamed : store.projects "" = none

namespace Sqlite

variable {store : Sqlite ν} {projectId : String}

theorem table_head : (store.table projectId).metadata.head =
    (store.projects projectId).elim 0 SqliteProject.head := by
  cases hproject : store.projects projectId <;> simp [table, hproject]

theorem table_pruned : (store.table projectId).metadata.pruned =
    (store.projects projectId).elim 0 SqliteProject.pruned := by
  cases hproject : store.projects projectId <;> simp [table, hproject]

/-- The marks of a project. -/
theorem table_metadata_le (h : store.Sound) :
    (store.table projectId).metadata.pruned ≤ (store.table projectId).metadata.head ∧
      (store.table projectId).metadata.head ≤ store.sequence ∧
      (store.table projectId).metadata.pruned ≤ store.pruned := by
  rw [table_head, table_pruned]
  cases hproject : store.projects projectId with
  | none => simp
  | some project => exact h.projects projectId project hproject

@[simp] theorem mem_table {record : TraceRecord ν} :
    record ∈ (store.table projectId).records ↔
      record ∈ store.traces ∧ record.event.trace.projectId = projectId := by
  simp [table]

theorem table_formed (h : store.Sound) (hid : projectId ≠ "") :
    (store.table projectId).Formed where
  ascending := h.ascending.filter _
  positions := by
    intro record hmem
    obtain ⟨hrow, rfl⟩ := mem_table.mp hmem
    obtain ⟨project, hproject, hle⟩ := h.rows record hrow hid
    exact ⟨Nat.zero_lt_of_lt (h.positions record hrow).1, by simpa [table, hproject] using hle⟩
  pruned := (table_metadata_le h).1
  head := Nat.le_trans (table_metadata_le h).2.1 h.marks.2

/-- The head that an insert writes is the position. -/
theorem projectInsert_head (position : Nat) (project : Option SqliteProject) :
    (projectInsert position project).head = position := by
  cases project <;> rfl

theorem projectInsert_pruned (position : Nat) (project : Option SqliteProject) :
    (projectInsert position project).pruned = project.elim 0 SqliteProject.pruned := by
  cases project <;> rfl

/-- What an insert writes, unless the event is known. -/
theorem insert_cases (store : Sqlite ν) (position : Nat) (event : TraceEvent ν) :
    store.insert position event = store ∨
      ∃ projects, store.insert position event =
          { store with
            sequence := position
            traces := store.traces ++ [⟨position, event⟩]
            projects } ∧
        ∀ projectId, projects projectId =
          if event.trace.projectId = projectId ∧ projectId ≠ "" then
            some (projectInsert position (store.projects projectId))
          else store.projects projectId := by
  unfold Sqlite.insert
  split
  · exact .inl rfl
  · refine .inr ⟨_, rfl, fun projectId => ?_⟩
    by_cases hempty : event.trace.projectId = ""
    · rw [if_pos hempty, if_neg]
      rintro ⟨heq, hne⟩
      exact hne (heq ▸ hempty)
    · rw [if_neg hempty]
      by_cases heq : event.trace.projectId = projectId
      · subst heq
        simp [hempty]
      · rw [Function.update_of_ne (Ne.symm heq), if_neg (fun h => heq h.1)]

theorem insert_sequence_le {position : Nat} {event : TraceEvent ν}
    (h : store.sequence < position) : (store.insert position event).sequence ≤ position := by
  rcases insert_cases store position event with heq | ⟨projects, heq, -⟩
  · rw [heq]
    exact Nat.le_of_lt h
  · rw [heq]

/-- One insert keeps the store sound. -/
theorem Sound.insert (h : store.Sound) {position : Nat} {event : TraceEvent ν}
    (hposition : store.sequence < position) (hmax : position ≤ maxI64) :
    (store.insert position event).Sound := by
  rcases insert_cases store position event with heq | ⟨projects, heq, hprojects⟩
  · rw [heq]
    exact h
  rw [heq]
  have hbefore : ∀ record ∈ store.traces, record.sequence < position := fun record hmem =>
    Nat.lt_of_le_of_lt (h.positions record hmem).2 hposition
  have hpruned := Nat.lt_of_le_of_lt h.marks.1 hposition
  constructor
  · refine List.pairwise_append.mpr ⟨h.ascending, List.pairwise_singleton _ _, ?_⟩
    simpa using hbefore
  · intro record hmem
    rcases List.mem_append.mp hmem with hmem | hmem
    · exact ⟨(h.positions record hmem).1, Nat.le_of_lt (hbefore record hmem)⟩
    · cases List.mem_singleton.mp hmem
      exact ⟨hpruned, Nat.le_refl _⟩
  · exact ⟨Nat.le_of_lt hpruned, hmax⟩
  · intro record hmem hid
    simp only [hprojects]
    split
    · refine ⟨_, rfl, ?_⟩
      rw [projectInsert_head]
      rcases List.mem_append.mp hmem with hmem | hmem
      · exact Nat.le_of_lt (hbefore record hmem)
      · cases List.mem_singleton.mp hmem
        exact Nat.le_refl _
    · rename_i hother
      rcases List.mem_append.mp hmem with hmem | hmem
      · exact h.rows record hmem hid
      · cases List.mem_singleton.mp hmem
        exact absurd ⟨rfl, hid⟩ hother
  · intro projectId project hproject
    simp only [hprojects] at hproject
    split at hproject
    · cases hproject
      rw [projectInsert_head, projectInsert_pruned]
      cases hold : store.projects projectId with
      | none => simp
      | some old =>
        have := h.projects projectId old hold
        simp only [Option.elim_some]
        omega
    · have := h.projects projectId project hproject
      simp only
      omega
  · simp only [hprojects]
    simpa using h.unnamed

/-- One insert extends the log of every project, and removes nothing. -/
theorem follows_insert (h : store.Sound) (projectId : String) {position : Nat}
    (event : TraceEvent ν) (hposition : store.sequence < position) :
    Follows (store.table projectId) ((store.insert position event).table projectId) ∧
      (store.table projectId).records ⊆
        ((store.insert position event).table projectId).records := by
  rcases insert_cases store position event with heq | ⟨projects, heq, hprojects⟩
  · rw [heq]
    exact ⟨Follows.refl _, List.Subset.refl _⟩
  rw [heq]
  have hsub : ∀ record ∈ (store.table projectId).records, record ∈ (Sqlite.table { store with
      sequence := position
      traces := store.traces ++ [⟨position, event⟩]
      projects } projectId).records := by
    intro record hmem
    rw [mem_table] at hmem ⊢
    exact ⟨List.mem_append_left _ hmem.1, hmem.2⟩
  have hhead : (store.table projectId).metadata.head < position :=
    Nat.lt_of_le_of_lt (table_metadata_le h).2.1 hposition
  refine ⟨⟨rfl, ?_, ?_, ?_, fun record hmem hnot => absurd (hsub record hmem) hnot⟩, hsub⟩
  · rw [table_head] at hhead ⊢
    rw [table_head]
    simp only [hprojects]
    split
    · rw [Option.elim_some, projectInsert_head]
      exact Nat.le_of_lt hhead
    · exact Nat.le_refl _
  · rw [table_pruned, table_pruned]
    simp only [hprojects]
    split
    · rw [Option.elim_some, projectInsert_pruned]
    · exact Nat.le_refl _
  · intro record hmem hle
    rw [mem_table] at hmem ⊢
    rcases List.mem_append.mp hmem.1 with hold | hnew
    · exact ⟨hold, hmem.2⟩
    · cases List.mem_singleton.mp hnew
      exact absurd hhead (Nat.not_lt.mpr hle)

/-- A batch of inserts keeps the store sound and extends the logs. -/
theorem Sound.insertEvents {batch : List (Nat × TraceEvent ν)} {next : Sqlite ν} (h : store.Sound)
    (hbatch : Allocated store.sequence (batch.map Prod.fst))
    (hnext : store.insertEvents batch = .ok next) :
    next.Sound ∧ ∀ projectId, Follows (store.table projectId) (next.table projectId) ∧
      (store.table projectId).records ⊆ (next.table projectId).records := by
  induction batch generalizing store with
  | nil =>
    cases hnext
    exact ⟨h, fun _ => ⟨Follows.refl _, List.Subset.refl _⟩⟩
  | cons first rest ih =>
    obtain ⟨position, event⟩ := first
    rw [Sqlite.insertEvents] at hnext
    split at hnext
    · cases hnext
    obtain ⟨hafter, hrest⟩ := List.pairwise_cons.mp hbatch.1
    obtain ⟨⟨hposition, hmax⟩, hpositions⟩ := List.forall_mem_cons.mp hbatch.2
    have hallocated : Allocated (store.insert position event).sequence (rest.map Prod.fst) := by
      refine ⟨hrest, fun other hother => ⟨?_, (hpositions other hother).2⟩⟩
      exact Nat.lt_of_le_of_lt (insert_sequence_le hposition) (hafter other hother)
    obtain ⟨hsound, hfollows⟩ := ih (h.insert hposition hmax) hallocated hnext
    refine ⟨hsound, fun projectId => ?_⟩
    have hinsert := follows_insert h projectId event hposition
    exact ⟨hinsert.1.trans (hfollows projectId).1,
      List.Subset.trans hinsert.2 (hfollows projectId).2⟩

/-- What the delete trigger leaves of a project. -/
theorem foldl_projectDelete (removed : List (TraceRecord ν))
    (projects : String → Option SqliteProject) (projectId : String) :
    removed.foldl projectDelete projects projectId = (projects projectId).map fun project =>
      { project with
        pruned := ((removed.filter (·.event.trace.projectId = projectId)).map
          TraceRecord.sequence).foldl max project.pruned } := by
  induction removed generalizing projects with
  | nil => simp
  | cons record rest ih =>
    rw [List.foldl_cons, ih, projectDelete]
    by_cases hid : record.event.trace.projectId = projectId
    · subst hid
      simp [Option.map_map, Function.comp_def]
    · rw [Function.update_of_ne (Ne.symm hid), List.filter_cons, if_neg (by simpa using hid)]

theorem pruned_le_mark : store.pruned ≤ store.mark := Nat.le_max_left _ _

theorem mark_le (h : store.Sound) : store.mark ≤ store.sequence := by
  refine Nat.max_le.mpr ⟨h.marks.1, ?_⟩
  cases hrow : store.traces.reverse[store.retention]? with
  | none => exact Nat.zero_le _
  | some record =>
    have hmem : record ∈ store.traces := List.mem_reverse.mp (List.mem_of_getElem? hrow)
    exact (h.positions record hmem).2

/-- A project after pruning. -/
theorem prune_projects (projectId : String) :
    store.prune.projects projectId = (store.projects projectId).map fun project =>
      { project with
        pruned := ((store.traces.filter (·.sequence ≤ store.mark)).filter
          (·.event.trace.projectId = projectId) |>.map TraceRecord.sequence).foldl max
            project.pruned } :=
  foldl_projectDelete _ _ _

theorem mem_prune {record : TraceRecord ν} :
    record ∈ store.prune.traces ↔ record ∈ store.traces ∧ store.mark < record.sequence := by
  simp [Sqlite.prune]

/-- Pruning keeps the store sound. -/
theorem Sound.prune (h : store.Sound) : store.prune.Sound where
  ascending := h.ascending.filter _
  positions := fun record hmem =>
    ⟨(mem_prune.mp hmem).2, (h.positions record (mem_prune.mp hmem).1).2⟩
  marks := ⟨mark_le h, h.marks.2⟩
  rows := by
    intro record hmem hid
    obtain ⟨project, hproject, hle⟩ := h.rows record (mem_prune.mp hmem).1 hid
    rw [prune_projects, hproject]
    exact ⟨_, rfl, hle⟩
  projects := by
    intro projectId project hproject
    rw [prune_projects] at hproject
    obtain ⟨old, hold, rfl⟩ := Option.map_eq_some_iff.mp hproject
    obtain ⟨hpruned, hhead, hmark⟩ := h.projects projectId old hold
    refine ⟨?_, hhead, ?_⟩
    · refine foldl_max_le.mpr ⟨hpruned, ?_⟩
      simp only [List.mem_map, List.mem_filter, decide_eq_true_eq]
      rintro _ ⟨record, ⟨⟨hmem, -⟩, rfl⟩, rfl⟩
      have hid : record.event.trace.projectId ≠ "" := by
        intro hempty
        rw [hempty, h.unnamed] at hold
        cases hold
      obtain ⟨project, hproject, hle⟩ := h.rows record hmem hid
      cases hold.symm.trans hproject
      exact hle
    · refine foldl_max_le.mpr ⟨Nat.le_trans hmark pruned_le_mark, ?_⟩
      simp only [List.mem_map, List.mem_filter, decide_eq_true_eq]
      rintro _ ⟨record, ⟨⟨-, hle⟩, -⟩, rfl⟩
      exact hle
  unnamed := by rw [prune_projects, h.unnamed, Option.map_none]

/-- What pruning removes is at or below the new mark of its project, and above the old one. -/
theorem prune_removed (h : store.Sound) (hid : projectId ≠ "") {record : TraceRecord ν}
    (hmem : record ∈ (store.table projectId).records)
    (hnot : record ∉ (store.prune.table projectId).records) :
    (store.table projectId).metadata.pruned < record.sequence ∧
      record.sequence ≤ (store.prune.table projectId).metadata.pruned := by
  obtain ⟨hrow, rfl⟩ := mem_table.mp hmem
  have hle : record.sequence ≤ store.mark := by
    by_contra hlt
    exact hnot (mem_table.mpr ⟨mem_prune.mpr ⟨hrow, Nat.lt_of_not_le hlt⟩, rfl⟩)
  obtain ⟨project, hproject, -⟩ := h.rows record hrow hid
  refine ⟨Nat.lt_of_le_of_lt (table_metadata_le h).2.2 (h.positions record hrow).1, ?_⟩
  rw [table_pruned, prune_projects, hproject]
  refine mem_le_foldl_max (List.mem_map.mpr ⟨record, ?_, rfl⟩)
  simp [hrow, hle]

/-- Pruning extends the logs, and moves the mark of a project that loses rows. -/
theorem follows_prune (h : store.Sound) (hid : projectId ≠ "") :
    Follows (store.table projectId) (store.prune.table projectId) ∧
      Swept (store.table projectId) (store.prune.table projectId) := by
  refine ⟨⟨rfl, ?_, ?_, ?_, fun record hmem hnot => (prune_removed h hid hmem hnot).2⟩,
    fun record hmem hnot => ?_⟩
  · rw [table_head, table_head, prune_projects]
    cases store.projects projectId <;> exact Nat.le_refl _
  · rw [table_pruned, table_pruned, prune_projects]
    cases store.projects projectId
    · exact Nat.le_refl _
    · exact le_foldl_max
  · intro record hmem _
    rw [mem_table] at hmem ⊢
    exact ⟨(mem_prune.mp hmem.1).1, hmem.2⟩
  · exact Nat.lt_of_lt_of_le (prune_removed h hid hmem hnot).1 (prune_removed h hid hmem hnot).2

/-- An append inserts its events and then prunes.  The count of all events, which it updates in
between, is in no project's table. -/
theorem append_eq_ok {batch : List (Nat × TraceEvent ν)} {next : Sqlite ν}
    (h : store.append batch = .ok next) :
    ∃ inserted, store.insertEvents batch = .ok inserted ∧ next.traces ⊆ inserted.traces ∧
      (inserted.Sound → next.Sound ∧ ∀ projectId, projectId ≠ "" →
        Follows (inserted.table projectId) (next.table projectId) ∧
          Swept (inserted.table projectId) (next.table projectId)) := by
  unfold Sqlite.append at h
  cases hinserted : store.insertEvents batch with
  | error error => simp [hinserted] at h
  | ok inserted =>
    rw [hinserted] at h
    cases h
    refine ⟨inserted, rfl, fun record hmem => (mem_prune.mp hmem).1, fun hsound => ?_⟩
    have hcounted : Sound { inserted with
        total := inserted.total + (inserted.traces.length - store.traces.length) } :=
      { hsound with }
    refine ⟨hcounted.prune, fun projectId hid => ?_⟩
    have hprune := follows_prune hcounted hid
    exact hprune

/-- An append keeps the store sound, extends the logs, and moves the mark of a project that loses
rows. -/
theorem Sound.append {batch : List (Nat × TraceEvent ν)} {next : Sqlite ν} (h : store.Sound)
    (hbatch : Allocated store.sequence (batch.map Prod.fst))
    (hnext : store.append batch = .ok next) :
    next.Sound ∧ ∀ projectId, projectId ≠ "" →
      Follows (store.table projectId) (next.table projectId) ∧
        Swept (store.table projectId) (next.table projectId) := by
  obtain ⟨inserted, hinserted, -, hpruned⟩ := append_eq_ok hnext
  obtain ⟨hsound, hfollows⟩ := h.insertEvents hbatch hinserted
  refine ⟨(hpruned hsound).1, fun projectId hid => ?_⟩
  obtain ⟨hinsert, hsub⟩ := hfollows projectId
  obtain ⟨hprune, hswept⟩ := (hpruned hsound).2 projectId hid
  exact ⟨hinsert.trans hprune,
    Swept.trans (fun record hmem hnot => absurd (hsub hmem) hnot) hinsert hswept hprune⟩

end Sqlite

/-! ## Postgres -/

/-- A consistent Postgres store. -/
structure Postgres.Sound (store : Postgres ν) : Prop where
  ascending : ∀ projectId, (store.traces.filter (·.projectId = projectId)).Pairwise
    fun a b => a.record.sequence < b.record.sequence
  rows : ∀ row ∈ store.traces, ∃ project, store.projects row.projectId = some project ∧
    0 < row.record.sequence ∧ row.record.sequence ≤ project.head
  projects : ∀ projectId project, store.projects projectId = some project →
    project.pruned ≤ project.head ∧ project.head ≤ maxI64

namespace Postgres

variable {store : Postgres ν} {projectId : String}

theorem table_head : (store.table projectId).metadata.head =
    ((store.projects projectId).getD {}).head := rfl

theorem table_pruned : (store.table projectId).metadata.pruned =
    ((store.projects projectId).getD {}).pruned := rfl

theorem mem_table {record : TraceRecord ν} :
    record ∈ (store.table projectId).records ↔
      ∃ row ∈ store.traces, row.projectId = projectId ∧ row.record = record := by
  simp [table, and_assoc]

theorem table_formed (h : store.Sound) (projectId : String) : (store.table projectId).Formed := by
  have hmarks : ((store.projects projectId).getD {}).pruned ≤
      ((store.projects projectId).getD {}).head ∧
      ((store.projects projectId).getD {}).head ≤ maxI64 := by
    cases hproject : store.projects projectId with
    | none => exact ⟨Nat.le_refl _, Nat.zero_le _⟩
    | some project => exact h.projects projectId project hproject
  refine ⟨List.pairwise_map.mpr (h.ascending projectId), ?_, hmarks.1, hmarks.2⟩
  intro record hmem
  obtain ⟨row, hrow, rfl, rfl⟩ := mem_table.mp hmem
  obtain ⟨project, hproject, hpositive, hle⟩ := h.rows row hrow
  exact ⟨hpositive, by simpa [table_head, hproject] using hle⟩

/-- What an insert adds: rows at growing positions, up to the new head. -/
theorem insertRows_eq (events : List (TraceEvent ν × Nat)) (traces : List (PostgresRow ν))
    {head position : Nat} (hhead : head < position) :
    ∃ added, (insertRows traces head position events).1 = traces ++ added ∧
      added.Pairwise (fun a b => a.record.sequence < b.record.sequence) ∧
      head ≤ (insertRows traces head position events).2 ∧
      (insertRows traces head position events).2 < position + events.length ∧
      ∀ row ∈ added, (∃ event ∈ events, event.1 = row.record.event) ∧
        position ≤ row.record.sequence ∧
        row.record.sequence ≤ (insertRows traces head position events).2 := by
  induction events generalizing traces head position with
  | nil => exact ⟨[], by simp [insertRows], .nil, Nat.le_refl _, hhead, by simp⟩
  | cons first rest ih =>
    obtain ⟨event, receivedAt⟩ := first
    rw [insertRows, List.length_cons]
    split
    · obtain ⟨added, htraces, hsorted, hle, hlt, hadded⟩ :=
        ih traces (Nat.lt_add_right 1 hhead)
      refine ⟨added, htraces, hsorted, hle, by omega, fun row hrow => ?_⟩
      obtain ⟨⟨found, hfound, heq⟩, hposition, hmax⟩ := hadded row hrow
      exact ⟨⟨found, List.mem_cons_of_mem _ hfound, heq⟩, by omega, hmax⟩
    · obtain ⟨added, htraces, hsorted, hle, hlt, hadded⟩ :=
        ih (traces ++ [⟨⟨position, event⟩, receivedAt⟩]) (Nat.lt_add_one position)
      refine ⟨⟨⟨position, event⟩, receivedAt⟩ :: added, by simp [htraces], ?_, by omega, by omega,
        ?_⟩
      · exact List.pairwise_cons.mpr ⟨fun row hrow => (hadded row hrow).2.1, hsorted⟩
      · refine List.forall_mem_cons.mpr ⟨⟨⟨_, List.mem_cons_self, rfl⟩, Nat.le_refl _, hle⟩,
          fun row hrow => ?_⟩
        obtain ⟨⟨found, hfound, heq⟩, hposition, hmax⟩ := hadded row hrow
        exact ⟨⟨found, List.mem_cons_of_mem _ hfound, heq⟩, by omega, hmax⟩

/-- Rows and marks that a writer may add: of one project, beyond its head. -/
structure Added (store next : Postgres ν) (projectId : String) (added : List (PostgresRow ν)) :
    Prop where
  traces : next.traces = store.traces ++ added
  prunes : next.prunes = store.prunes
  others : ∀ other, other ≠ projectId → next.projects other = store.projects other
  project : ∃ project, next.projects projectId = some project ∧
    project.pruned = ((store.projects projectId).getD {}).pruned ∧
    ((store.projects projectId).getD {}).head ≤ project.head ∧ project.head ≤ maxI64 ∧
    ∀ row ∈ added, row.record.sequence ≤ project.head
  sorted : added.Pairwise fun a b => a.record.sequence < b.record.sequence
  rows : ∀ row ∈ added, row.projectId = projectId ∧
    ((store.projects projectId).getD {}).head < row.record.sequence

/-- The part of an append for one project. -/
theorem insertEvents_added {events : List (TraceEvent ν × Nat)} {next : Postgres ν}
    (hevents : ∀ event ∈ events, event.1.trace.projectId = projectId)
    (h : store.insertEvents projectId events = .ok next) :
    ∃ added, Added store next projectId added := by
  unfold Postgres.insertEvents at h
  dsimp only at h
  split at h
  · cases h
  split at h
  · cases h
  rename_i hmax
  cases h
  obtain ⟨added, htraces, hsorted, hle, hlt, hadded⟩ :=
    insertRows_eq events store.traces (Nat.lt_add_one ((store.projects projectId).getD {}).head)
  refine ⟨added, htraces, rfl, fun other hother => Function.update_of_ne hother _ _,
    ⟨_, Function.update_self _ _ _, rfl, hle, ?_, fun row hrow => (hadded row hrow).2.2⟩,
    hsorted, fun row hrow => ?_⟩
  · simp only
    omega
  · obtain ⟨⟨event, hevent, heq⟩, hposition, -⟩ := hadded row hrow
    refine ⟨?_, hposition⟩
    rw [PostgresRow.projectId, ← heq]
    exact hevents event hevent

section Added

variable {next : Postgres ν} {added : List (PostgresRow ν)}

/-- The marks of every project after rows were added. -/
theorem Added.marks (h : Added store next projectId added) (other : String) :
    ((next.projects other).getD {}).pruned = ((store.projects other).getD {}).pruned ∧
      ((store.projects other).getD {}).head ≤ ((next.projects other).getD {}).head := by
  by_cases hother : other = projectId
  · subst hother
    obtain ⟨project, hproject, hpruned, hhead, -⟩ := h.project
    rw [hproject]
    exact ⟨hpruned, hhead⟩
  · rw [h.others other hother]
    exact ⟨rfl, Nat.le_refl _⟩

theorem Sound.of_added (hsound : store.Sound) (h : Added store next projectId added) :
    next.Sound := by
  obtain ⟨project, hproject, hpruned, hhead, hmax, hrows⟩ := h.project
  constructor
  · intro other
    rw [h.traces, List.filter_append]
    refine List.pairwise_append.mpr ⟨hsound.ascending other, h.sorted.filter _, ?_⟩
    intro row hrow new hnew
    obtain ⟨hnew, hid⟩ : new ∈ added ∧ new.projectId = other := by simpa using hnew
    obtain ⟨hrow, hid'⟩ : row ∈ store.traces ∧ row.projectId = other := by simpa using hrow
    obtain ⟨old, hold, -, hle⟩ := hsound.rows row hrow
    have hlt := (h.rows new hnew).2
    rw [← (h.rows new hnew).1, hid, ← hid', hold] at hlt
    exact Nat.lt_of_le_of_lt hle hlt
  · intro row hrow
    rw [h.traces] at hrow
    rcases List.mem_append.mp hrow with hrow | hrow
    · obtain ⟨old, hold, hpositive, hle⟩ := hsound.rows row hrow
      by_cases hid : row.projectId = projectId
      · rw [hid] at hold ⊢
        refine ⟨project, hproject, hpositive, ?_⟩
        rw [hold] at hhead
        exact Nat.le_trans hle hhead
      · exact ⟨old, (h.others _ hid).trans hold, hpositive, hle⟩
    · obtain ⟨hid, hlt⟩ := h.rows row hrow
      rw [hid]
      exact ⟨project, hproject, Nat.zero_lt_of_lt hlt, hrows row hrow⟩
  · intro other found hfound
    by_cases hother : other = projectId
    · subst hother
      cases hproject.symm.trans hfound
      refine ⟨?_, hmax⟩
      rw [hpruned]
      exact Nat.le_trans (table_formed hsound other).pruned hhead
    · exact hsound.projects other found ((h.others other hother).symm.trans hfound)

/-- Added rows extend the log of every project. -/
theorem Added.follows (h : Added store next projectId added) (other : String) :
    Follows (store.table other) (next.table other) ∧
      Swept (store.table other) (next.table other) := by
  have hsub : ∀ record ∈ (store.table other).records, record ∈ (next.table other).records := by
    intro record hmem
    obtain ⟨row, hrow, hid, heq⟩ := mem_table.mp hmem
    exact mem_table.mpr ⟨row, by rw [h.traces]; exact List.mem_append_left _ hrow, hid, heq⟩
  refine ⟨⟨rfl, (h.marks other).2, Nat.le_of_eq (h.marks other).1.symm, ?_,
    fun record hmem hnot => absurd (hsub record hmem) hnot⟩,
    fun record hmem hnot => absurd (hsub record hmem) hnot⟩
  intro record hmem hle
  obtain ⟨row, hrow, rfl, rfl⟩ := mem_table.mp hmem
  rw [h.traces] at hrow
  rcases List.mem_append.mp hrow with hrow | hrow
  · exact mem_table.mpr ⟨row, hrow, rfl, rfl⟩
  · obtain ⟨hid, hlt⟩ := h.rows row hrow
    rw [hid] at hle
    exact absurd hlt (Nat.not_lt.mpr hle)

end Added

/-- Rows were added, to one project after the other. -/
def Grows (store next : Postgres ν) : Prop :=
  Relation.ReflTransGen (fun store next => ∃ projectId added, Added store next projectId added)
    store next

theorem append_grows {batch : List (TraceEvent ν × Nat)} {next : Postgres ν}
    (h : store.append batch = .ok next) : Grows store next := by
  unfold Postgres.append at h
  generalize (batch.map (·.1.trace.projectId)).dedup.insertionSort (· ≤ ·) = projects at h
  induction projects generalizing store with
  | nil =>
    cases h
    exact .refl
  | cons projectId rest ih =>
    rw [List.foldlM_cons] at h
    cases hfirst : store.insertEvents projectId
        (batch.filter (·.1.trace.projectId = projectId)) with
    | error error =>
      rw [hfirst] at h
      cases h
    | ok middle =>
      rw [hfirst] at h
      have hadded := insertEvents_added (by simp) hfirst
      exact Relation.ReflTransGen.head ⟨projectId, hadded⟩ (ih h)

/-- The positions of rows are above the pruned mark, and a prune under way has selected a first part
of each project's rows. -/
structure Orderly (store : Postgres ν) : Prop where
  above : ∀ row ∈ store.traces,
    ((store.projects row.projectId).getD {}).pruned < row.record.sequence
  pending : ∀ rows ∈ store.prunes, ∀ selected ∈ rows,
    selected.record.sequence ≤ ((store.projects selected.projectId).getD {}).head ∧
      ∀ row ∈ store.traces, row.projectId = selected.projectId →
        row.record.sequence < selected.record.sequence → row ∈ rows

theorem Orderly.of_added {next : Postgres ν} {added : List (PostgresRow ν)} (h : store.Orderly)
    (hsound : store.Sound) (hadded : Added store next projectId added) : next.Orderly := by
  constructor
  · intro row hrow
    rw [(hadded.marks _).1]
    rw [hadded.traces] at hrow
    rcases List.mem_append.mp hrow with hrow | hrow
    · exact h.above row hrow
    · obtain ⟨hid, hlt⟩ := hadded.rows row hrow
      rw [hid]
      exact Nat.lt_of_le_of_lt (table_formed hsound projectId).pruned hlt
  · intro rows hrows selected hselected
    rw [hadded.prunes] at hrows
    obtain ⟨hhead, hfirst⟩ := h.pending rows hrows selected hselected
    refine ⟨Nat.le_trans hhead (hadded.marks _).2, fun row hrow hid hlt => ?_⟩
    rw [hadded.traces] at hrow
    rcases List.mem_append.mp hrow with hrow | hrow
    · exact hfirst row hrow hid hlt
    · obtain ⟨hproject, hbeyond⟩ := hadded.rows row hrow
      rw [← hid, hproject] at hhead
      exact absurd (Nat.lt_of_le_of_lt hhead hbeyond) (Nat.lt_asymm hlt)

/-- What holds after rows were added. -/
theorem Sound.grows {next : Postgres ν} (h : store.Sound) (hgrows : Grows store next) :
    next.Sound ∧ (store.Orderly → next.Orderly) ∧
      ∀ projectId, Follows (store.table projectId) (next.table projectId) ∧
        Swept (store.table projectId) (next.table projectId) := by
  induction hgrows with
  | refl =>
    exact ⟨h, id, fun _ => ⟨Follows.refl _, fun _ hmem hnot => absurd hmem hnot⟩⟩
  | tail _ hadded ih =>
    obtain ⟨hsound, horderly, hfollows⟩ := ih
    obtain ⟨projectId, added, hadded⟩ := hadded
    refine ⟨hsound.of_added hadded, fun h => (horderly h).of_added hsound hadded, fun other => ?_⟩
    have hlast := hadded.follows other
    exact ⟨(hfollows other).1.trans hlast.1,
      (hfollows other).2.trans (hfollows other).1 hlast.2 hlast.1⟩

/-! ### Deletion -/

/-- Whether a prune deletes a row. -/
def Selected (rows : List (PostgresRow ν)) (row : PostgresRow ν) : Prop :=
  ∃ other ∈ rows, other.projectId = row.projectId ∧ other.record.sequence = row.record.sequence

theorem mem_delete {rows : List (PostgresRow ν)} {row : PostgresRow ν} :
    row ∈ (store.delete rows).traces ↔ row ∈ store.traces ∧ ¬ Selected rows row := by
  simp [delete, Selected]

/-- The marks of a project after a deletion. -/
theorem delete_marks (rows : List (PostgresRow ν)) (projectId : String) :
    (((store.delete rows).projects projectId).getD {}).head =
        ((store.projects projectId).getD {}).head ∧
      ((store.projects projectId).getD {}).pruned ≤
        (((store.delete rows).projects projectId).getD {}).pruned := by
  simp only [delete]
  cases store.projects projectId with
  | none => exact ⟨rfl, Nat.le_refl _⟩
  | some project => exact ⟨rfl, le_foldl_max⟩

/-- The pruned mark is the largest position that was deleted. -/
theorem delete_pruned_le {rows : List (PostgresRow ν)} {project : PostgresProject} {bound : Nat}
    (hproject : store.projects projectId = some project) :
    (((store.delete rows).projects projectId).getD {}).pruned ≤ bound ↔
      project.pruned ≤ bound ∧ ∀ row ∈ store.traces, row.projectId = projectId →
        Selected rows row → row.record.sequence ≤ bound := by
  simp only [delete, hproject, Option.map_some, Option.getD_some, foldl_max_le,
    List.forall_mem_map]
  simp [Selected]

theorem delete_pruned_lt {rows : List (PostgresRow ν)} {project : PostgresProject} {bound : Nat}
    (hproject : store.projects projectId = some project) :
    (((store.delete rows).projects projectId).getD {}).pruned < bound ↔
      project.pruned < bound ∧ ∀ row ∈ store.traces, row.projectId = projectId →
        Selected rows row → row.record.sequence < bound := by
  simp only [delete, hproject, Option.map_some, Option.getD_some, foldl_max_lt,
    List.forall_mem_map]
  simp [Selected]

/-- What a deletion removes is at or below the new mark. -/
theorem delete_removed (h : store.Sound) {rows : List (PostgresRow ν)} {row : PostgresRow ν}
    (hrow : row ∈ store.traces) (hselected : Selected rows row) :
    row.record.sequence ≤ (((store.delete rows).projects row.projectId).getD {}).pruned := by
  obtain ⟨project, hproject, -⟩ := h.rows row hrow
  exact ((delete_pruned_le hproject).mp (Nat.le_refl _)).2 row hrow rfl hselected

theorem Sound.delete (h : store.Sound) (rows : List (PostgresRow ν)) :
    (store.delete rows).Sound := by
  constructor
  · intro projectId
    have hsub : ((store.delete rows).traces.filter (·.projectId = projectId)).Sublist
        (store.traces.filter (·.projectId = projectId)) := List.filter_sublist.filter _
    exact (h.ascending projectId).sublist hsub
  · intro row hrow
    obtain ⟨project, hproject, hpositive, hle⟩ := h.rows row (mem_delete.mp hrow).1
    simp only [Postgres.delete, hproject, Option.map_some, Option.some.injEq]
    exact ⟨_, rfl, hpositive, hle⟩
  · intro projectId project hproject
    obtain ⟨old, hold, heq⟩ := Option.map_eq_some_iff.mp hproject
    obtain ⟨hpruned, hmax⟩ := h.projects projectId old hold
    have hhead : project.head = old.head := by rw [← heq]
    refine ⟨?_, hhead ▸ hmax⟩
    have hle : (((store.delete rows).projects projectId).getD {}).pruned ≤ old.head := by
      refine (delete_pruned_le hold).mpr ⟨hpruned, fun row hrow hid _ => ?_⟩
      obtain ⟨found, hfound, -, hle⟩ := h.rows row hrow
      rw [hid, hold] at hfound
      cases hfound
      exact hle
    rw [hproject] at hle
    exact hhead ▸ hle

/-- A deletion extends the log of every project. -/
theorem follows_delete (h : store.Sound) (rows : List (PostgresRow ν)) (projectId : String) :
    Follows (store.table projectId) ((store.delete rows).table projectId) := by
  have hmarks := @delete_marks ν store rows projectId
  refine ⟨rfl, Nat.le_of_eq hmarks.1.symm, hmarks.2, ?_, ?_⟩
  · intro record hmem _
    obtain ⟨row, hrow, hid, heq⟩ := mem_table.mp hmem
    exact mem_table.mpr ⟨row, (mem_delete.mp hrow).1, hid, heq⟩
  · intro record hmem hnot
    obtain ⟨row, hrow, rfl, rfl⟩ := mem_table.mp hmem
    refine delete_removed h hrow ?_
    by_contra hselected
    exact hnot (mem_table.mpr ⟨row, mem_delete.mpr ⟨hrow, hselected⟩, rfl, rfl⟩)

/-- In an orderly store what a deletion removes moves the mark. -/
theorem swept_delete (h : store.Sound) (horderly : store.Orderly) (rows : List (PostgresRow ν))
    (projectId : String) :
    Swept (store.table projectId) ((store.delete rows).table projectId) := by
  intro record hmem hnot
  have hle := (follows_delete h rows projectId).removed record hmem hnot
  obtain ⟨row, hrow, rfl, rfl⟩ := mem_table.mp hmem
  exact Nat.lt_of_lt_of_le (horderly.above row hrow) hle

/-- A store stays orderly when a prune deletes what it selected. -/
theorem Orderly.delete {before after : List (List (PostgresRow ν))} {rows : List (PostgresRow ν)}
    (h : store.Orderly) (hsound : store.Sound) (hprunes : store.prunes = before ++ rows :: after) :
    Orderly { store.delete rows with prunes := before ++ after } := by
  constructor
  · intro row hrow
    obtain ⟨hrow, hkept⟩ := mem_delete.mp hrow
    obtain ⟨project, hproject, -⟩ := hsound.rows row hrow
    have habove := h.above row hrow
    rw [hproject] at habove
    refine (delete_pruned_lt hproject).mpr ⟨habove, fun other hother hid hselected => ?_⟩
    -- a deleted row above this one would have been selected with it
    obtain ⟨selected, hmem, hid', heq⟩ := hselected
    by_contra hle
    have hsame : row.projectId = selected.projectId := by rw [hid', hid]
    rcases Nat.lt_or_eq_of_le (Nat.le_of_not_lt hle) with hlt | hpos
    · rw [← heq] at hlt
      have hpending := h.pending rows (by simp [hprunes]) selected hmem
      exact hkept ⟨row, hpending.2 row hrow hsame hlt, rfl, rfl⟩
    · exact hkept ⟨selected, hmem, hsame.symm, heq.trans hpos.symm⟩
  · intro others hothers selected hselected
    have hmem : others ∈ store.prunes := by
      rw [hprunes]
      exact List.mem_append.mpr ((List.mem_append.mp hothers).imp_right (List.mem_cons_of_mem _))
    obtain ⟨hhead, hfirst⟩ := h.pending others hmem selected hselected
    refine ⟨?_, fun row hrow => hfirst row (mem_delete.mp hrow).1⟩
    rw [← (delete_marks rows selected.projectId).1] at hhead
    exact hhead

/-- The clock readings of a project's rows increase with their positions. -/
def Timely (store : Postgres ν) : Prop :=
  ∀ a ∈ store.traces, ∀ b ∈ store.traces, a.projectId = b.projectId →
    a.record.sequence < b.record.sequence → a.receivedAt < b.receivedAt

/-- A store stays orderly when a prune selects its rows, if the clock readings increase. -/
theorem Orderly.select {cutoff : Nat} {rows : List (PostgresRow ν)} (h : store.Orderly)
    (hsound : store.Sound) (htimely : store.Timely) (hrows : store.Oldest cutoff rows) :
    Orderly { store with prunes := rows :: store.prunes } := by
  obtain ⟨-, hselected, hothers⟩ := hrows
  refine ⟨h.above, List.forall_mem_cons.mpr ⟨fun selected hmem => ⟨?_, ?_⟩, h.pending⟩⟩
  · obtain ⟨project, hproject, -, hle⟩ := hsound.rows selected (hselected selected hmem).1
    simpa [hproject] using hle
  · intro row hrow hid hlt
    have hearlier := htimely row hrow selected (hselected selected hmem).1 hid hlt
    by_contra hnot
    have hold := (hothers row hrow
      (Nat.lt_trans hearlier (hselected selected hmem).2) hnot).2 selected hmem
    exact absurd hearlier (Nat.not_lt.mpr hold)

end Postgres

/-! ## Either store -/

namespace Store

/-- A consistent store. -/
def Sound : Store ν → Prop
  | sqlite store => store.Sound
  | postgres store => store.Sound

/-- A store whose rows are above the pruned marks. -/
def Orderly : Store ν → Prop
  | sqlite _ => True
  | postgres store => store.Orderly

/-- The database's clock neither stalls nor steps back between two rows of a project. -/
def Timely : Store ν → Prop
  | sqlite _ => True
  | postgres store => store.Timely

variable {store next : Store ν}

theorem Sound.formed (h : store.Sound) {projectId : String} (hid : projectId ≠ "") :
    (store.table projectId).Formed := by
  cases store with
  | sqlite store => exact Sqlite.table_formed h hid
  | postgres store => exact Postgres.table_formed h projectId

theorem Initial.sound (h : Initial store) : store.Sound ∧ store.Orderly := by
  cases h with
  | sqlite _ => exact ⟨⟨.nil, by simp, by simp, by simp, by simp, rfl⟩, trivial⟩
  | postgres => exact ⟨⟨by simp, by simp, by simp⟩, by simp, by simp⟩

/-- A write keeps the store sound and extends the log of every project. -/
theorem Step.follows (h : store.Sound) (hstep : Step store next) :
    next.Sound ∧ ∀ projectId, projectId ≠ "" →
      Follows (store.table projectId) (next.table projectId) := by
  cases hstep with
  | sqlite hallocated happend =>
    obtain ⟨hsound, hfollows⟩ := Sqlite.Sound.append h hallocated happend
    exact ⟨hsound, fun projectId hid => (hfollows projectId hid).1⟩
  | append happend =>
    obtain ⟨hsound, -, hfollows⟩ := Postgres.Sound.grows h (Postgres.append_grows happend)
    exact ⟨hsound, fun projectId _ => (hfollows projectId).1⟩
  | select _ => exact ⟨{ h with }, fun _ _ => Follows.refl _⟩
  | delete _ =>
    exact ⟨{ Postgres.Sound.delete h _ with }, fun projectId _ =>
      Postgres.follows_delete h _ projectId⟩

/-- In an orderly store whatever a write removes moves the pruned mark, and with increasing clock
readings the store stays orderly. -/
theorem Orderly.swept (h : store.Orderly) (hsound : store.Sound) (htimely : store.Timely)
    (hstep : Step store next) :
    next.Orderly ∧ ∀ projectId, projectId ≠ "" →
      Swept (store.table projectId) (next.table projectId) := by
  cases hstep with
  | sqlite hallocated happend =>
    exact ⟨trivial, fun projectId hid =>
      ((Sqlite.Sound.append hsound hallocated happend).2 projectId hid).2⟩
  | append happend =>
    obtain ⟨-, horderly, hfollows⟩ := Postgres.Sound.grows hsound (Postgres.append_grows happend)
    exact ⟨horderly h, fun projectId _ => (hfollows projectId).2⟩
  | select hrows =>
    exact ⟨Postgres.Orderly.select h hsound htimely hrows, fun _ _ _ hmem hnot =>
      absurd hmem hnot⟩
  | delete hprunes =>
    exact ⟨Postgres.Orderly.delete h hsound hprunes, fun projectId _ =>
      Postgres.swept_delete hsound h _ projectId⟩

/-- Every reachable store is sound. -/
theorem Reachable.sound (h : Reachable store) : store.Sound := by
  obtain ⟨initial, hinitial, hrun⟩ := h
  induction hrun with
  | refl => exact hinitial.sound.1
  | tail _ hstep ih => exact (Step.follows ih hstep).1

/-- A run extends the log of every project. -/
theorem Sound.run (h : store.Sound) (hrun : Relation.ReflTransGen Step store next) :
    next.Sound ∧ ∀ projectId, projectId ≠ "" →
      Follows (store.table projectId) (next.table projectId) := by
  induction hrun with
  | refl => exact ⟨h, fun _ _ => Follows.refl _⟩
  | tail _ hstep ih =>
    obtain ⟨hsound, hfollows⟩ := Step.follows ih.1 hstep
    exact ⟨hsound, fun projectId hid => (ih.2 projectId hid).trans (hfollows projectId hid)⟩

end Store

end Traces
end DurableActors
