import DocumentPipeline.JobViews

/-! Reading the whole job list page by page while jobs are being created. Every
page is cut by offset from a later listing; a listing keeps its rows in their
order and only gains others, so a row moves to later places and cannot slip
behind the client. `has_more` compares with a total that was counted after the
rows of the page, so it ends no walk early. -/

namespace DocumentPipeline
open EffectProgram Transition Select JobService

namespace Views

def key (job : ProcessingJob) : Time × Nat := (job.createdAt, job.id)

def itemKey (item : JobSummary) : Time × Nat := (item.createdAt, item.id)

/-- The order of a listing, newest first. -/
def Later (a b : Time × Nat) : Prop := b.1 < a.1 ∨ a.1 = b.1 ∧ b.2 < a.2

instance : Std.Antisymm Later where
  antisymm a b first second := by
    obtain later | ⟨tie, greater⟩ := first
    · obtain earlier | ⟨tie, -⟩ := second
      · exact absurd earlier (lt_asymm later)
      · exact absurd later (tie ▸ lt_irrefl _)
    · obtain earlier | ⟨-, less⟩ := second
      · exact absurd earlier (tie ▸ lt_irrefl _)
      · exact absurd less (lt_asymm greater)

section Listing
variable {db db' : Database} {table table' : List ProcessingJob}

theorem nodup_keys (distinct : (table.map (·.id)).Nodup) : (table.map key).Nodup :=
  List.Nodup.of_map Prod.snd (by rw [List.map_map]; exact distinct)

theorem keys_subset (holds : db.Holds table) (holds' : db'.Holds table') (onward : db.Onward db') :
    table.map key ⊆ table'.map key := by
  intro k mem
  obtain ⟨job, among, rfl⟩ := List.mem_map.mp mem
  obtain ⟨job', found, same⟩ := onward.jobs _ _ ((holds.rows job).mp among)
  refine List.mem_map.mpr ⟨job', (holds'.rows job').mpr (same.id ▸ found), ?_⟩
  rw [key, key, same.createdAt, same.id]

theorem length_grows (holds : db.Holds table) (holds' : db'.Holds table') (onward : db.Onward db') :
    table.length ≤ table'.length := by
  have fewer := (List.subperm_of_subset (nodup_keys holds.distinct) (keys_subset holds holds' onward)).length_le
  rwa [List.length_map, List.length_map] at fewer

theorem keys_grow (holds : db.Holds table) (holds' : db'.Holds table') (ordered : table.Pairwise Newer)
    (ordered' : table'.Pairwise Newer) (onward : db.Onward db') :
    (table.map key).Sublist (table'.map key) :=
  List.sublist_of_subperm_of_pairwise (r := Later)
    (List.subperm_of_subset (nodup_keys holds.distinct) (keys_subset holds holds' onward))
    (List.pairwise_map.mpr ordered) (List.pairwise_map.mpr ordered')

theorem matching_none (table : List ProcessingJob) : matching table none = table :=
  List.filter_eq_self.mpr fun _ _ => rfl

theorem arranged_perm {arranged : List ProcessingJob} {limit offset : Nat}
    (arranges : (pageQuery none limit offset).Arranges table arranged) : arranged.Perm table := by
  have rows := arranges.rows
  rwa [show (pageQuery none limit offset).filters = filters none from rfl, matching_eq,
    matching_none] at rows

theorem holds_arranged {arranged : List ProcessingJob} {limit offset : Nat} (holds : db.Holds table)
    (arranges : (pageQuery none limit offset).Arranges table arranged) :
    db.Holds arranged ∧ arranged.Pairwise Newer := by
  have same := arranged_perm arranges
  have distinct := (same.map (·.id)).nodup_iff.mpr holds.distinct
  exact ⟨⟨distinct, fun job => same.mem_iff.trans (holds.rows job)⟩,
    newer_of_arranged arranges.ordered distinct⟩

/-- Where a page was cut and what its total counted. -/
structure Cut (db db' : Database) (limit offset : Nat) (page : JobPage) (arranged : List ProcessingJob) :
    Prop where
  found : ∃ db₁, db.Onward db₁ ∧ db₁.Holds arranged ∧ db₁.Onward db' ∧
    ∃ db₂ table, db₁.Onward db₂ ∧ db₂.Holds table ∧ page.total = table.length
  ordered : arranged.Pairwise Newer
  items : page.items.map itemKey = ((arranged.map key).drop offset).take limit
  offset : page.offset = offset
  shown : ∀ item ∈ page.items, item.originalFilename.isSome = true ∧
    (item.status = .completed → item.detectedDocumentType.isSome = true)

theorem jobPage_follows {limit offset : Nat} : wp following (jobPage none limit offset)
    (fun r db' => ∀ page, r = .ok page → ∃ arranged, Cut db db' limit offset page arranged) db := by
  refine (wp_bind _ _ _ _ _).mpr (follows_then (fun rows db₁ onward whole answered => ?_)
    fun error db₁ _ _ other page same => (by cases same))
  obtain ⟨table, holds, arranged, arranges, rfl⟩ := answered
  obtain ⟨holds, ordered⟩ := holds_arranged holds arranges
  have cut : ((pageQuery none limit offset).page arranged).Sublist arranged :=
    (List.take_sublist _ _).trans (List.drop_sublist _ _)
  rw [unique_distinct ((cut.map _).nodup holds.distinct)]
  refine wp_seq _ (loadRelated_follows whole fun job mem => (holds.rows job).mp (cut.subset mem)) ?_
    fun error _ _ page same => (by cases same)
  rintro loaded db₂ ⟨onward₂, -, yields⟩
  obtain ⟨rows, faithful⟩ := yields.1 loaded rfl
  refine follows_then (fun total db₃ onward₃ _ counted => ?_)
    fun error _ _ _ other page same => (by cases same)
  intro page same
  cases same
  obtain ⟨table₃, holds₃, rfl⟩ := counted
  have all : table₃.filter (wanted (filters none)) = table₃ := by rw [matching_eq, matching_none]
  refine ⟨arranged, ⟨db₁, onward, holds, onward₂.trans onward₃, db₃, table₃, onward₂.trans onward₃,
    holds₃, congrArg List.length all⟩, ordered, ?_, rfl, fun item mem => ?_⟩
  · have keys : (loaded.map toSummary).map itemKey = (loaded.map (·.row)).map key := by
      rw [List.map_map, List.map_map]
      rfl
    rw [keys, rows, ← List.map_drop, ← List.map_take]
    rfl
  · obtain ⟨job, among, rfl⟩ := List.mem_map.mp mem
    obtain ⟨document, filed, loads⟩ := (faithful job among).document
    refine ⟨?_, fun completed => ?_⟩
    · exact Option.isSome_map.trans (loads ▸ rfl)
    · exact Option.isSome_map.trans ((faithful job among).completed whole completed)

end Listing

/-- A client that reads page after page until there is no more, while the system
goes on before, between and within its requests. -/
structure Walk (env : Env) (limit n : Nat) (s : Nat → System) (pages : Nat → JobPage) : Prop where
  starts : Reached env anyRun (s 0)
  read : ∀ k ≤ n, (jobPage none limit (k * limit)).Ends (browsing env) (s k) (.ok (pages k)) (s (k + 1))
  ended : (pages n).hasMore = false

namespace Walk
variable {env : Env} {limit n : Nat} {s : Nat → System} {pages : Nat → JobPage}

theorem reached (walk : Walk env limit n s pages) {k : Nat} (within : k ≤ n + 1) :
    Reached env anyRun (s k) := by
  induction k with
  | zero => exact walk.starts
  | succ k ih => exact (follows_of_browses (ih (by omega)) (walk.read k (by omega))).2.1

theorem onward (walk : Walk env limit n s pages) {j k : Nat} (before : j ≤ k) (within : k ≤ n + 1) :
    (s j).world.db.Onward (s k).world.db := by
  induction before with
  | refl => exact .refl _
  | @step k before ih =>
    have read := walk.read k (by omega)
    exact (ih (by omega)).trans (follows_of_browses (walk.reached (by omega)) read).2.2

def Cuts (limit n : Nat) (s : Nat → System) (pages : Nat → JobPage)
    (arranged : Nat → List ProcessingJob) : Prop :=
  ∀ k ≤ n, Cut (s k).world.db (s (k + 1)).world.db limit (k * limit) (pages k) (arranged k)

theorem cuts (walk : Walk env limit n s pages) : ∃ arranged, Cuts limit n s pages arranged := by
  have each (k : Nat) : ∃ arranged, k ≤ n →
      Cut (s k).world.db (s (k + 1)).world.db limit (k * limit) (pages k) arranged := by
    by_cases within : k ≤ n
    · obtain ⟨ended, -, -⟩ := follows_of_browses (walk.reached (by omega)) (walk.read k within)
      obtain ⟨arranged, cut⟩ := ended.post jobPage_follows _ rfl
      exact ⟨arranged, fun _ => cut⟩
    · exact ⟨[], fun absurd => (within absurd).elim⟩
  choose arranged cut using each
  exact ⟨arranged, cut⟩

section Arranged
variable {arranged : Nat → List ProcessingJob}

/-- Pages that are read later are cut from more rows. -/
theorem grows (walk : Walk env limit n s pages) (cuts : Cuts limit n s pages arranged) {j k : Nat}
    (before : j < k) (within : k ≤ n) : ((arranged j).map key).Sublist ((arranged k).map key) := by
  obtain ⟨db₁, -, holds, onward, -⟩ := (cuts j (by omega)).found
  obtain ⟨db₁', onward', holds', -, -⟩ := (cuts k within).found
  exact keys_grow holds holds' (cuts j (by omega)).ordered (cuts k within).ordered
    ((onward.trans (walk.onward before (by omega))).trans onward')

theorem covers (walk : Walk env limit n s pages) (cuts : Cuts limit n s pages arranged) :
    ((arranged n).map key).length ≤ (n + 1) * limit := by
  have last := cuts n le_rfl
  obtain ⟨db₁, -, holds, -, db₂, table, onward, counted, total⟩ := last.found
  have more := length_grows holds counted onward
  have few : (pages n).items.length ≤ limit := by
    have items := congrArg List.length last.items
    rw [List.length_map, List.length_take] at items
    omega
  have ended := walk.ended
  rw [JobPage.hasMore, decide_eq_false_iff_not, last.offset, total] at ended
  rw [List.length_map, Nat.succ_mul]
  omega

theorem genuine (walk : Walk env limit n s pages) (cuts : Cuts limit n s pages arranged) {k : Nat}
    (within : k ≤ n) {job : ProcessingJob} (mem : job ∈ arranged k) :
    ∃ row, (s (n + 1)).world.db.jobs job.id = some row ∧ key row = key job := by
  obtain ⟨db₁, -, holds, onward, -⟩ := (cuts k within).found
  obtain ⟨row, found, same⟩ :=
    (onward.trans (walk.onward (by omega) le_rfl)).jobs _ _ ((holds.rows job).mp mem)
  exact ⟨row, found, by rw [key, key, same.createdAt, same.id]⟩

theorem enduring (walk : Walk env limit n s pages) (cuts : Cuts limit n s pages arranged) {k : Nat}
    (within : k ≤ n) {jobId : Nat} {row : ProcessingJob}
    (found : (s 0).world.db.jobs jobId = some row) : key row ∈ (arranged k).map key := by
  obtain ⟨db₁, onward, holds, -, -⟩ := (cuts k within).found
  have own := walk.starts.whole.keyed jobId row found
  obtain ⟨row', found', same⟩ :=
    ((walk.onward (Nat.zero_le k) (by omega)).trans onward).jobs jobId row found
  refine List.mem_map.mpr ⟨row', (holds.rows row').mpr ?_, by rw [key, key, same.createdAt, same.id]⟩
  rw [same.id, own]
  exact found'

theorem fixed (walk : Walk env limit n s pages) (cuts : Cuts limit n s pages arranged)
    (quiet : ∀ jobId, ((s (n + 1)).world.db.jobs jobId).isSome = true →
      ((s 0).world.db.jobs jobId).isSome = true) {k : Nat} (within : k ≤ n) :
    (arranged k).map key = (arranged 0).map key := by
  obtain rfl | later := Nat.eq_zero_or_pos k
  · rfl
  refine ((walk.grows cuts later within).eq_of_length_le ?_).symm
  obtain ⟨db₁, -, holds, -, -⟩ := (cuts k within).found
  refine (List.subperm_of_subset (nodup_keys holds.distinct) fun a mem => ?_).length_le
  obtain ⟨job, among, rfl⟩ := List.mem_map.mp mem
  obtain ⟨row, found, same⟩ := walk.genuine cuts within among
  obtain ⟨first, before⟩ := Option.isSome_iff_exists.mp (quiet job.id (found ▸ rfl))
  obtain ⟨row', found', kept⟩ := (walk.onward (Nat.zero_le _) le_rfl).jobs _ _ before
  cases found.symm.trans found'
  have sameFirst : key first = key job := by
    rw [← same, key, key, kept.createdAt, kept.id]
  exact sameFirst ▸ walk.enduring cuts (Nat.zero_le n) before

end Arranged
end Walk

/-- Reading the pages by offset while the system goes on misses no job that was
committed when it began; every item is a committed job with its filename and, if
it is completed, its type. If no job is created meanwhile, none is repeated and
the items come newest first. -/
theorem walk_misses_none {env : Env} {limit n : Nat} {s : Nat → System} {pages : Nat → JobPage}
    (walk : Walk env limit n s pages) :
    (∀ jobId row, (s 0).world.db.jobs jobId = some row →
      ∃ k ≤ n, ∃ item ∈ (pages k).items, item.id = jobId ∧ item.createdAt = row.createdAt) ∧
    (∀ k ≤ n, ∀ item ∈ (pages k).items, item.originalFilename.isSome = true ∧
      (item.status = .completed → item.detectedDocumentType.isSome = true) ∧
      ∃ row, (s (n + 1)).world.db.jobs item.id = some row ∧ row.createdAt = item.createdAt) ∧
    ((∀ jobId, ((s (n + 1)).world.db.jobs jobId).isSome = true →
        ((s 0).world.db.jobs jobId).isSome = true) →
      (((List.range (n + 1)).flatMap fun k => (pages k).items).map itemKey).Pairwise Later) := by
  obtain ⟨arranged, cuts⟩ := walk.cuts
  refine ⟨fun jobId row found => ?_, fun k within item mem => ?_, fun quiet => ?_⟩
  · have grows : ∀ k < n, ((arranged k).map key).Sublist ((arranged (k + 1)).map key) :=
      fun k before => walk.grows cuts (Nat.lt_succ_self k) before
    obtain ⟨k, within, shown⟩ :=
      pages_cover grows (walk.covers cuts) (walk.enduring cuts (Nat.zero_le n) found)
    rw [← (cuts k within).items] at shown
    obtain ⟨item, mem, same⟩ := List.mem_map.mp shown
    have own := walk.starts.whole.keyed jobId row found
    exact ⟨k, within, item, mem, (congrArg Prod.snd same).trans own, congrArg Prod.fst same⟩
  · obtain ⟨named, typed⟩ := (cuts k within).shown item mem
    have shown : itemKey item ∈ (pages k).items.map itemKey := List.mem_map_of_mem mem
    rw [(cuts k within).items] at shown
    obtain ⟨job, among, same⟩ := List.mem_map.mp (List.mem_of_mem_drop (List.mem_of_mem_take shown))
    obtain ⟨row, found, kept⟩ := walk.genuine cuts within among
    have own : job.id = item.id := congrArg Prod.snd same
    exact ⟨named, typed, row, own ▸ found, congrArg Prod.fst (kept.trans same)⟩
  · have whole : ((List.range (n + 1)).flatMap fun k => (pages k).items).map itemKey =
        ((arranged 0).map key).take ((n + 1) * limit) := by
      rw [List.map_flatMap, ← take_pages]
      refine List.flatMap_congr fun k mem => ?_
      have within : k ≤ n := Nat.lt_succ_iff.mp (List.mem_range.mp mem)
      rw [(cuts k within).items, walk.fixed cuts quiet within]
    have ordered : ((arranged 0).map key).Pairwise Later :=
      List.pairwise_map.mpr (cuts 0 (Nat.zero_le n)).ordered
    rw [whole]
    exact ordered.sublist (List.take_sublist _ _)

section Resting
variable {db db' : Database} {table : List ProcessingJob}

theorem holds_update (holds : db.Holds table) {row : ProcessingJob}
    (jobs : db'.jobs = Function.update db.jobs row.id (some row)) :
    db'.Holds (table.filter (·.id ≠ row.id) ++ [row]) := by
  refine ⟨?_, fun job => ?_⟩
  · rw [List.map_append, List.nodup_append]
    refine ⟨(List.filter_sublist.map _).nodup holds.distinct, List.nodup_singleton _, ?_⟩
    rintro id mem _ last rfl
    obtain ⟨job, among, rfl⟩ := List.mem_map.mp mem
    exact of_decide_eq_true (List.mem_filter.mp among).2 (List.mem_singleton.mp last)
  · rw [List.mem_append, List.mem_filter, List.mem_singleton, holds.rows, decide_eq_true_eq, jobs]
    by_cases own : job.id = row.id
    · rw [own, Function.update_self, Option.some.injEq]
      exact ⟨fun h => h.elim (fun other => absurd rfl other.2) Eq.symm, fun same => .inr same.symm⟩
    · rw [Function.update_of_ne own]
      refine ⟨fun h => h.elim (·.1) ?_, fun found => .inl ⟨found, own⟩⟩
      rintro rfl
      exact absurd rfl own

end Resting

end Views

theorem Reached.holds {env : Env} {s : System} (h : Reached env anyRun s) :
    ∃ table, s.world.db.Holds table := by
  obtain ⟨g, staged⟩ := h.staged
  refine Reach.invariant (I := fun x : Staged => ∃ table, x.1.world.db.Holds table)
    ⟨[], List.nodup_nil, fun job => ⟨fun mem => (List.not_mem_nil mem).elim, fun found => by cases found⟩⟩
    (fun x label x' reached holds stepped _ => ?_) staged
  obtain ⟨table, holds⟩ := holds
  obtain ⟨t, choice, call, -, rfl⟩ | noCall := (move_of_step stepped).call_or
  · have jobs : call.result.1.world.db.jobs = _ := execute_jobs call.ran
    cases committed : call.thread.loc.commits call.o choice with
    | none =>
      rw [committed] at jobs
      exact ⟨table, holds.distinct, fun job => jobs ▸ holds.rows job⟩
    | some write =>
      rw [committed] at jobs
      exact ⟨_, Views.holds_update holds jobs⟩
  · exact ⟨table, holds.distinct, fun job => ((move_of_step stepped).rests noCall).jobs ▸ holds.rows job⟩

namespace Views

section Answers
variable {s : System} {table : List ProcessingJob}

theorem jobPage_answered (env : Env) (holds : s.world.db.Holds table) (limit offset : Nat) :
    ∃ page, (jobPage none limit offset).Ends (browsing env) s (.ok page) s ∧ page.offset = offset ∧
      page.items.length = min limit (table.length - offset) ∧ page.total = table.length := by
  obtain ⟨arranged, arranges, -⟩ := Query.run_answers (pageQuery none limit offset) table
    newestFirst_total newestFirst_trans
  obtain ⟨all, -⟩ := holds_arranged holds arranges
  have size : arranged.length = table.length := (arranged_perm arranges).length_eq
  have page : (browsing env).next s (.page (pageQuery none limit offset))
      (.ok ((pageQuery none limit offset).page arranged)) s :=
    ⟨.start, table, holds, arranged, arranges, rfl⟩
  obtain ⟨loaded, rows, answered⟩ :=
    loadRelated_answered env s (unique ((pageQuery none limit offset).page arranged))
  have total : (browsing env).next s (.count (filters none)) (.ok table.length) s :=
    ⟨.start, table, holds, by rw [matching_eq, matching_none]⟩
  have lists : (listJobs none limit offset).Ends (browsing env) s (.ok (loaded, table.length)) s :=
    .call page (answered.bind (.call total (.ret _ s)))
  refine ⟨_, lists.bind (.ret _ s), rfl, ?_, rfl⟩
  have cut : ((pageQuery none limit offset).page arranged).Sublist arranged :=
    (List.take_sublist _ _).trans (List.drop_sublist _ _)
  have shown : loaded.length = ((arranged.drop offset).take limit).length := by
    rw [unique_distinct ((cut.map _).nodup all.distinct)] at rows
    exact List.length_map _ |>.symm.trans (congrArg List.length rows)
  rw [List.length_map, shown, List.length_take, List.length_drop, size]

end Answers

theorem walk_misses_none_uploads : ∃ n s pages, Walk sampleEnv 1 n s pages ∧ 1 ≤ n ∧
    (∃ k ≤ n, ∃ item ∈ (pages k).items, item.id = 2) ∧
      ∃ k ≤ n, ∃ item ∈ (pages k).items, item.id = 6 := by
  obtain ⟨s, reached, accepted⟩ := Reached.exists_run sampleEnv anyRun (fun _ _ _ => true)
    (fun s => (s.world.db.jobs 2).isSome && (s.world.db.jobs 6).isSome) (fun _ _ _ _ => trivial)
    ([.receive 0 sampleUpload] ++ Label.oks 0 14 ++ [.receive 0 sampleUpload] ++ Label.oks 1 14)
    (by decide +kernel)
  obtain ⟨there, there'⟩ := Bool.and_eq_true_iff.mp accepted
  obtain ⟨row, found⟩ := Option.isSome_iff_exists.mp there
  obtain ⟨row', found'⟩ := Option.isSome_iff_exists.mp there'
  obtain ⟨table, holds⟩ := reached.holds
  choose page ended offset length total using fun k => jobPage_answered sampleEnv holds 1 (k * 1)
  have keyed := reached.whole.keyed
  have two : 1 < table.length := by
    have among := (holds.rows row).mpr (keyed 2 row found ▸ found)
    have among' := (holds.rows row').mpr (keyed 6 row' found' ▸ found')
    have apart : row ≠ row' := fun same => by
      have ids := (keyed 2 row found).symm.trans ((congrArg _ same).trans (keyed 6 row' found'))
      cases ids
    rcases table with _ | ⟨first, _ | ⟨second, rest⟩⟩
    · cases among
    · exact absurd ((List.mem_singleton.mp among).trans (List.mem_singleton.mp among').symm) apart
    · exact Nat.succ_lt_succ (Nat.succ_pos _)
  have walk : Walk sampleEnv 1 (table.length - 1) (fun _ => s) page := by
    refine ⟨reached, fun k _ => ended k, decide_eq_false ?_⟩
    rw [offset, length, total]
    omega
  refine ⟨_, _, _, walk, Nat.le_sub_one_of_lt two, ?_, ?_⟩
  · obtain ⟨k, within, item, mem, own, -⟩ := (walk_misses_none walk).1 2 row found
    exact ⟨k, within, item, mem, own⟩
  · obtain ⟨k, within, item, mem, own, -⟩ := (walk_misses_none walk).1 6 row' found'
    exact ⟨k, within, item, mem, own⟩

end Views
end DocumentPipeline
