import DocumentPipeline.Records
import DocumentPipeline.Lib.Program
import DocumentPipeline.Lib.Select

/-! The pages of the jobs table. Every page and every total comes from a query of
its own, so that the pages fit together rests on the sort key, which the job's
id makes total, and on the count having the page's filter. -/

namespace DocumentPipeline
open EffectProgram Select

inductive Statement
  | rows (query : Query ProcessingJob)
  | count (filters : List (ProcessingJob → Bool))

@[reducible] def Statement.Val : Statement → Type
  | .rows _ => List ProcessingJob
  | .count _ => Nat

/-- What the database may reply while the table holds these rows. -/
def Statement.Replies (table : List ProcessingJob) : (o : Statement) → Except Exn o.Val → Prop
  | .rows query, .ok jobs => query.Answers table jobs
  | .count filters, .ok total => total = (table.filter (wanted filters)).length
  | _, .error _ => True

def reading (table : List ProcessingJob) : Protocol Statement Statement.Val Exn Unit where
  permits _ _ := True
  next _ o reply _ := o.Replies table reply

namespace JobService

def filters (status : Option JobStatus) : List (ProcessingJob → Bool) :=
  match status with
  | none => []
  | some status => [fun job => job.status = status]

def newestFirst : List (ProcessingJob → ProcessingJob → Ordering) :=
  [desc (·.createdAt), desc (·.id)]

def pageQuery (status : Option JobStatus) (limit offset : Nat) : Query ProcessingJob where
  filters := filters status
  orderBy := newestFirst
  limit := limit
  offset := offset

/-- `scalars().unique()`: one object for each identity, where it first occurs. -/
def unique (jobs : List ProcessingJob) : List ProcessingJob :=
  jobs.foldl (fun seen job => if job.id ∈ seen.map (·.id) then seen else seen ++ [job]) []

def listJobs (status : Option JobStatus) (limit offset : Nat) :
    Program Statement Statement.Val Exn (List ProcessingJob × Nat) := do
  let jobs ← Program.perform (.rows (pageQuery status limit offset))
  let total ← Program.perform (.count (filters status))
  return (unique jobs, total)

/-- `list_jobs` may return this page and this total. -/
def Lists (table : List ProcessingJob) (status : Option JobStatus) (limit offset : Nat)
    (page : List ProcessingJob × Nat) : Prop :=
  (listJobs status limit offset).Ends (reading table) () (.ok page) ()

/-- Created later, or at the same time under a greater id. -/
def Newer (a b : ProcessingJob) : Prop :=
  b.createdAt < a.createdAt ∨ a.createdAt = b.createdAt ∧ b.id < a.id

section Order
variable {a b c : ProcessingJob}

theorem precedes_newestFirst : Precedes newestFirst a b ↔
    b.createdAt < a.createdAt ∨ a.createdAt = b.createdAt ∧ b.id ≤ a.id := by
  simp only [Precedes, newestFirst, List.foldr_cons, List.foldr_nil, desc]
  rw [Ne, Ordering.then_eq_gt, Ordering.then_eq_gt, compare_gt_iff_gt, compare_eq_iff_eq,
    compare_gt_iff_gt]
  generalize a.createdAt = x, b.createdAt = y
  simp only [reduceCtorEq, and_false, or_false, not_or, not_and, not_lt]
  change x ≥ y ∧ (y = x → a.id ≥ b.id) ↔ y < x ∨ x = y ∧ b.id ≤ a.id
  constructor
  · rintro ⟨later, tie⟩
    obtain earlier | rfl := lt_or_eq_of_le later
    · exact .inl earlier
    · exact .inr ⟨rfl, tie rfl⟩
  · rintro (later | ⟨rfl, greater⟩)
    · exact ⟨le_of_lt later, fun tie => absurd later (tie ▸ lt_irrefl _)⟩
    · exact ⟨le_rfl, fun _ => greater⟩

theorem newestFirst_total (a b : ProcessingJob) :
    Precedes newestFirst a b ∨ Precedes newestFirst b a := by
  simp only [precedes_newestFirst]
  obtain later | tie | later := lt_trichotomy a.createdAt b.createdAt
  · exact .inr (.inl later)
  · obtain greater | greater := le_total b.id a.id
    · exact .inl (.inr ⟨tie, greater⟩)
    · exact .inr (.inr ⟨tie.symm, greater⟩)
  · exact .inl (.inl later)

theorem newestFirst_trans (a b c : ProcessingJob) (first : Precedes newestFirst a b)
    (second : Precedes newestFirst b c) : Precedes newestFirst a c := by
  rw [precedes_newestFirst] at first second ⊢
  obtain later | ⟨tie, greater⟩ := first
  · obtain later' | ⟨tie', -⟩ := second
    · exact .inl (later'.trans later)
    · exact .inl (tie' ▸ later)
  · obtain later' | ⟨tie', greater'⟩ := second
    · exact .inl (tie ▸ later')
    · exact .inr ⟨tie.trans tie', greater'.trans greater⟩

theorem separates_newestFirst {table : List ProcessingJob} (distinct : (table.map (·.id)).Nodup) :
    Separates newestFirst table := by
  intro a b left right forwards backwards
  rw [precedes_newestFirst] at forwards backwards
  have same : a.id = b.id := by
    obtain later | ⟨tie, greater⟩ := forwards
    · obtain earlier | ⟨tie, -⟩ := backwards
      · exact absurd earlier (lt_asymm later)
      · exact absurd later (tie ▸ lt_irrefl _)
    · obtain earlier | ⟨-, greater'⟩ := backwards
      · exact absurd earlier (tie ▸ lt_irrefl _)
      · exact le_antisymm greater' greater
  exact List.inj_on_of_nodup_map distinct left right same

end Order

/-- Distinct ids leave no ties. -/
theorem newer_of_arranged {jobs : List ProcessingJob} (ordered : jobs.Pairwise (Precedes newestFirst))
    (distinct : (jobs.map (·.id)).Nodup) : jobs.Pairwise Newer := by
  have apart : jobs.Pairwise fun a b => a.id ≠ b.id := List.pairwise_map.mp distinct
  refine (ordered.and apart).imp fun {a b} both => ?_
  obtain later | ⟨tie, greater⟩ := precedes_newestFirst.mp both.1
  · exact .inl later
  · exact .inr ⟨tie, lt_of_le_of_ne greater (Ne.symm both.2)⟩

theorem unique_distinct {jobs : List ProcessingJob} (distinct : (jobs.map (·.id)).Nodup) :
    unique jobs = jobs := by
  have kept (seen : List ProcessingJob) (apart : ((seen ++ jobs).map (·.id)).Nodup) :
      jobs.foldl (fun seen job => if job.id ∈ seen.map (·.id) then seen else seen ++ [job]) seen =
        seen ++ jobs := by
    clear distinct
    induction jobs generalizing seen with
    | nil => simp
    | cons job jobs ih =>
      have fresh : job.id ∉ seen.map (·.id) := by
        intro among
        rw [List.map_append, List.nodup_append] at apart
        exact apart.2.2 _ among _ List.mem_cons_self rfl
      rw [List.foldl_cons, if_neg fresh, ih (seen ++ [job]) (by simpa using apart), List.append_assoc]
      rfl
  exact kept [] distinct

section Listing
variable {table : List ProcessingJob} {status : Option JobStatus} {limit offset : Nat}

def matching (table : List ProcessingJob) (status : Option JobStatus) : List ProcessingJob :=
  table.filter fun job => status.all (job.status = ·)

theorem matching_eq : table.filter (wanted (filters status)) = matching table status := by
  unfold matching
  congr 1
  funext job
  cases status <;> simp [wanted, filters]

theorem Lists.answers {page : List ProcessingJob × Nat} (listed : Lists table status limit offset page) :
    (∃ jobs, (pageQuery status limit offset).Answers table jobs ∧ page.1 = unique jobs) ∧
      page.2 = (matching table status).length := by
  have spec : wp (reading table) (listJobs status limit offset) (fun r _ => ∀ page, r = .ok page →
      (∃ jobs, (pageQuery status limit offset).Answers table jobs ∧ page.1 = unique jobs) ∧
        page.2 = (matching table status).length) () := by
    refine (wp_bind _ _ _ _ _).mpr ((wp_perform _ _ _ _).mpr ⟨trivial, fun reply _ answered => ?_⟩)
    cases reply with
    | error error => exact fun _ same => (by cases same)
    | ok jobs =>
      refine (wp_bind _ _ _ _ _).mpr ((wp_perform _ _ _ _).mpr ⟨trivial, fun reply _ counted => ?_⟩)
      cases reply with
      | error error => exact fun _ same => (by cases same)
      | ok total =>
        intro page same
        cases same
        exact ⟨⟨jobs, answered, rfl⟩, Eq.trans counted (congrArg _ matching_eq)⟩
  exact listed.post spec page rfl

theorem lists_run (table : List ProcessingJob) (status : Option JobStatus) (limit offset : Nat) :
    Lists table status limit offset
      (unique ((pageQuery status limit offset).run table), (matching table status).length) := by
  have page : (reading table).next () (.rows (pageQuery status limit offset))
      (.ok ((pageQuery status limit offset).run table)) () :=
    Query.run_answers _ _ newestFirst_total newestFirst_trans
  have total : (reading table).next () (.count (filters status))
      (.ok (matching table status).length) () := (congrArg List.length matching_eq).symm
  exact .call page (.call total (.ret _ ()))

theorem Lists.page_eq {table' arranged : List ProcessingJob} {page : List ProcessingJob × Nat}
    (distinct : (table.map (·.id)).Nodup) (same : table'.Perm table)
    (arranges : (pageQuery status limit offset).Arranges table arranged)
    (listed : Lists table' status limit offset page) :
    page = ((arranged.drop offset).take limit, (matching table status).length) := by
  obtain ⟨⟨jobs, ⟨arranged', arranges', rfl⟩, first⟩, total⟩ := listed.answers
  obtain rfl := arranges.unique (separates_newestFirst distinct) same arranges'
  have apart : (arranged.map (·.id)).Nodup :=
    (arranges.rows.map _).nodup_iff.mpr ((List.filter_sublist.map _).nodup distinct)
  have cut : ((pageQuery status limit offset).page arranged).Sublist arranged :=
    (List.take_sublist _ _).trans (List.drop_sublist _ _)
  refine Prod.ext ?_ ?_
  · rw [first, unique_distinct ((cut.map _).nodup apart)]
    rfl
  · rw [total]
    exact (same.filter _).length_eq

/-- Reading the pages one after the other until one is empty gives every
matching job once and newest first, every page reports the number of matching
jobs, and no page depends on the order in which the table holds its rows. -/
theorem listJobs_partitions (distinct : (table.map (·.id)).Nodup) (positive : 1 ≤ limit)
    {pages : Nat → List ProcessingJob × Nat}
    (listed : ∀ k, Lists table status limit (k * limit) (pages k)) :
    (∃ n, (pages n).1 = [] ∧ (∀ k < n, (pages k).1 ≠ []) ∧
      ((List.range n).flatMap fun k => (pages k).1).Perm (matching table status) ∧
      ((List.range n).flatMap fun k => (pages k).1).Pairwise Newer) ∧
    (∀ k, (pages k).2 = (matching table status).length) ∧
    ∀ table', table'.Perm table → ∀ offset page page', Lists table status limit offset page →
      Lists table' status limit offset page' → page' = page := by
  obtain ⟨⟨-, ⟨arranged, arranges, -⟩, -⟩, -⟩ := (listed 0).answers
  have at_ (offset : Nat) : (pageQuery status limit offset).Arranges table arranged :=
    ⟨arranges.rows, arranges.ordered⟩
  have cut (k : Nat) : pages k = ((arranged.drop (k * limit)).take limit, (matching table status).length) :=
    (listed k).page_eq distinct (.refl table) (at_ _)
  refine ⟨?_, fun k => by rw [cut k], fun table' same offset page page' listed listed' => ?_⟩
  · obtain ⟨n, last, earlier, whole⟩ := pages_partition positive fun k => congrArg Prod.fst (cut k)
    refine ⟨n, last, earlier, ?_, ?_⟩
    · rw [whole, ← matching_eq]
      exact arranges.rows
    · rw [whole]
      exact newer_of_arranged arranges.ordered
        (arranges.rows.map _ |>.nodup_iff.mpr ((List.filter_sublist.map _).nodup distinct))
  · rw [listed.page_eq distinct (.refl table) (at_ offset), listed'.page_eq distinct same (at_ offset)]

end Listing

section Sample

def sampleJob (id : Nat) (createdAt : Time) (status : JobStatus) : ProcessingJob where
  id := id
  documentId := id
  status := status
  retryCount := 0
  maxRetries := 3
  errorMessage := none
  queuedAt := createdAt
  startedAt := none
  completedAt := none
  processingDurationMs := none
  consumerName := none
  createdAt := createdAt

def sampleTable : List ProcessingJob :=
  [sampleJob 0 5 .failed, sampleJob 1 7 .failed, sampleJob 2 6 .queued, sampleJob 3 5 .failed]

theorem listJobs_partitions_failed :
    (∃ n, unique ((pageQuery (some .failed) 2 (n * 2)).run sampleTable) = [] ∧
      (∀ k < n, unique ((pageQuery (some .failed) 2 (k * 2)).run sampleTable) ≠ []) ∧
      ((List.range n).flatMap fun k =>
        unique ((pageQuery (some .failed) 2 (k * 2)).run sampleTable)).Perm
          (matching sampleTable (some .failed)) ∧
      ((List.range n).flatMap fun k =>
        unique ((pageQuery (some .failed) 2 (k * 2)).run sampleTable)).Pairwise Newer) ∧
    (matching sampleTable (some .failed)).length = 3 := by
  have distinct : (sampleTable.map (·.id)).Nodup := by decide
  have listed (k : Nat) := lists_run sampleTable (some .failed) 2 (k * 2)
  exact ⟨(listJobs_partitions distinct (by decide) listed).1, by decide⟩

example : (unique ((pageQuery (some .failed) 2 0).run sampleTable)).map (·.id) = [1, 3] := by decide

end Sample

end JobService
end DocumentPipeline
