import DocumentPipeline.Events

/-! The identifier of an event names it. Every event in the system, on the
stream, in the retry set or in a scheduler's hands, is there once and shares its
identifier with no other, whatever crashes, is lost or is redelivered. -/

namespace DocumentPipeline
open EffectProgram Transition Queue

/-- The events of the stream in the order they were appended, those waiting in
the retry set, and those a scheduler has popped and not yet published. -/
def System.events (s : System) : List DocumentProcessingEvent :=
  s.world.redis.entries.flatMap (fun fields => World.eventsOf fields.data) ++
    decodeRetries (s.world.redis.retry.map (·.1)) ++ s.threads.flatMap (·.control.held)

theorem sum_getElem?_elim {α : Type} (f : α → Nat) (l : List α) :
    ∑ i ∈ Finset.range l.length, l[i]?.elim 0 f = (l.map f).sum := by
  induction l with
  | nil => rfl
  | cons a l ih =>
    rw [List.length_cons, Finset.sum_range_succ', List.map_cons, List.sum_cons, ← ih, Nat.add_comm]
    rfl

theorem eventsOf_reverse (payload : Option Payload) :
    (World.eventsOf payload).reverse = World.eventsOf payload := by
  obtain _ | ⟨_⟩ | ⟨_⟩ := payload <;> rfl

/-- The stream holds what has been published, oldest first. -/
def Streamed (w : World) : Prop :=
  w.published = (w.redis.entries.flatMap fun fields => World.eventsOf fields.data).reverse

section Calls
variable {env : Env} {x : Staged} {t : Nat} {choice : Choice}

theorem Streamed.call (streamed : Streamed x.1.world) (call : Call env x t choice) :
    Streamed call.world' := by
  have redis : call.world'.redis = call.o.redisAfter x.1.world choice := execute_redisAfter call.ran
  unfold Streamed at streamed ⊢
  rw [published_call call, streamed, redis]
  cases call.o with
  | runtime o => rfl
  | db o => rfl
  | redis o =>
    simp only [Op.redisAfter]
    cases applied : choice.applied with
    | false => cases o <;> simp only [Op.publishes, applied] <;> rfl
    | true =>
      cases o <;> try rfl
      simp only [Op.publishes, applied, if_true, Redis.run, List.flatMap_append,
        List.flatMap_singleton, List.reverse_append, eventsOf_reverse]

theorem StagedRun.streamed {guard : Guard} (h : StagedRun env guard x) : Streamed x.1.world := by
  refine h.invariant (I := fun x : Staged => Streamed x.1.world)
    (show Streamed System.init.world from rfl) fun _ _ _ _ streamed stepped _ => ?_
  obtain ⟨t, choice, call, -, rfl⟩ | noCall := (move_of_step stepped).call_or
  · exact streamed.call call
  · have rests := (move_of_step stepped).rests noCall
    unfold Streamed World.published at streamed ⊢
    rw [rests.history, rests.redis]
    exact streamed

theorem count_events (streamed : Streamed x.1.world) (event : DocumentProcessingEvent) :
    x.1.events.count event = copies x event := by
  have held : total x (fun th _ => th.control.held.count event) =
      (x.1.threads.flatMap (·.control.held)).count event := by
    rw [List.count_flatMap]
    exact sum_getElem?_elim (fun th : Thread => th.control.held.count event) x.1.threads
  unfold copies System.events
  rw [held, streamed, List.count_reverse, List.count_append, List.count_append, decodeRetries_count]
  omega

def Identified (x : Staged) : Prop :=
  ∀ event event', 0 < copies x event → 0 < copies x event' → event.eventId = event'.eventId →
    event = event'

theorem Identified.call (identified : Identified x) (unique : Unique x)
    (consistent : Consistent env x) (call : Call env x t choice) : Identified call.result := by
  intro event event' copied copied' same
  have absent : ∀ event₁ event₂ : DocumentProcessingEvent, event₁.eventId = event₂.eventId →
      (x.2 t).drawn? = some event₂.eventId → ¬0 < copies x event₁ := by
    intro event₁ event₂ same drawn positive
    rw [(unique.fresh t _ drawn).2 event₁ same] at positive
    cases positive
  have source := copies_source call consistent event
  have source' := copies_source call consistent event'
  have drawn := copies_call call consistent event
  have drawn' := copies_call call consistent event'
  by_cases fewer : copies call.result event ≤ copies x event
  · by_cases fewer' : copies call.result event' ≤ copies x event'
    · exact identified event event' (copied.trans_le fewer) (copied'.trans_le fewer') same
    · obtain isFewer | ⟨isDrawn, -⟩ := drawn'
      · exact absurd isFewer fewer'
      · exact absurd (copied.trans_le fewer) (absent event event' same isDrawn)
  · by_cases fewer' : copies call.result event' ≤ copies x event'
    · obtain isFewer | ⟨isDrawn, -⟩ := drawn
      · exact absurd isFewer fewer
      · exact absurd (copied'.trans_le fewer') (absent event' event same.symm isDrawn)
    · -- both are issued by this call, which issues one event
      obtain isFewer | ⟨-, -, issued⟩ := source
      · exact absurd isFewer fewer
      obtain isFewer | ⟨-, -, issued'⟩ := source'
      · exact absurd isFewer fewer'
      obtain ⟨item, row, eventId, is, rfl⟩ | ⟨request, row, eventId, is, -, one⟩ := issued
      · obtain ⟨item', row', eventId', is', rfl⟩ | ⟨request', row', eventId', is', -, -⟩ := issued'
        · obtain ⟨loop, rest, p, q, control, -⟩ := is.control
          obtain ⟨loop', rest', p', q', control', -⟩ := is'.control
          cases control.symm.trans control'
          cases is.staged.symm.trans is'.staged
          rfl
        · cases is.staged.symm.trans is'.staged
      · obtain ⟨item', row', eventId', is', rfl⟩ | ⟨request', row', eventId', is', -, one'⟩ := issued'
        · cases is.staged.symm.trans is'.staged
        · exact List.singleton_inj.mp (one.symm.trans one')

theorem copies_undisturbed (consistent : Consistent env x) {x' : Staged} {label : Label}
    (move : Move env x label x') (noCall : ∀ t choice, label ≠ .act t choice)
    (event : DocumentProcessingEvent) : copies x' event ≤ copies x event := by
  have held := total_undisturbed (f := fun th _ => th.control.held.count event) consistent move
    noCall fun th _ none_ => by rw [none_]; rfl
  have published : x'.1.world.published = x.1.world.published :=
    congrArg (List.filterMap _) (move.rests noCall).history
  simp only [copies, published, (move.rests noCall).redis]
  omega

theorem StagedRun.identified {guard : Guard} (h : StagedRun env guard x) : Identified x := by
  refine h.invariant (fun _ _ copied => (by cases copied)) fun _ _ _ reached identified stepped _ => ?_
  have consistent := StagedRun.consistent reached
  obtain ⟨t, choice, call, -, rfl⟩ | noCall := (move_of_step stepped).call_or
  · exact identified.call (StagedRun.unique reached) consistent call
  · intro event event' copied copied' same
    have fewer := copies_undisturbed consistent (move_of_step stepped) noCall
    exact identified event event' (copied.trans_le (fewer event)) (copied'.trans_le (fewer event'))
      same

end Calls

/-- No two events in the system have one identifier. -/
theorem event_ids_distinct {env : Env} {s : System} (h : Reached env anyRun s) :
    (s.events.map (·.eventId)).Nodup := by
  obtain ⟨g, staged⟩ := h.staged
  have counted := count_events (StagedRun.streamed staged)
  have unique := StagedRun.unique staged
  have identified := StagedRun.identified staged
  have single : s.events.Nodup := by
    refine List.nodup_iff_count_le_one.mpr fun event => ?_
    exact (counted event).le.trans (unique.single event)
  refine single.map_on fun event mem event' mem' same => ?_
  have copied := List.count_pos_iff.mpr mem
  have copied' := List.count_pos_iff.mpr mem'
  rw [show s.events.count event = _ from counted event] at copied
  rw [show s.events.count event' = _ from counted event'] at copied'
  exact identified event event' copied copied' same

/-- An attempt that times out leaves the first event on the stream and its
successor in the retry set. -/
theorem event_ids_distinct_timedOut : ∃ s, Reached sampleEnv anyRun s ∧
    s.events.map (·.attempt) = [0, 1] ∧ (s.events.map (·.eventId)).Nodup := by
  obtain ⟨s, reached, accepted⟩ := Reached.exists_run sampleEnv anyRun (fun _ _ _ => true)
    (fun s => s.events.map (·.attempt) = [0, 1]) (fun _ _ _ _ => trivial)
    ([.receive 0 sampleUpload] ++ Label.oks 0 14 ++ [.startWorker 1 "w"] ++ Label.timedOut 1)
    (by decide +kernel)
  exact ⟨s, reached, of_decide_eq_true accepted, event_ids_distinct reached⟩

end DocumentPipeline
