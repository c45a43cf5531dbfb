import DocumentPipeline.StorageKeys
import Mathlib.Logic.Relation

/-! The normal form of a path, by rewriting: empty and `.` segments go away, a
name and the `..` behind it cancel, and `..` at the top stays there. `resolve`
computes it and compares it with the root. -/

namespace DocumentPipeline.FileStorage

/-- One simplification of an absolute path. -/
inductive Simplifies : List String → List String → Prop
  | empty (front back : List String) : Simplifies (front ++ "" :: back) (front ++ back)
  | here (front back : List String) : Simplifies (front ++ "." :: back) (front ++ back)
  | up (front back : List String) {name : String} (proper : IsProper name) :
    Simplifies (front ++ name :: ".." :: back) (front ++ back)
  | top (back : List String) : Simplifies (".." :: back) back

def NormalForm (written normal : List String) : Prop :=
  Relation.ReflTransGen Simplifies written normal ∧ ∀ segment ∈ normal, IsProper segment

/-- The absolute path that a key spells: an absolute key replaces the root. -/
def written (root : List String) (storagePath : String) : List String :=
  if storagePath.toList.head? = some '/' then segments storagePath else root ++ segments storagePath

theorem follow_append (start front back : List String) :
    follow start (front ++ back) = follow (follow start front) back := List.foldl_append

theorem follow_cons (start : List String) (segment : String) (path : List String) :
    follow start (segment :: path) = follow (follow start [segment]) path := rfl

theorem follow_name {segment : String} (proper : IsProper segment) (start : List String) :
    follow start [segment] = start ++ [segment] :=
  follow_proper (fun _ among => (List.mem_singleton.mp among) ▸ proper) start

theorem follow_up (start : List String) : follow start [".."] = start.dropLast := rfl

theorem Simplifies.append {path path' : List String} (step : Simplifies path path')
    (back : List String) : Simplifies (path ++ back) (path' ++ back) := by
  cases step with
  | empty front rest =>
    rw [List.append_assoc, List.append_assoc]
    exact .empty front (rest ++ back)
  | here front rest =>
    rw [List.append_assoc, List.append_assoc]
    exact .here front (rest ++ back)
  | up front rest proper =>
    rw [List.append_assoc, List.append_assoc]
    exact .up front (rest ++ back) proper
  | top => exact .top (path' ++ back)

theorem Simplifies.follow_eq {path path' : List String} (step : Simplifies path path') :
    follow [] path = follow [] path' := by
  cases step with
  | empty front back | here front back =>
    rw [follow_append, follow_append, follow_cons]
    rfl
  | up front back proper =>
    rw [follow_append, follow_append, follow_cons, follow_name proper, follow_cons, follow_up,
      List.dropLast_concat]
  | top => rfl

theorem follow_of_steps {path path' : List String}
    (steps : Relation.ReflTransGen Simplifies path path') : follow [] path = follow [] path' := by
  induction steps with
  | refl => rfl
  | tail _ step ih => exact ih.trans step.follow_eq

theorem follow_normal {path : List String} (plain : ∀ segment ∈ path, '/' ∉ segment.toList) :
    NormalForm path (follow [] path) := by
  induction path using List.reverseRecOn with
  | nil => exact ⟨.refl, nofun⟩
  | append_singleton path segment ih =>
    obtain ⟨steps, proper⟩ := ih fun segment among => plain segment (List.mem_append_left _ among)
    have reached : Relation.ReflTransGen Simplifies (path ++ [segment]) (follow [] path ++ [segment]) :=
      steps.lift (· ++ [segment]) fun _ _ step => step.append [segment]
    rw [follow_append]
    by_cases some_ : segment = "" ∨ segment = "."
    · have stays : follow (follow [] path) [segment] = follow [] path := if_pos some_
      rw [stays]
      refine ⟨reached.tail ?_, proper⟩
      obtain rfl | rfl := some_
      · simpa using Simplifies.empty (follow [] path) []
      · simpa using Simplifies.here (follow [] path) []
    by_cases up : segment = ".."
    · obtain rfl := up
      rw [follow_up]
      obtain none_ | ⟨front, name, is⟩ := List.eq_nil_or_concat (follow [] path)
      · rw [none_] at reached ⊢
        exact ⟨reached.tail (.top []), nofun⟩
      · rw [is] at reached proper ⊢
        rw [List.concat_eq_append] at reached proper ⊢
        rw [List.dropLast_concat]
        refine ⟨reached.tail ?_, fun segment among => proper segment (List.mem_append_left _ among)⟩
        have cancels := Simplifies.up front [] (proper name (by simp))
        simpa using cancels
    · rw [not_or] at some_
      have name : IsProper segment := ⟨plain segment (by simp), some_.1, some_.2, up⟩
      rw [follow_name name]
      refine ⟨reached, fun other among => ?_⟩
      obtain earlier | last := List.mem_append.mp among
      · exact proper other earlier
      · rwa [List.mem_singleton.mp last]

/-- A path has one normal form, the one it is followed to. -/
theorem normalForm_iff {path normal : List String} (plain : ∀ segment ∈ path, '/' ∉ segment.toList) :
    NormalForm path normal ↔ normal = follow [] path := by
  constructor
  · rintro ⟨steps, proper⟩
    rw [follow_of_steps steps, follow_proper proper, List.nil_append]
  · rintro rfl
    exact follow_normal plain

theorem segments_separate {path segment : String} (among : segment ∈ segments path) :
    '/' ∉ segment.toList := by
  obtain ⟨part, split, rfl⟩ := List.mem_map.mp among
  rw [String.toList_ofList]
  exact (PyText.mem_splitOn split).1

section Root
variable {root : List String} (resolved : ∀ segment ∈ root, IsProper segment)
include resolved

theorem written_separate (storagePath : String) :
    ∀ segment ∈ written root storagePath, '/' ∉ segment.toList := by
  intro segment among
  unfold written at among
  split at among
  · exact segments_separate among
  · obtain above | below := List.mem_append.mp among
    · exact (resolved segment above).1
    · exact segments_separate below

/-- A key is accepted when its normal form is the root or lies below it. -/
theorem resolve_eq (storagePath : String) :
    resolve root storagePath = if root <+: follow [] (written root storagePath) then
      .ok (follow [] (written root storagePath))
    else .error (storagePathError "Resolved storage path lies outside the storage root." storagePath) := by
  have joined : follow [] (written root storagePath) =
      follow (if storagePath.toList.head? = some '/' then [] else root) (segments storagePath) := by
    unfold written
    split
    · rfl
    · rw [follow_append, follow_proper resolved, List.nil_append]
  rw [joined]
  rfl

theorem resolve_ok {storagePath : String} {path : List String} :
    resolve root storagePath = .ok path ↔ NormalForm (written root storagePath) path ∧ root <+: path := by
  rw [resolve_eq resolved, normalForm_iff (written_separate resolved storagePath)]
  constructor
  · intro accepted
    split at accepted
    · rename_i below
      cases accepted
      exact ⟨rfl, below⟩
    · cases accepted
  · rintro ⟨rfl, below⟩
    exact if_pos below

theorem resolve_error {storagePath : String} {path : List String}
    (normal : NormalForm (written root storagePath) path) :
    (∃ error, resolve root storagePath = .error error) ↔ ¬root <+: path := by
  rw [normalForm_iff (written_separate resolved storagePath)] at normal
  obtain rfl := normal
  rw [resolve_eq resolved]
  constructor
  · rintro ⟨error, rejected⟩ below
    rw [if_pos below] at rejected
    cases rejected
  · exact fun outside => ⟨_, if_neg outside⟩

end Root

/-- Two keys spell the same path. -/
def SameFile (root : List String) (storagePath storagePath' : String) : Prop :=
  ∃ path, NormalForm (written root storagePath) path ∧ NormalForm (written root storagePath') path

end DocumentPipeline.FileStorage
