import DocumentPipeline.StoragePaths
import Mathlib.Data.List.Infix

/-! Local storage as a key-value store. `save` and `read` run on a file system
of directories and files beside `delete` and `exists`; any operation may also
fail with an `OSError`, a write after it has left some of its directories and
any content of its file behind. -/

namespace DocumentPipeline.FileStorage
open EffectProgram

inductive StorageOp
  | core (o : Op)
  | unlink (path : List String)
  | isFile (path : List String)

@[reducible] def StorageOp.Val : StorageOp → Type
  | .core o => o.Val
  | .unlink _ => Unit
  | .isFile _ => Bool

abbrev StorageProg (α : Type) := Program StorageOp StorageOp.Val Exn α

def delete (env : Env) (storagePath : String) : StorageProg Unit := do
  let target ← Program.lift (resolve env.storageRoot storagePath)
  tryCatch (Program.perform (StorageOp.unlink target)) fun error =>
    if error.isOSError then throw (storageError "Failed to delete the stored file." storagePath)
    else throw error

/-- `exists`; `resolve` raises nothing but a `StoragePathError`. -/
def exists_ (env : Env) (storagePath : String) : StorageProg Bool :=
  match resolve env.storageRoot storagePath with
  | .error _ => pure false
  | .ok target => Program.perform (StorageOp.isFile target)

inductive Entry
  | file (data : Bytes)
  | directory
  deriving DecidableEq

/-- What stands at each absolute path. -/
abbrev Disk := List String → Option Entry

namespace Disk

def isFile (disk : Disk) (path : List String) : Bool :=
  match disk path with
  | some (.file _) => true
  | _ => false

def blocked (disk : Disk) (path : List String) : Bool :=
  path.inits.any fun above => above ≠ path && disk.isFile above

def notADirectory : Exn := .os "Not a directory"

def isADirectory : Exn := .os "Is a directory"

/-- `Path.read_bytes`. -/
def readBytes (disk : Disk) (path : List String) : Except Exn Bytes :=
  match disk path with
  | some (.file data) => .ok data
  | some .directory => .error isADirectory
  | none =>
    if disk.blocked path then .error notADirectory
    else .error (.fileNotFound "No such file or directory")

/-- `Path.unlink(missing_ok=True)`. -/
def unlink (disk : Disk) (path : List String) : Except Exn Disk :=
  match disk path with
  | some (.file _) => .ok (Function.update disk path none)
  | some .directory => .error isADirectory
  | none => if disk.blocked path then .error notADirectory else .ok disk

/-- `path.parent.mkdir(parents=True, exist_ok=True)`. -/
def makeParents (disk : Disk) (path : List String) : Disk := fun above =>
  if above <+: path ∧ above ≠ path then some .directory else disk above

/-- `_write_bytes`. -/
def writeBytes (disk : Disk) (path : List String) (data : Bytes) : Except Exn Disk :=
  if disk.blocked path then .error notADirectory
  else if disk path = some .directory then .error isADirectory
  else .ok (Function.update (disk.makeParents path) path (some (.file data)))

/-- A write of `path` was begun: nothing else has changed than its missing
directories and its own content. -/
def Began (disk : Disk) (path : List String) (disk' : Disk) : Prop :=
  ∀ at_, disk' at_ = disk at_ ∨
    (at_ <+: path ∧ at_ ≠ path ∧ disk at_ = none ∧ disk' at_ = some .directory) ∨
    (at_ = path ∧ disk at_ ≠ some .directory ∧ ∃ data, disk' at_ = some (.file data))

def Unused (disk : Disk) (uuid : Nat) : Prop :=
  ∀ path, disk path ≠ none → ∀ name ∈ path, ¬(uuidText uuid).toList <+: name.toList

end Disk

structure Storage where
  disk : Disk
  drawn : List Nat := []

/-- A UUID is new, to the disk and to the earlier draws. -/
def Storage.Fresh (storage : Storage) (uuid : Nat) : Prop :=
  uuid < 2 ^ 128 ∧ uuid ∉ storage.drawn ∧ storage.disk.Unused uuid

def StorageOp.touches : StorageOp → Option (List String)
  | .core (.runtime (.readBytes path)) | .core (.runtime (.writeBytes path _)) => some path
  | .unlink path | .isFile path => some path
  | _ => none

/-- The replies of the system; `faulty` calls may fail for reasons of their own. -/
def answers (faulty : StorageOp → Prop) (storage : Storage) :
    (o : StorageOp) → Except Exn o.Val → Storage → Prop
  | .core (.runtime .uuid4), .ok uuid, storage' =>
    storage.Fresh uuid ∧ storage' = { storage with drawn := uuid :: storage.drawn }
  | .core (.runtime .utcnow), .ok _, storage' => storage' = storage
  | .core (.runtime (.writeBytes path data)), .ok _, storage' =>
    ∃ disk, storage.disk.writeBytes path data = .ok disk ∧ storage' = { storage with disk }
  | .core (.runtime (.writeBytes path data)), .error error, storage' =>
    error.isOSError = true ∧
      (faulty (.core (.runtime (.writeBytes path data))) ∨
        ∃ cause, storage.disk.writeBytes path data = .error cause) ∧
      ∃ disk, storage.disk.Began path disk ∧ storage' = { storage with disk }
  | .core (.runtime (.readBytes path)), r, storage' => storage' = storage ∧
    (r = storage.disk.readBytes path ∨
      faulty (.core (.runtime (.readBytes path))) ∧ ∃ error, r = .error error ∧ error.isOSError = true)
  | .unlink path, .ok _, storage' =>
    ∃ disk, storage.disk.unlink path = .ok disk ∧ storage' = { storage with disk }
  | .unlink path, .error error, storage' => storage' = storage ∧
    (storage.disk.unlink path = .error error ∨ faulty (.unlink path) ∧ error.isOSError = true)
  | .isFile path, r, storage' => storage' = storage ∧
    (r = .ok (storage.disk.isFile path) ∨
      faulty (.isFile path) ∧ ∃ error, r = .error error ∧ error.isOSError = true)
  | _, _, _ => False

/-- A call may touch nothing outside the root. -/
def onDisk (root : List String) (faulty : StorageOp → Prop) :
    Protocol StorageOp StorageOp.Val Exn Storage where
  permits _ o := ∀ path, o.touches = some path → root <+: path
  next := answers faulty

/-- The gate hands over extensions without a separator. -/
abbrev FileExtension := { extension : String // '/' ∉ extension.toList }

inductive Call
  | save (data : Bytes) (extension : FileExtension)
  | read (storagePath : String)
  | delete (storagePath : String)
  | exists_ (storagePath : String)

namespace Call

@[reducible] def Answer : Call → Type
  | .save .. => StoredFile
  | .read _ => Bytes
  | .delete _ => Unit
  | .exists_ _ => Bool

def program (env : Env) : (call : Call) → StorageProg call.Answer
  | .save data extension => (FileStorage.save env data extension.1).embed .core
  | .read storagePath => (FileStorage.read env storagePath).embed .core
  | .delete storagePath => FileStorage.delete env storagePath
  | .exists_ storagePath => FileStorage.exists_ env storagePath

end Call

structure Answered where
  call : Call
  answer : Except Exn call.Answer

/-- A sequence of calls, the latest first. -/
inductive Session (env : Env) (faulty : StorageOp → Prop) :
    Storage → List Answered → Storage → Prop
  | start (storage : Storage) : Session env faulty storage [] storage
  | call {storage storage' storage'' : Storage} {calls : List Answered} (answered : Answered)
      (earlier : Session env faulty storage calls storage')
      (ended : (answered.call.program env).Ends (onDisk env.storageRoot faulty) storage'
        answered.answer storage'') :
    Session env faulty storage (answered :: calls) storage''

/-- What `read` gives when no call fails for reasons of its own. -/
def Reads (env : Env) (storage : Storage) (storagePath : String) (answer : Except Exn Bytes) : Prop :=
  ((Call.read storagePath).program env).Ends (onDisk env.storageRoot fun _ => False) storage answer
    storage

/-- The root is a directory, and so is all above it. -/
def Mounted (root : List String) (storage : Storage) : Prop :=
  ∀ above, above <+: root → storage.disk above = some .directory

/-- The `except` clauses of `read`. -/
def readError (storagePath : String) : Exn → Exn
  | .fileNotFound _ => storagePathError "The stored file no longer exists." storagePath
  | _ => storageError "Failed to read the stored file." storagePath

def contents (env : Env) (storage : Storage) (storagePath : String) : Except Exn Bytes :=
  match resolve env.storageRoot storagePath with
  | .error error => .error error
  | .ok target => (storage.disk.readBytes target).mapError (readError storagePath)

section Reading
variable {env : Env} {faulty : StorageOp → Prop} {storage : Storage} {storagePath : String}

theorem readBytes_ok {disk : Disk} {path : List String} {data : Bytes} :
    disk.readBytes path = .ok data ↔ disk path = some (.file data) := by
  unfold Disk.readBytes
  split
  · rename_i found
    rw [found]
    simp
  · rename_i found
    rw [found]
    simp
  · rename_i missing
    rw [missing]
    split <;> simp

theorem contents_ok {data : Bytes} : contents env storage storagePath = .ok data ↔
    ∃ path, resolve env.storageRoot storagePath = .ok path ∧ storage.disk path = some (.file data) := by
  unfold contents
  cases resolve env.storageRoot storagePath with
  | error error =>
    constructor
    · nofun
    · rintro ⟨path, same, -⟩
      cases same
  | ok target =>
    constructor
    · intro returned
      refine ⟨target, rfl, readBytes_ok.mp ?_⟩
      cases read : storage.disk.readBytes target with
      | ok data' =>
        simp only [read] at returned
        exact returned
      | error error =>
        simp only [read] at returned
        cases returned
    · rintro ⟨_, ⟨rfl⟩, found⟩
      simp only [readBytes_ok.mpr found]
      rfl

theorem readBytes_error {disk : Disk} {path : List String} {error : Exn}
    (failed : disk.readBytes path = .error error) :
    error = .fileNotFound "No such file or directory" ∨ error = Disk.notADirectory ∨
      error = Disk.isADirectory := by
  unfold Disk.readBytes at failed
  split at failed
  · cases failed
  · exact .inr (.inr (Except.error.inj failed).symm)
  · split at failed
    · exact .inr (.inl (Except.error.inj failed).symm)
    · exact .inl (Except.error.inj failed).symm

theorem resolve_below {root target : List String} (accepted : resolve root storagePath = .ok target) :
    root <+: target := by
  simp only [resolve] at accepted
  split at accepted <;> split at accepted <;> cases accepted <;> assumption

theorem read_wp : wp (onDisk env.storageRoot faulty) ((Call.read storagePath).program env)
    (fun answer storage' => storage' = storage ∧
      ((∀ o, ¬faulty o) → answer = contents env storage storagePath)) storage := by
  unfold contents
  refine (wp_embed _ _ _ _ _).mpr ((wp_bind _ _ _ _ _).mpr ((wp_lift _ _ _ _).mpr ?_))
  cases inside : resolve env.storageRoot storagePath with
  | error error => exact ⟨rfl, fun _ => rfl⟩
  | ok target =>
    refine (wp_tryCatch _ _ _ _ _).mpr ((wp_perform _ _ _ _).mpr ⟨?_, ?_⟩)
    · rintro _ ⟨rfl⟩
      exact resolve_below inside
    rintro reply storage' ⟨rfl, answered⟩
    obtain same | ⟨broken, error, rfl, -⟩ := answered
    · cases reply with
      | ok data => exact ⟨rfl, fun _ => by simp only [← same]; rfl⟩
      | error error =>
        obtain rfl | rfl | rfl := readBytes_error same.symm
        all_goals exact ⟨rfl, fun _ => by simp only [← same]; rfl⟩
    · cases error <;> exact ⟨rfl, fun sound => absurd broken (sound _)⟩

theorem reads_iff {answer : Except Exn Bytes} :
    Reads env storage storagePath answer ↔ answer = contents env storage storagePath := by
  constructor
  · exact fun ended => (ended.post read_wp).2 fun _ => not_false
  · rintro rfl
    unfold Reads contents
    cases inside : resolve env.storageRoot storagePath with
    | error error =>
      have stopped : (Call.read storagePath).program env = .raise error := by
        simp only [Call.program, FileStorage.read, inside]
        rfl
      rw [stopped]
      exact .raise error storage
    | ok target =>
      simp only [Call.program, FileStorage.read, inside]
      generalize read : storage.disk.readBytes target = reply
      have moved : (onDisk env.storageRoot fun _ => False).next storage
          (.core (.runtime (.readBytes target))) reply storage := ⟨rfl, .inl read.symm⟩
      refine .call moved ?_
      cases reply with
      | ok data => exact .ret data storage
      | error error =>
        obtain rfl | rfl | rfl := readBytes_error read
        all_goals exact .raise _ storage

end Reading

/-- What a `save` leaves behind, the UUID and the clock reading given. -/
structure Filed (env : Env) (storage : Storage) (data : Bytes) (extension : FileExtension)
    (answer : Except Exn StoredFile) (storage' : Storage) (uuid : Nat) (today : Time) : Prop where
  fresh : storage.Fresh uuid
  drawn : storage'.drawn = uuid :: storage.drawn
  began : storage.disk.Began (env.storageRoot ++ dateParts today ++ [uuidText uuid ++ extension.1])
    storage'.disk
  stored : ∀ stored, answer = .ok stored →
    stored.storagePath = dateDirectory today ++ "/" ++ (uuidText uuid ++ extension.1) ∧
      storage'.disk (env.storageRoot ++ dateParts today ++ [uuidText uuid ++ extension.1]) =
        some (.file data)

section Writing
variable {disk disk' : Disk} {path : List String} {data : Bytes}

theorem blocked_of_file {above : List String} (within : above <+: path) (other : above ≠ path)
    {content : Bytes} (file : disk above = some (.file content)) : disk.blocked path = true := by
  refine List.any_eq_true.mpr ⟨above, List.mem_inits _ _ |>.mpr within, ?_⟩
  simp [other, Disk.isFile, file]

theorem writeBytes_began (written : disk.writeBytes path data = .ok disk') :
    disk.Began path disk' ∧ disk' path = some (.file data) := by
  unfold Disk.writeBytes at written
  split_ifs at written with blocked directory
  cases written
  refine ⟨fun at_ => ?_, Function.update_self ..⟩
  by_cases here : at_ = path
  · obtain rfl := here
    exact .inr (.inr ⟨rfl, directory, data, Function.update_self ..⟩)
  rw [Function.update_of_ne here]
  unfold Disk.makeParents
  by_cases above : at_ <+: path ∧ at_ ≠ path
  · rw [if_pos above]
    match found : disk at_ with
    | none => exact .inr (.inl ⟨above.1, here, rfl, rfl⟩)
    | some .directory => exact .inl rfl
    | some (.file content) => exact absurd (blocked_of_file above.1 here found) blocked
  · rw [if_neg above]
    exact .inl rfl

end Writing

section Saving
variable {env : Env} {faulty : StorageOp → Prop} {storage : Storage}

theorem stored_name (uuid : Nat) (extension : FileExtension) :
    IsProper (uuidText uuid ++ extension.1) := by
  have some_ : (uuidText uuid).toList ≠ [] := by simp [uuidText]
  have undotted := (uuidText_plain uuid).1
  have first : ∀ text, uuidText uuid ++ extension.1 = text → text.toList.head? ≠ some '.' := by
    rintro _ rfl dot
    rw [String.toList_append, List.head?_append_of_ne_nil _ some_] at dot
    exact undotted (List.mem_of_head? dot)
  refine ⟨?_, ?_, ?_, ?_⟩
  · rw [String.toList_append, List.mem_append, not_or]
    exact ⟨(uuidText_plain uuid).2, extension.2⟩
  · intro none_
    rw [String.append_eq_empty_iff] at none_
    exact some_ (by rw [none_.1]; rfl)
  · exact fun dot => first _ dot rfl
  · exact fun dots => first _ dots rfl

theorem save_wp (data : Bytes) (extension : FileExtension) :
    wp (onDisk env.storageRoot faulty) ((Call.save data extension).program env)
      (fun answer storage' => ∃ uuid today, Filed env storage data extension answer storage' uuid today)
      storage := by
  refine (wp_embed _ _ _ _ _).mpr ((wp_bind _ _ _ _ _).mpr ((wp_perform _ _ _ _).mpr ⟨nofun, ?_⟩))
  rintro (_ | uuid) storage₁ moved
  · exact moved.elim
  obtain ⟨fresh, rfl⟩ := moved
  refine (wp_bind _ _ _ _ _).mpr ((wp_perform _ _ _ _).mpr ⟨nofun, ?_⟩)
  rintro (_ | today) storage₂ moved
  · exact moved.elim
  obtain rfl := moved
  refine (wp_bind _ _ _ _ _).mpr ((wp_lift _ _ _ _).mpr ?_)
  have inside : resolve env.storageRoot (dateDirectory today ++ "/" ++ (uuidText uuid ++ extension.1)) =
      .ok (env.storageRoot ++ dateParts today ++ [uuidText uuid ++ extension.1]) :=
    resolve_dated (stored_name uuid extension)
  simp only [inside]
  refine (wp_bind _ _ _ _ _).mpr ((wp_tryCatch _ _ _ _ _).mpr ((wp_perform _ _ _ _).mpr ⟨?_, ?_⟩))
  · rintro _ ⟨rfl⟩
    rw [List.append_assoc]
    exact List.prefix_append _ _
  rintro (error | _) storage₃ moved
  · obtain ⟨os, -, disk, began, rfl⟩ := moved
    simp only [os]
    exact ⟨uuid, today, fresh, rfl, began, nofun⟩
  · obtain ⟨disk, written, rfl⟩ := moved
    obtain ⟨began, file⟩ := writeBytes_began written
    refine ⟨uuid, today, fresh, rfl, began, ?_⟩
    rintro _ ⟨rfl⟩
    exact ⟨rfl, file⟩

end Saving

section Removing
variable {env : Env} {faulty : StorageOp → Prop} {storage : Storage} {storagePath : String}

theorem unlink_ok {disk disk' : Disk} {path : List String} (removed : disk.unlink path = .ok disk') :
    disk' = disk ∨ (∃ data, disk path = some (.file data)) ∧ disk' = Function.update disk path none := by
  unfold Disk.unlink at removed
  split at removed
  · rename_i data file
    cases removed
    exact .inr ⟨⟨data, file⟩, rfl⟩
  · cases removed
  · split at removed <;> cases removed
    exact .inl rfl

theorem delete_wp : wp (onDisk env.storageRoot faulty) ((Call.delete storagePath).program env)
    (fun _ storage' => storage' = storage ∨ ∃ path data,
      resolve env.storageRoot storagePath = .ok path ∧ storage.disk path = some (.file data) ∧
        storage' = { storage with disk := Function.update storage.disk path none }) storage := by
  refine (wp_bind _ _ _ _ _).mpr ((wp_lift _ _ _ _).mpr ?_)
  cases inside : resolve env.storageRoot storagePath with
  | error error => exact .inl rfl
  | ok target =>
    refine (wp_tryCatch _ _ _ _ _).mpr ((wp_perform _ _ _ _).mpr ⟨?_, ?_⟩)
    · rintro _ ⟨rfl⟩
      exact resolve_below inside
    rintro (error | _) storage' moved
    · obtain ⟨rfl, -⟩ := moved
      dsimp only
      split <;> exact .inl rfl
    · obtain ⟨disk, removed, rfl⟩ := moved
      obtain rfl | ⟨⟨data, file⟩, rfl⟩ := unlink_ok removed
      · exact .inl rfl
      · exact .inr ⟨target, data, rfl, file, rfl⟩

theorem exists_wp : wp (onDisk env.storageRoot faulty) ((Call.exists_ storagePath).program env)
    (fun _ storage' => storage' = storage) storage := by
  change wp _ (exists_ env storagePath) _ _
  unfold exists_
  cases inside : resolve env.storageRoot storagePath with
  | error error => exact (wp_pure _ _ _ _).mpr rfl
  | ok target =>
    refine (wp_perform _ _ _ _).mpr ⟨?_, ?_⟩
    · rintro _ ⟨rfl⟩
      exact resolve_below inside
    · rintro reply storage' ⟨rfl, -⟩
      cases reply <;> rfl

end Removing

inductive Effect (env : Env) (storage : Storage) : (call : Call) → Except Exn call.Answer → Storage → Prop
  | saved {data : Bytes} {extension : FileExtension} {answer : Except Exn StoredFile}
      {storage' : Storage} {uuid : Nat} {today : Time}
      (filed : Filed env storage data extension answer storage' uuid today) :
    Effect env storage (.save data extension) answer storage'
  | untouched {call : Call} (answer : Except Exn call.Answer)
      (other : ∀ data extension, call ≠ .save data extension) : Effect env storage call answer storage
  | removed {storagePath : String} {path : List String} {data : Bytes} (answer : Except Exn Unit)
      (inside : resolve env.storageRoot storagePath = .ok path)
      (file : storage.disk path = some (.file data)) :
    Effect env storage (.delete storagePath) answer
      { storage with disk := Function.update storage.disk path none }

section Effects
variable {env : Env} {faulty : StorageOp → Prop} {storage storage' : Storage} {call : Call}
  {answer : Except Exn call.Answer}

theorem call_wp (call : Call) : wp (onDisk env.storageRoot faulty) (call.program env)
    (fun answer storage' => Effect env storage call answer storage') storage := by
  cases call with
  | save data extension =>
    refine wp_mono _ ?_ (save_wp data extension)
    rintro answer storage' ⟨uuid, today, filed⟩
    exact .saved filed
  | read storagePath =>
    refine wp_mono _ ?_ read_wp
    rintro answer _ ⟨rfl, -⟩
    exact .untouched answer nofun
  | delete storagePath =>
    refine wp_mono _ ?_ delete_wp
    rintro answer _ (rfl | ⟨path, data, inside, file, rfl⟩)
    · exact .untouched answer nofun
    · exact .removed answer inside file
  | exists_ storagePath =>
    refine wp_mono _ ?_ exists_wp
    rintro answer _ rfl
    exact .untouched answer nofun

theorem Effect.drawn (effect : Effect env storage call answer storage') :
    storage.drawn ⊆ storage'.drawn := by
  cases effect with
  | saved filed =>
    rw [filed.drawn]
    exact List.subset_cons_self _ _
  | untouched | removed => exact List.Subset.refl _

theorem Filed.absent {data : Bytes} {extension : FileExtension} {answer : Except Exn StoredFile}
    {uuid : Nat} {today : Time} (filed : Filed env storage data extension answer storage' uuid today) :
    storage.disk (env.storageRoot ++ dateParts today ++ [uuidText uuid ++ extension.1]) = none := by
  by_contra found
  refine filed.fresh.2.2 _ found _ (List.mem_append_right _ List.mem_cons_self) ?_
  rw [String.toList_append]
  exact List.prefix_append _ _

theorem Effect.directory (effect : Effect env storage call answer storage') {path : List String}
    (directory : storage.disk path = some .directory) : storage'.disk path = some .directory := by
  cases effect with
  | saved filed =>
    obtain same | ⟨-, -, none_, -⟩ | ⟨-, other, -⟩ := filed.began path
    · rw [same, directory]
    · cases none_.symm.trans directory
    · exact absurd directory other
  | untouched => exact directory
  | removed answer inside file =>
    refine (Function.update_of_ne ?_ _ _).trans directory
    rintro rfl
    cases file.symm.trans directory

theorem Effect.mounted (effect : Effect env storage call answer storage')
    (mounted : Mounted env.storageRoot storage) : Mounted env.storageRoot storage' :=
  fun above within => effect.directory (mounted above within)

theorem Effect.outside (effect : Effect env storage call answer storage')
    (mounted : Mounted env.storageRoot storage) {path : List String}
    (outside : ¬env.storageRoot <+: path) : storage'.disk path = storage.disk path := by
  cases effect with
  | @saved _ extension _ _ uuid today filed =>
    have below : env.storageRoot <+:
        env.storageRoot ++ dateParts today ++ [uuidText uuid ++ extension.1] := by
      rw [List.append_assoc]
      exact List.prefix_append _ _
    obtain same | ⟨above, -, none_, -⟩ | ⟨rfl, -⟩ := filed.began path
    · exact same
    · obtain within | within := List.prefix_or_prefix_of_prefix above below
      · cases none_.symm.trans (mounted path within)
      · exact absurd within outside
    · exact absurd below outside
  | untouched => rfl
  | removed answer inside file =>
    refine Function.update_of_ne ?_ _ _
    rintro rfl
    exact outside (resolve_below inside)

theorem Effect.file (effect : Effect env storage call answer storage') {path : List String}
    {data : Bytes} (file : storage.disk path = some (.file data))
    (spared : ∀ key, call = .delete key → resolve env.storageRoot key ≠ .ok path) :
    storage'.disk path = some (.file data) := by
  cases effect with
  | saved filed =>
    obtain same | ⟨-, -, none_, -⟩ | ⟨rfl, -⟩ := filed.began path
    · rw [same, file]
    · cases none_.symm.trans file
    · cases filed.absent.symm.trans file
  | untouched => exact file
  | removed answer inside =>
    refine (Function.update_of_ne ?_ _ _).trans file
    rintro rfl
    exact spared _ rfl inside

end Effects

section Sessions
variable {env : Env} {faulty : StorageOp → Prop} {storage storage' : Storage} {calls : List Answered}

theorem Session.mounted (session : Session env faulty storage calls storage')
    (mounted : Mounted env.storageRoot storage) : Mounted env.storageRoot storage' := by
  induction session with
  | start => exact mounted
  | call answered _ ended ih => exact (ended.post (call_wp _)).mounted ih

theorem Session.outside (session : Session env faulty storage calls storage')
    (mounted : Mounted env.storageRoot storage) {path : List String}
    (outside : ¬env.storageRoot <+: path) : storage'.disk path = storage.disk path := by
  induction session with
  | start => rfl
  | call answered earlier ended ih =>
    rw [(ended.post (call_wp _)).outside (earlier.mounted mounted) outside, ih]

/-- What stands at a path after calls that delete no key of it. -/
theorem Session.file (session : Session env faulty storage calls storage') {path : List String}
    {data : Bytes} (file : storage.disk path = some (.file data))
    (spared : ∀ answered ∈ calls, ∀ key, answered.call = .delete key →
      resolve env.storageRoot key ≠ .ok path) : storage'.disk path = some (.file data) := by
  induction session with
  | start => exact file
  | call answered _ ended ih =>
    have before := ih fun other among => spared other (List.mem_cons_of_mem _ among)
    exact (ended.post (call_wp _)).file before (spared answered List.mem_cons_self)

theorem Session.split {later earlier : List Answered} {answered : Answered}
    (session : Session env faulty storage (later ++ answered :: earlier) storage') :
    ∃ before after, Session env faulty storage earlier before ∧
      (answered.call.program env).Ends (onDisk env.storageRoot faulty) before answered.answer after ∧
      Session env faulty after later storage' := by
  induction later generalizing storage' with
  | nil =>
    cases session with
    | call _ earlier ended => exact ⟨_, _, earlier, ended, .start _⟩
  | cons last later ih =>
    cases session with
    | call _ earlier ended =>
      obtain ⟨before, after, first, here, rest⟩ := ih earlier
      exact ⟨before, after, first, here, .call last rest ended⟩

theorem Session.key (session : Session env faulty storage calls storage') {data : Bytes}
    {extension : FileExtension} {stored : StoredFile}
    (among : ⟨.save data extension, .ok stored⟩ ∈ calls) :
    ∃ uuid ∈ storage'.drawn, uuid < 2 ^ 128 ∧ ∃ today,
      stored.storagePath = dateDirectory today ++ "/" ++ (uuidText uuid ++ extension.1) := by
  induction session with
  | start => cases among
  | call answered _ ended ih =>
    have effect := ended.post (call_wp _)
    obtain rfl | earlier := List.mem_cons.mp among
    · cases effect with
      | @saved _ _ _ _ uuid today filed =>
        refine ⟨uuid, ?_, filed.fresh.1, today, (filed.stored stored rfl).1⟩
        rw [filed.drawn]
        exact List.mem_cons_self
      | untouched _ other => exact absurd rfl (other data extension)
    · obtain ⟨uuid, drawn, rest⟩ := ih earlier
      exact ⟨uuid, effect.drawn drawn, rest⟩

end Sessions

section Names
variable {env : Env} {storage storage' : Storage} {uuid uuid' : Nat} {today today' : Time}
  {extension extension' : FileExtension}

theorem name_uuid (bits : uuid < 2 ^ 128) (bits' : uuid' < 2 ^ 128)
    (same : uuidText uuid ++ extension.1 = uuidText uuid' ++ extension'.1) : uuid = uuid' := by
  have chars := congrArg String.toList same
  rw [String.toList_append, String.toList_append] at chars
  have lengths : (uuidText uuid).toList.length = (uuidText uuid').toList.length := by
    rw [String.length_toList, String.length_toList, uuidText_length bits, uuidText_length bits']
  exact uuidText_inj (String.toList_inj.mp (List.append_inj chars lengths).1)

theorem stored_length (root : List String) (today : Time) (name : String) :
    (root ++ dateParts today ++ [name]).length = root.length + 4 := by
  simp [dateParts]

theorem readBytes_congr {disk disk' : Disk} {path : List String} (same : disk' path = disk path)
    (above : ∀ p, p <+: path → p ≠ path → disk'.isFile p = disk.isFile p) :
    disk'.readBytes path = disk.readBytes path := by
  have blocked : disk'.blocked path = disk.blocked path := by
    unfold Disk.blocked
    rw [Bool.eq_iff_iff, List.any_eq_true, List.any_eq_true]
    refine exists_congr fun p => and_congr_right fun among => ?_
    by_cases other : p = path
    · simp only [other, ne_eq, not_true_eq_false, decide_false, Bool.false_and]
    · rw [above p ((List.mem_inits _ _).mp among) other]
  unfold Disk.readBytes
  rw [same, blocked]

theorem Filed.contents_eq {data : Bytes} {answer : Except Exn StoredFile}
    (filed : Filed env storage data extension answer storage' uuid today)
    (earlier : uuid' ∈ storage.drawn) (bits' : uuid' < 2 ^ 128) :
    contents env storage' (dateDirectory today' ++ "/" ++ (uuidText uuid' ++ extension'.1)) =
      contents env storage (dateDirectory today' ++ "/" ++ (uuidText uuid' ++ extension'.1)) := by
  obtain ⟨bits, undrawn, -⟩ := filed.fresh
  have apart : env.storageRoot ++ dateParts today' ++ [uuidText uuid' ++ extension'.1] ≠
      env.storageRoot ++ dateParts today ++ [uuidText uuid ++ extension.1] := by
    intro same
    have last := congrArg List.getLast? same
    rw [List.getLast?_concat, List.getLast?_concat] at last
    obtain rfl := name_uuid bits' bits (Option.some.inj last)
    exact undrawn earlier
  have began := filed.began
  unfold contents
  rw [resolve_dated (stored_name uuid' extension')]
  simp only
  generalize here : env.storageRoot ++ dateParts today' ++ [uuidText uuid' ++ extension'.1] = path at apart ⊢
  generalize there : env.storageRoot ++ dateParts today ++ [uuidText uuid ++ extension.1] = target at apart began
  have lengths : path.length = target.length := by
    rw [← here, ← there, stored_length, stored_length]
  rw [readBytes_congr]
  · obtain same | ⟨within, other, -⟩ | ⟨same, -⟩ := began path
    · exact same
    · exact absurd (within.eq_of_length lengths) other
    · exact absurd same apart
  · intro p within other
    unfold Disk.isFile
    obtain same | ⟨-, -, none_, made⟩ | ⟨rfl, -⟩ := began p
    · rw [same]
    · rw [none_, made]
    · exact absurd (within.eq_of_length lengths.symm) other

end Names

/-- What holds after any sequence of calls: the next call stays below the root,
nothing outside it has changed, the key of a save reads its bytes while no key
of the same path is deleted, and one more save changes no file that a key reads,
nor anything that the key of an earlier save reads. -/
structure Isolated (env : Env) (faulty : StorageOp → Prop) (storage : Storage)
    (calls : List Answered) (storage' : Storage) : Prop where
  confined : ∀ call : Call,
    wp (onDisk env.storageRoot faulty) (call.program env) (fun _ _ => True) storage'
  outside : ∀ path, ¬env.storageRoot <+: path → storage'.disk path = storage.disk path
  returned : ∀ later data extension stored earlier,
    calls = later ++ ⟨.save data extension, .ok stored⟩ :: earlier →
    (∀ answered ∈ later, ∀ key, answered.call = .delete key →
      ¬SameFile env.storageRoot key stored.storagePath) →
    ∀ answer, Reads env storage' stored.storagePath answer ↔ answer = .ok data
  kept : ∀ data extension answer storage'',
    ((Call.save data extension).program env).Ends (onDisk env.storageRoot faulty) storage' answer
      storage'' →
    (∀ key content, Reads env storage' key (.ok content) → Reads env storage'' key (.ok content)) ∧
    ∀ earlier extension' stored, ⟨.save earlier extension', .ok stored⟩ ∈ calls → ∀ answer',
      Reads env storage'' stored.storagePath answer' ↔ Reads env storage' stored.storagePath answer'

section Isolation
variable {env : Env} {faulty : StorageOp → Prop} {storage storage' : Storage} {calls : List Answered}

theorem resolve_sameFile {root : List String} (resolved : ∀ segment ∈ root, IsProper segment)
    {key key' : String} {path : List String} (first : resolve root key = .ok path)
    (second : resolve root key' = .ok path) : SameFile root key key' :=
  ⟨path, ((resolve_ok resolved).mp first).1, ((resolve_ok resolved).mp second).1⟩

theorem Session.returned (resolved : ∀ segment ∈ env.storageRoot, IsProper segment)
    {later earlier : List Answered} {data : Bytes} {extension : FileExtension} {stored : StoredFile}
    (session : Session env faulty storage (later ++ ⟨.save data extension, .ok stored⟩ :: earlier) storage')
    (spared : ∀ answered ∈ later, ∀ key, answered.call = .delete key →
      ¬SameFile env.storageRoot key stored.storagePath) :
    contents env storage' stored.storagePath = .ok data := by
  obtain ⟨before, after, -, ended, rest⟩ := session.split
  obtain ⟨uuid, today, filed⟩ := ended.post (save_wp data extension)
  obtain ⟨key, file⟩ := filed.stored stored rfl
  have inside : resolve env.storageRoot (dateDirectory today ++ "/" ++ (uuidText uuid ++ extension.1)) =
      .ok (env.storageRoot ++ dateParts today ++ [uuidText uuid ++ extension.1]) :=
    resolve_dated (stored_name uuid extension)
  rw [← key] at inside
  refine contents_ok.mpr ⟨_, inside, rest.file file fun answered among deleted is same => ?_⟩
  exact spared answered among deleted is (resolve_sameFile resolved same inside)

theorem Session.kept (session : Session env faulty storage calls storage') {data : Bytes}
    {extension : FileExtension} {answer : Except Exn StoredFile} {storage'' : Storage}
    (ended : ((Call.save data extension).program env).Ends (onDisk env.storageRoot faulty) storage'
      answer storage'') :
    (∀ key content, contents env storage' key = .ok content →
      contents env storage'' key = .ok content) ∧
    ∀ earlier extension' stored, ⟨.save earlier extension', .ok stored⟩ ∈ calls →
      contents env storage'' stored.storagePath = contents env storage' stored.storagePath := by
  constructor
  · intro key content found
    obtain ⟨path, inside, file⟩ := contents_ok.mp found
    exact contents_ok.mpr ⟨path, inside, (ended.post (call_wp _)).file file fun _ => nofun⟩
  · intro earlier extension' stored among
    obtain ⟨uuid, today, filed⟩ := ended.post (save_wp data extension)
    obtain ⟨uuid', drawn, bits, today', key⟩ := session.key among
    rw [key]
    exact filed.contents_eq drawn bits

/-- A key has one normal path; it is rejected, and nothing exists there, when
that path is neither the root nor below it. -/
def Guarded (env : Env) (key : String) : Prop :=
  ∃ path, (∀ path', NormalForm (written env.storageRoot key) path' ↔ path' = path) ∧
    ((∃ error, resolve env.storageRoot key = .error error) ↔ ¬env.storageRoot <+: path) ∧
    (¬env.storageRoot <+: path → exists_ env key = pure false)

theorem guarded (resolved : ∀ segment ∈ env.storageRoot, IsProper segment) (key : String) :
    Guarded env key := by
  have plain := written_separate resolved key
  have normal := follow_normal plain
  refine ⟨_, fun path' => normalForm_iff plain, resolve_error resolved normal, fun outside => ?_⟩
  obtain ⟨error, rejected⟩ := (resolve_error resolved normal).mpr outside
  unfold exists_
  simp only [rejected]

/-- Local storage is isolated, over every sequence of calls with any keys. -/
theorem storage_isolated (resolved : ∀ segment ∈ env.storageRoot, IsProper segment)
    (mounted : Mounted env.storageRoot storage)
    (session : Session env faulty storage calls storage') :
    (∀ key, Guarded env key) ∧ Isolated env faulty storage calls storage' := by
  refine ⟨guarded resolved, ?_, fun path => session.outside mounted, ?_, ?_⟩
  · exact fun call => wp_mono _ (fun _ _ _ => trivial) (call_wp call)
  · rintro later data extension stored earlier rfl spared answer
    rw [reads_iff, session.returned resolved spared]
  · intro data extension answer storage'' ended
    obtain ⟨files, same⟩ := session.kept ended
    refine ⟨fun key content found => ?_, fun earlier extension' stored among answer' => ?_⟩
    · rw [reads_iff] at found ⊢
      exact (files key content found.symm).symm
    · rw [reads_iff, reads_iff, same earlier extension' stored among]

end Isolation

section Steps
variable {env : Env} {faulty : StorageOp → Prop} {storage storage' : Storage} {calls : List Answered}

def savedAt (root : List String) (uuid : Nat) (extension : FileExtension) (today : Time) : List String :=
  root ++ dateParts today ++ [uuidText uuid ++ extension.1]

def savedAs (env : Env) (data : Bytes) (extension : FileExtension) (uuid : Nat) (today : Time) :
    StoredFile where
  storedFilename := uuidText uuid ++ extension.1
  storagePath := dateDirectory today ++ "/" ++ (uuidText uuid ++ extension.1)
  size := data.length
  checksum := env.sha256Hex data

theorem Session.saved (session : Session env faulty storage calls storage') {uuid : Nat}
    (fresh : storage'.Fresh uuid) (today : Time) {data : Bytes} {extension : FileExtension} {disk : Disk}
    (written : storage'.disk.writeBytes (savedAt env.storageRoot uuid extension today) data = .ok disk) :
    Session env faulty storage
      (⟨.save data extension, .ok (savedAs env data extension uuid today)⟩ :: calls)
      { disk, drawn := uuid :: storage'.drawn } := by
  refine .call _ session ?_
  have inside : resolve env.storageRoot (dateDirectory today ++ "/" ++ (uuidText uuid ++ extension.1)) =
      .ok (savedAt env.storageRoot uuid extension today) :=
    resolve_dated (stored_name uuid extension)
  have drew : (onDisk env.storageRoot faulty).next storage' (.core (.runtime .uuid4)) (.ok uuid)
      { storage' with drawn := uuid :: storage'.drawn } := ⟨fresh, rfl⟩
  have clock : (onDisk env.storageRoot faulty).next { storage' with drawn := uuid :: storage'.drawn }
      (.core (.runtime .utcnow)) (.ok today) { storage' with drawn := uuid :: storage'.drawn } := rfl
  have wrote : (onDisk env.storageRoot faulty).next { storage' with drawn := uuid :: storage'.drawn }
      (.core (.runtime (.writeBytes (savedAt env.storageRoot uuid extension today) data))) (.ok ())
      { disk, drawn := uuid :: storage'.drawn } := ⟨disk, written, rfl⟩
  refine .call drew (.call clock ?_)
  simp only [Program.lift, Program.bind, inside]
  exact .call wrote (.ret _ _)

theorem Session.deleted (session : Session env faulty storage calls storage') {key : String}
    {path : List String} (inside : resolve env.storageRoot key = .ok path) {disk : Disk}
    (removed : storage'.disk.unlink path = .ok disk) :
    Session env faulty storage (⟨.delete key, .ok ()⟩ :: calls) { storage' with disk } := by
  refine .call _ session ?_
  have unlinked : (onDisk env.storageRoot faulty).next storage' (.unlink path) (.ok ())
      { storage' with disk } := ⟨disk, removed, rfl⟩
  simp only [Call.program, delete, inside]
  exact .call unlinked (.ret _ _)

theorem Session.reading (session : Session env faulty storage calls storage') {key : String}
    {path : List String} (inside : resolve env.storageRoot key = .ok path) {data : Bytes}
    (found : storage'.disk path = some (.file data)) :
    Session env faulty storage (⟨.read key, .ok data⟩ :: calls) storage' := by
  refine .call _ session ?_
  have read : (onDisk env.storageRoot faulty).next storage' (.core (.runtime (.readBytes path)))
      (.ok data) storage' := ⟨rfl, .inl (readBytes_ok.mpr found).symm⟩
  simp only [Call.program, FileStorage.read, inside]
  exact .call read (.ret _ _)

theorem Disk.Unused.written {disk disk' : Disk} {uuid : Nat} {path : List String} {data : Bytes}
    (unused : disk.Unused uuid) (written : disk.writeBytes path data = .ok disk')
    (others : ∀ name ∈ path, ¬(uuidText uuid).toList <+: name.toList) : disk'.Unused uuid := by
  intro at_ found name among
  obtain same | ⟨within, -⟩ | ⟨rfl, -⟩ := (writeBytes_began written).1 at_
  · exact unused at_ (same ▸ found) name among
  · exact others name (within.subset among)
  · exact others name among

end Steps

section Uploads

def uploads : Env where
  settings := {}
  skew _ := 0
  storageRoot := ["srv", "uploads"]
  sha256Hex _ := ""
  uploadGate _ := .error (.os "")
  extractText _ _ := .ok []

def emptyUploads : Storage where
  disk path := if path <+: ["srv", "uploads"] then some .directory else none

def txt : FileExtension := ⟨".txt", by decide⟩

def afterSave (storage : Storage) (uuid : Nat) (data : Bytes) : Storage where
  disk := Function.update (storage.disk.makeParents (savedAt uploads.storageRoot uuid txt 0))
    (savedAt uploads.storageRoot uuid txt 0) (some (.file data))
  drawn := uuid :: storage.drawn

def twoSaves : Storage := afterSave (afterSave emptyUploads 7 [97]) 8 [98]

def afterDelete : Storage where
  disk := Function.update twoSaves.disk (savedAt uploads.storageRoot 8 txt 0) none
  drawn := twoSaves.drawn

/-- The key of the second save, through the directory above its own. -/
def secondKey : String := dateDirectory 0 ++ "/../01/" ++ (uuidText 8 ++ txt.1)

def uploadCalls : List Answered :=
  [⟨.read (savedAs uploads [97] txt 7 0).storagePath, .ok [97]⟩, ⟨.delete secondKey, .ok ()⟩,
    ⟨.save [98] txt, .ok (savedAs uploads [98] txt 8 0)⟩,
    ⟨.save [97] txt, .ok (savedAs uploads [97] txt 7 0)⟩]

theorem emptyUploads_unused {uuid : Nat} (bits : uuid < 2 ^ 128) : emptyUploads.disk.Unused uuid := by
  intro path found name among starts
  have within : path <+: ["srv", "uploads"] := by
    by_contra outside
    exact found (if_neg outside)
  have short : name.toList.length ≤ 7 := by
    have either : name = "srv" ∨ name = "uploads" := by
      simpa using within.subset among
    obtain rfl | rfl := either <;> decide
  have long := starts.length_le
  rw [String.length_toList, uuidText_length bits] at long
  omega

theorem writeBytes_afterSave {storage : Storage} {uuid : Nat} {data : Bytes}
    (free : storage.disk.blocked (savedAt uploads.storageRoot uuid txt 0) = false)
    (absent : storage.disk (savedAt uploads.storageRoot uuid txt 0) ≠ some .directory) :
    storage.disk.writeBytes (savedAt uploads.storageRoot uuid txt 0) data =
      .ok (afterSave storage uuid data).disk := by
  rw [Disk.writeBytes, free, if_neg absent]
  rfl

theorem uploads_session : Session uploads (fun _ => True) emptyUploads uploadCalls afterDelete := by
  have first : emptyUploads.disk.writeBytes (savedAt uploads.storageRoot 7 txt 0) [97] =
      .ok (afterSave emptyUploads 7 [97]).disk :=
    writeBytes_afterSave (by decide +kernel) (by decide +kernel)
  have second : (afterSave emptyUploads 7 [97]).disk.writeBytes (savedAt uploads.storageRoot 8 txt 0)
      [98] = .ok twoSaves.disk :=
    writeBytes_afterSave (by decide +kernel) (by decide +kernel)
  have unused : (afterSave emptyUploads 7 [97]).disk.Unused 8 :=
    (emptyUploads_unused (by decide)).written first (by decide +kernel)
  have removed : twoSaves.disk.unlink (savedAt uploads.storageRoot 8 txt 0) = .ok afterDelete.disk := by
    have file : twoSaves.disk (savedAt uploads.storageRoot 8 txt 0) = some (.file [98]) := by
      decide +kernel
    rw [Disk.unlink, file]
    rfl
  have file : afterDelete.disk (savedAt uploads.storageRoot 7 txt 0) = some (.file [97]) := by
    decide +kernel
  have saves : Session uploads (fun _ => True) emptyUploads (uploadCalls.drop 2) twoSaves :=
    .saved (.saved (.start _) ⟨by decide, List.not_mem_nil, emptyUploads_unused (by decide)⟩ 0 first)
      ⟨by decide, by decide, unused⟩ 0 second
  exact (saves.deleted rfl removed).reading rfl file

theorem storage_isolated_uploads : (∀ key, Guarded uploads key) ∧
    Isolated uploads (fun _ => True) emptyUploads uploadCalls afterDelete := by
  refine storage_isolated ?_ ?_ uploads_session
  · intro segment among
    have either : segment = "srv" ∨ segment = "uploads" := by
      simpa [uploads] using among
    obtain rfl | rfl := either <;> exact ⟨by decide, by decide, by decide, by decide⟩
  · exact fun above within => if_pos within

end Uploads

end DocumentPipeline.FileStorage
