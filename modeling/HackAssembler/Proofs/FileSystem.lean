import HackAssembler.Proofs.Batch

/-!
# File systems

What a build may rely on, wherever its files are kept. Every request but a write only looks
(`Observes`). A write that is refused changes nothing, and one that is granted replaces the whole
content under its path and changes nothing else (`Replaced`). A file may lie at several places, by
links of any kind; the places of one file change together, and which they are is up to the file
system. A disk is a file system without links.
-/

set_option autoImplicit false

namespace HackAssembler

variable {σ α β : Type}

/-! ## Requests that only look -/

/-- The request leaves every state as it is. -/
def Observes (request : StateM σ α) : Prop := ∀ state, (request.run state).2 = state

theorem Observes.run_eq {request : StateM σ α} (looks : Observes request) (state : σ) :
    request.run state = ((request.run state).1, state) :=
  Prod.ext rfl (looks state)

theorem observes_pure (a : α) : Observes (pure a : StateM σ α) := fun _ => rfl

theorem Observes.bind {request : StateM σ α} {next : α → StateM σ β} (looks : Observes request)
    (later : ∀ a, Observes (next a)) : Observes (request >>= next) := by
  intro state
  have first := looks.run_eq state
  rw [StateT.run_bind, first]
  exact later _ state

theorem observes_filterM {check : α → StateM σ Bool} (looks : ∀ a, Observes (check a))
    (list : List α) : Observes (list.filterM check) := by
  have collected (kept : List α) : Observes (list.filterAuxM check kept) := by
    induction list generalizing kept with
    | nil => exact observes_pure kept
    | cons a rest ih => exact (looks a).bind fun holds => ih _
  exact (collected []).bind fun kept => observes_pure kept.reverse

/-! ## Places -/

/-- What lies where in the states of a file system. -/
class Places (σ : Type) where
  Place : Type
  /-- What lies at a place. -/
  lies? : σ → Place → Option Node
  /-- The place that a path leads to. -/
  leads? : σ → String → Option Place
  /-- Whether what lies at two places is one file, or the places are the same. -/
  Linked : σ → Place → Place → Prop

/-- Under the path there is a file with this content now, and what is not that file is as it was. -/
def Replaced [Places σ] (before : σ) (path : String) (content : ByteArray) (after : σ) : Prop :=
  ∃ place, Places.leads? after path = some place ∧
    Places.lies? after place = some (.file content) ∧
    ∀ other, ¬ Places.Linked after place other →
      Places.lies? after other = Places.lies? before other

/-- What the requests to a file system change: nothing, or the file that is written. -/
class FileSystem (σ : Type) [FileStore (StateM σ)] extends Places σ where
  isDirectory : ∀ path, Observes (FileStore.isDirectory path : StateM σ Bool)
  isFile : ∀ path, Observes (FileStore.isFile path : StateM σ Bool)
  names : ∀ path, Observes (FileStore.names path : StateM σ (Except AccessError (List String)))
  read : ∀ path, Observes (FileStore.read path : StateM σ (Except AccessError ByteArray))
  refused : ∀ {before after : σ} {path : String} {content : ByteArray} {cause : AccessError},
    (FileStore.write path content : StateM σ (Except AccessError Unit)).run before =
      (.error cause, after) → after = before
  granted : ∀ {before after : σ} {path : String} {content : ByteArray},
    (FileStore.write path content : StateM σ (Except AccessError Unit)).run before =
      (.ok (), after) → Replaced before path content after

/-! ## Disks -/

instance : Places Disk where
  Place := Location
  lies? := Disk.node?
  leads? disk path := (disk.locate path).toOption
  Linked _ place other := other = place

theorem Disk.replaced_put {disk : Disk} {path : String} {location : Location}
    (goes : disk.target path = .ok location) (content : ByteArray) :
    Replaced disk path content (disk.put location (.file content)) := by
  have root := ne_root_of_target goes
  obtain ⟨located, -, free⟩ := of_target goes
  have same := sameOutside_put free (.file content)
  refine ⟨location, ?_, ?_, ?_⟩
  · show ((disk.put location (.file content)).locate path).toOption = some location
    rw [same.locate_eq_ok located]
    rfl
  · show (disk.put location (.file content)).node? location = some (.file content)
    rw [node?_put root, if_pos rfl]
  · intro other apart
    show (disk.put location (.file content)).node? other = disk.node? other
    exact same.node other apart

instance : FileSystem Disk where
  isDirectory _ _ := rfl
  isFile _ _ := rfl
  names _ _ := rfl
  read _ _ := rfl
  refused {before after path content cause} written := by
    rw [Build.run_write] at written
    cases goes : before.target path with
    | error reason =>
      rw [goes] at written
      exact (Prod.mk.inj written).2.symm
    | ok location =>
      rw [goes] at written
      exact absurd (Prod.mk.inj written).1 (by simp)
  granted {before after path content} written := by
    rw [Build.run_write] at written
    cases goes : before.target path with
    | error reason =>
      rw [goes] at written
      exact absurd (Prod.mk.inj written).1 (by simp)
    | ok location =>
      rw [goes] at written
      obtain ⟨-, rfl⟩ := Prod.mk.inj written
      exact Disk.replaced_put goes content

end HackAssembler
