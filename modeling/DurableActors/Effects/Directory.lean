import Mathlib

/-!
# A directory that loses unsynced changes

A process renames files into a directory and removes files from it.  It sees its
changes at once, but until the directory is synced a crash may undo any of them,
each name on its own.  A directory is therefore what a process sees under every
name together with what a crash may leave there.

A file is written and synced under a temporary name before it is renamed, so a
content is under a name as a whole or not at all.

Main results:

- Theorem {lit}`Directory.mem_stored_change`: a change adds one content to what a
  crash may leave under its name.
- Theorem {lit}`Directory.isSettled_sync`: a sync leaves one content per name.
-/

namespace Effects

/-- Files by name: what a process sees and what a crash may leave. -/
structure Directory (ν : Type) (κ : ν → Type) where
  /-- What a process sees. -/
  shown : (name : ν) → Option (κ name)
  /-- What a crash may leave. -/
  stored : (name : ν) → Set (Option (κ name))
  /-- A crash may leave what a process sees. -/
  shown_mem : ∀ name, shown name ∈ stored name

namespace Directory

variable {ν : Type} {κ : ν → Type}

/-- The directory in which a crash changes nothing. -/
def settled (shown : (name : ν) → Option (κ name)) : Directory ν κ where
  shown := shown
  stored name := {shown name}
  shown_mem _ := rfl

/-- The directory without files. -/
def empty : Directory ν κ := settled fun _ => none

/-- Make all changes durable. -/
def sync (directory : Directory ν κ) : Directory ν κ := settled directory.shown

/-- The names keep, each on its own, one of the contents that a crash may leave. -/
def Survives (directory : Directory ν κ) (left : (name : ν) → Option (κ name)) : Prop :=
  ∀ name, left name ∈ directory.stored name

/-- A crash leaves under the name what a process sees there. -/
def IsSettled (directory : Directory ν κ) (name : ν) : Prop :=
  ∀ content ∈ directory.stored name, content = directory.shown name

/-- A crash of the one directory leaves nothing that a crash of the other does not leave. -/
def Within (directory other : Directory ν κ) : Prop :=
  ∀ name, directory.stored name ⊆ other.stored name

@[simp]
theorem shown_settled (shown : (name : ν) → Option (κ name)) : (settled shown).shown = shown := rfl

@[simp]
theorem mem_stored_settled {shown : (name : ν) → Option (κ name)} {name : ν}
    {content : Option (κ name)} : content ∈ (settled shown).stored name ↔ content = shown name :=
  Iff.rfl

@[simp]
theorem shown_sync (directory : Directory ν κ) : directory.sync.shown = directory.shown := rfl

theorem isSettled_settled (shown : (name : ν) → Option (κ name)) (name : ν) :
    (settled shown).IsSettled name := fun _ hcontent => hcontent

theorem isSettled_sync (directory : Directory ν κ) (name : ν) : directory.sync.IsSettled name :=
  isSettled_settled _ _

theorem Survives.within {directory : Directory ν κ} {left : (name : ν) → Option (κ name)}
    (h : directory.Survives left) : (settled left).Within directory := by
  rintro name content rfl
  exact h name

theorem sync_within (directory : Directory ν κ) : directory.sync.Within directory :=
  Survives.within directory.shown_mem

/-! ## Changes -/

variable [DecidableEq ν]

/-- Put a file under a name, over the one that is there, or remove the one that is there. -/
def change (directory : Directory ν κ) (name : ν) (content : Option (κ name)) :
    Directory ν κ where
  shown := Function.update directory.shown name content
  stored := Function.update directory.stored name (insert content (directory.stored name))
  shown_mem other := by
    by_cases hother : other = name
    · subst hother
      simp
    · simpa [Function.update_of_ne hother] using directory.shown_mem other

variable {directory : Directory ν κ} {name other : ν} {content : Option (κ name)}

@[simp]
theorem shown_change_self : (directory.change name content).shown name = content := by
  simp [change]

@[simp]
theorem shown_change_of_ne (hother : other ≠ name) :
    (directory.change name content).shown other = directory.shown other := by
  simp [change, Function.update_of_ne hother]

@[simp]
theorem mem_stored_change {left : Option (κ name)} :
    left ∈ (directory.change name content).stored name ↔
      left = content ∨ left ∈ directory.stored name := by
  simp [change]

@[simp]
theorem stored_change_of_ne (hother : other ≠ name) :
    (directory.change name content).stored other = directory.stored other := by
  simp [change, Function.update_of_ne hother]

/-- A crash may undo the changes of one name alone. -/
theorem survives_update (hcontent : content ∈ directory.stored name) :
    directory.Survives (Function.update directory.shown name content) := by
  intro other
  by_cases hother : other = name
  · subst hother
    simpa using hcontent
  · simpa [Function.update_of_ne hother] using directory.shown_mem other

end Directory

end Effects
