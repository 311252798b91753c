import LineScript.Disk
import LineScript.Proofs.Outcome
import Mathlib.Tactic.SplitIfs

namespace LineScript.Disk

variable {disk next : Disk} {path other : Path} {bytes : Text.Bytes}

-- Whether a write to the path succeeds.
def takes (disk : Disk) (path : Path) : Bool :=
  match disk.node? path with
  | some (.file _) | some .sink => true
  | _ => false

-- Whether what is written to the path can be found there: a sink forgets it.
def keeps (disk : Disk) (path : Path) : Bool := disk.node? path ≠ some .sink

theorem lookup_cons_ite (entry : Path × Node) (rest : List (Path × Node)) :
    (entry :: rest).lookup other = if other = entry.1 then some entry.2 else rest.lookup other := by
  rw [List.lookup_cons]
  by_cases h : other = entry.1
  · simp [h]
  · simp [h, beq_eq_false_iff_ne.mpr h]

theorem lookup_replace (node : Node) (entries : List (Path × Node)) :
    (replace path node entries).lookup other =
      if other = path then some node else entries.lookup other := by
  induction entries with
  | nil => exact lookup_cons_ite (path, node) []
  | cons entry rest ih =>
      rw [replace]
      by_cases hentry : entry.1 = path
      · rw [if_pos hentry, lookup_cons_ite, lookup_cons_ite, hentry]
        split_ifs <;> rfl
      · rw [if_neg hentry, lookup_cons_ite, lookup_cons_ite, ih]
        by_cases hother : other = path
        · have hne : ¬other = entry.1 := fun h => hentry (h.symm.trans hother)
          rw [if_neg hne, if_pos hother, if_pos hother]
        · rw [if_neg hother, if_neg hother]

theorem node?_insert (hpath : path ≠ []) (node : Node) :
    (disk.insert path node).node? other = if other = path then some node else disk.node? other := by
  unfold node? insert
  by_cases hroot : other = []
  · have hne : ¬other = path := fun h => hpath (h.symm.trans hroot)
    rw [if_pos hroot, if_neg hne, if_pos hroot]
  · rw [if_neg hroot, if_neg hroot]
    exact lookup_replace node disk.entries

-- A write succeeds exactly where the disk takes it, and then makes the file longer or, at a device,
-- changes nothing.
theorem append_eq_ok (h : disk.append path bytes = .ok next) :
    disk.takes path = true ∧
      ((∃ content, disk.node? path = some (.file content) ∧ path ≠ [] ∧
          next = disk.insert path (.file (content ++ bytes))) ∨
        disk.node? path = some .sink ∧ next = disk) := by
  unfold append at h
  unfold takes
  split at h
  · rename_i content hnode
    cases h
    rw [hnode]
    refine ⟨rfl, .inl ⟨content, rfl, ?_, rfl⟩⟩
    rintro rfl
    cases hnode
  · rename_i hnode
    cases h
    rw [hnode]
    exact ⟨rfl, .inr ⟨rfl, rfl⟩⟩
  all_goals cases h

theorem append_eq_error {e : IoError} (h : disk.append path bytes = .error e) :
    disk.takes path = false := by
  unfold append at h
  unfold takes
  split at h
  · cases h
  · cases h
  all_goals
    rename_i hnode
    rw [hnode]

theorem takes_of_append (h : disk.append path bytes = .ok next) :
    next.takes other = disk.takes other := by
  rcases (append_eq_ok h).2 with ⟨content, hnode, hpath, rfl⟩ | ⟨_, rfl⟩
  · unfold takes
    rw [node?_insert hpath]
    by_cases hother : other = path
    · rw [if_pos hother, hother, hnode]
    · rw [if_neg hother]
  · rfl

theorem keeps_of_append (h : disk.append path bytes = .ok next) :
    next.keeps other = disk.keeps other := by
  rcases (append_eq_ok h).2 with ⟨content, hnode, hpath, rfl⟩ | ⟨_, rfl⟩
  · unfold keeps
    rw [node?_insert hpath]
    by_cases hother : other = path
    · rw [if_pos hother, hother, hnode]
      rfl
    · rw [if_neg hother]
  · rfl

theorem content_of_append (h : disk.append path bytes = .ok next)
    (hkeeps : disk.keeps other = true) :
    next.content other = disk.content other ++ if other = path then bytes else #[] := by
  rcases (append_eq_ok h).2 with ⟨content, hnode, hpath, rfl⟩ | ⟨hnode, rfl⟩
  · unfold Disk.content
    rw [node?_insert hpath]
    by_cases hother : other = path
    · simp [hother, hnode]
    · simp [hother]
  · have hother : other ≠ path := by
      rintro rfl
      simp [keeps, hnode] at hkeeps
    simp [hother]

theorem content_of_sink (h : disk.keeps path = false) : disk.content path = #[] := by
  have hnode : disk.node? path = some .sink := by simpa [keeps] using h
  simp [content, hnode]

-- A name opened for writing stands for something already there, or for a new file without content.
theorem findOrCreate_eq_ok {name : String} (h : disk.findOrCreate name = .ok (next, path)) :
    next = disk ∨ path ≠ [] ∧ disk.node? path = none ∧ next = disk.insert path (.file #[]) := by
  obtain ⟨found, _, h⟩ := bind_eq_ok.mp h
  obtain ⟨directory, _, h⟩ := bind_eq_ok.mp h
  split_ifs at h
  obtain ⟨target, _, h⟩ := bind_eq_ok.mp h
  split at h
  · cases h
  · cases h
    exact .inl rfl
  · rename_i hnode
    cases h
    refine .inr ⟨?_, hnode, rfl⟩
    rintro rfl
    cases hnode

theorem takes_of_findOrCreate {name : String} (h : disk.findOrCreate name = .ok (next, path))
    (htakes : disk.takes other = true) : next.takes other = true := by
  rcases findOrCreate_eq_ok h with rfl | ⟨hpath, hnode, rfl⟩
  · exact htakes
  · unfold takes
    rw [node?_insert hpath]
    by_cases hother : other = path
    · rw [if_pos hother]
    · rw [if_neg hother]
      exact htakes

theorem keeps_of_findOrCreate {name : String} (h : disk.findOrCreate name = .ok (next, path)) :
    next.keeps other = disk.keeps other := by
  rcases findOrCreate_eq_ok h with rfl | ⟨hpath, hnode, rfl⟩
  · rfl
  · unfold keeps
    rw [node?_insert hpath]
    by_cases hother : other = path
    · rw [if_pos hother, hother, hnode]
      rfl
    · rw [if_neg hother]

theorem content_of_findOrCreate {name : String} (h : disk.findOrCreate name = .ok (next, path)) :
    next.content other = disk.content other := by
  rcases findOrCreate_eq_ok h with rfl | ⟨hpath, hnode, rfl⟩
  · rfl
  · unfold Disk.content
    rw [node?_insert hpath]
    by_cases hother : other = path
    · rw [if_pos hother, hother, hnode]
    · rw [if_neg hother]

-- Nothing is ever taken away from a disk: a directory stays one, and where something is there is
-- something for ever.
structure EnduresIn (before after : Disk) : Prop where
  workingDirectory : after.workingDirectory = before.workingDirectory
  directory : ∀ path, before.node? path = some .directory → after.node? path = some .directory
  present : ∀ path, (before.node? path).isSome = true → (after.node? path).isSome = true

namespace EnduresIn

variable {before middle after : Disk} {name : String}

theorem refl (disk : Disk) : disk.EnduresIn disk where
  workingDirectory := rfl
  directory _ h := h
  present _ h := h

theorem trans (hfirst : before.EnduresIn middle) (hsecond : middle.EnduresIn after) :
    before.EnduresIn after where
  workingDirectory := hsecond.workingDirectory.trans hfirst.workingDirectory
  directory path h := hsecond.directory path (hfirst.directory path h)
  present path h := hsecond.present path (hfirst.present path h)

-- A file may be put where there is none, or take the place of a file.
theorem insert (hpath : path ≠ []) (hnode : disk.node? path ≠ some .directory)
    (content : Text.Bytes) : disk.EnduresIn (disk.insert path (.file content)) where
  workingDirectory := rfl
  directory other h := by
    have hother : other ≠ path := by
      rintro rfl
      exact hnode h
    rw [node?_insert hpath, if_neg hother, h]
  present other h := by
    rw [node?_insert hpath]
    split_ifs
    · rfl
    · exact h

theorem append {bytes : Text.Bytes} (h : disk.append path bytes = .ok next) :
    disk.EnduresIn next := by
  rcases (append_eq_ok h).2 with ⟨content, hnode, hpath, rfl⟩ | ⟨_, rfl⟩
  · exact insert hpath (by simp [hnode]) _
  · exact refl _

theorem findOrCreate (h : disk.findOrCreate name = .ok (next, path)) : disk.EnduresIn next := by
  rcases findOrCreate_eq_ok h with rfl | ⟨hpath, hnode, rfl⟩
  · exact refl _
  · exact insert hpath (by simp [hnode]) _

end EnduresIn

end LineScript.Disk
