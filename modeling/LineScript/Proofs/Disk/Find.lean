import LineScript.Proofs.Disk.Append
import LineScript.Proofs.Memory.Path

namespace LineScript.Disk

variable {disk before after next : Disk} {path : Path} {name : String}

section Walk

variable {start directory : Path} {component : String} {components : List String}

theorem enter_eq_ok (h : disk.enter directory component = .ok path) :
    disk.node? directory = some .directory := by
  unfold enter at h
  split at h
  · cases h
  · assumption
  · cases h

-- Where nothing can be entered the component makes no difference.
theorem enter_congr (h : disk.node? directory ≠ some .directory) (one other : String) :
    disk.enter directory one = disk.enter directory other := by
  unfold enter
  split
  · rfl
  · rename_i hnode
    exact absurd hnode h
  · rfl

theorem enter_of_enduresIn (h : before.EnduresIn after)
    (henter : before.enter directory component = .ok path) :
    after.enter directory component = .ok path := by
  have hnode := enter_eq_ok henter
  unfold enter at henter ⊢
  rw [hnode] at henter
  rw [h.directory directory hnode]
  exact henter

theorem walk_cons (disk : Disk) (start : Path) (component : String) (components : List String) :
    disk.walk start (component :: components) =
      (disk.enter start component).bind fun next => disk.walk next components := rfl

theorem walk_append (disk : Disk) (start : Path) (front back : List String) :
    disk.walk start (front ++ back) =
      (disk.walk start front).bind fun next => disk.walk next back :=
  List.foldlM_append

theorem walk_singleton (disk : Disk) (start : Path) (component : String) :
    disk.walk start [component] = disk.enter start component := by
  rw [walk_cons]
  cases disk.enter start component <;> rfl

theorem walk_of_enduresIn (h : before.EnduresIn after)
    (hwalk : before.walk start components = .ok path) :
    after.walk start components = .ok path := by
  induction components generalizing start with
  | nil => exact hwalk
  | cons component rest ih =>
      rw [walk_cons] at hwalk ⊢
      obtain ⟨next, henter, hrest⟩ := bind_eq_ok.mp hwalk
      rw [enter_of_enduresIn h henter]
      exact ih hrest

-- An empty component says no more than the next one.
theorem walk_empty (hrest : components ≠ []) :
    disk.walk start ("" :: components) = disk.walk start components := by
  obtain ⟨component, others, rfl⟩ := List.exists_cons_of_ne_nil hrest
  by_cases hnode : disk.node? start = some .directory
  · have hstay : disk.enter start "" = .ok start := by simp [enter, hnode]
    rw [walk_cons, hstay]
    rfl
  · have hfails : ∃ e, disk.enter start component = .error e := by
      cases henter : disk.enter start component with
      | ok path => exact absurd (enter_eq_ok henter) hnode
      | error e => exact ⟨e, rfl⟩
    obtain ⟨e, he⟩ := hfails
    rw [walk_cons, walk_cons, enter_congr hnode "" component, he]
    rfl

theorem walk_named (h : components.getLast? ≠ some "") :
    disk.walk start (components.filter (· ≠ "")) = disk.walk start components := by
  induction components generalizing start with
  | nil => rfl
  | cons component rest ih =>
      by_cases hrest : rest = []
      · subst hrest
        have hnamed : component ≠ "" := by simpa using h
        simp [hnamed]
      · have hlast : rest.getLast? ≠ some "" := by
          rwa [List.getLast?_cons_of_ne_nil hrest] at h
        by_cases hempty : component = ""
        · subst hempty
          rw [walk_empty hrest, List.filter_cons_of_neg (by simp)]
          exact ih hlast
        · rw [List.filter_cons_of_pos (by simpa using hempty), walk_cons, walk_cons]
          cases disk.enter start component with
          | error e => rfl
          | ok next => exact ih hlast

-- What a name is created as lies at the end of its way.
theorem walk_of_findOrCreate (h : disk.findOrCreate name = .ok (next, path)) :
    ∃ start components, disk.components name = .ok (start, components) ∧
      disk.walk start components = .ok path := by
  unfold findOrCreate at h
  obtain ⟨⟨start, components⟩, hcomponents, h⟩ := bind_eq_ok.mp h
  obtain ⟨directory, hdirectory, h⟩ := bind_eq_ok.mp h
  split_ifs at h with hlast
  obtain ⟨found, henter, h⟩ := bind_eq_ok.mp h
  have hfound : found = path := by
    split at h
    · cases h
    · cases h
      rfl
    · cases h
      rfl
  subst hfound
  simp only [not_or] at hlast
  obtain ⟨hdot, _, hslash⟩ := hlast
  refine ⟨start, components, hcomponents, ?_⟩
  rw [← walk_named hslash]
  generalize components.filter (· ≠ "") = named at hdirectory henter hdot ⊢
  have hnonempty : named ≠ [] := by
    rintro rfl
    exact hdot rfl
  have hsplit : named.dropLast ++ [named.getLastD "."] = named := by
    have hlast : named.getLastD "." = named.getLast hnonempty := by
      rw [List.getLastD_eq_getLast?, List.getLast?_eq_some_getLast hnonempty, Option.getD_some]
    rw [hlast, List.dropLast_append_getLast]
  rw [walk_append] at hdirectory
  obtain ⟨parent, hparent, hstay⟩ := bind_eq_ok.mp hdirectory
  rw [walk_singleton] at hstay
  have hsame : parent = directory := by
    have hnode := enter_eq_ok hstay
    simpa [enter, hnode] using hstay
  subst hsame
  rw [← hsplit, walk_append, hparent]
  exact (walk_singleton _ _ _).trans henter

end Walk

theorem present_of_findOrCreate (h : disk.findOrCreate name = .ok (next, path)) :
    (next.node? path).isSome = true := by
  unfold findOrCreate at h
  obtain ⟨_, _, h⟩ := bind_eq_ok.mp h
  obtain ⟨_, _, h⟩ := bind_eq_ok.mp h
  split_ifs at h
  obtain ⟨found, _, h⟩ := bind_eq_ok.mp h
  split at h
  · cases h
  · rename_i node _ hnode
    cases h
    rw [hnode]
    rfl
  · rename_i hnode
    cases h
    have hpath : path ≠ [] := by
      rintro rfl
      cases hnode
    rw [node?_insert hpath, if_pos rfl]
    rfl

-- A name that leads to something does so for ever.
theorem find_of_enduresIn (h : before.EnduresIn after) (hfind : before.find name = .ok path) :
    after.find name = .ok path := by
  unfold find at hfind ⊢
  obtain ⟨⟨start, components⟩, hcomponents, hfind⟩ := bind_eq_ok.mp hfind
  obtain ⟨found, hwalk, hfind⟩ := bind_eq_ok.mp hfind
  have hsame : after.components name = .ok (start, components) := by
    rw [← hcomponents, Disk.components, Disk.components, h.workingDirectory]
  split_ifs at hfind with hpresent
  cases hfind
  simp only [hsame, Except.bind, walk_of_enduresIn h hwalk, h.present path hpresent, if_true]

theorem find_of_findOrCreate (h : disk.findOrCreate name = .ok (next, path)) :
    next.find name = .ok path := by
  have hendures := EnduresIn.findOrCreate h
  obtain ⟨start, components, hcomponents, hwalk⟩ := walk_of_findOrCreate h
  have hsame : next.components name = .ok (start, components) := by
    rw [← hcomponents, Disk.components, Disk.components, hendures.workingDirectory]
  simp only [find, hsame, Except.bind, walk_of_enduresIn hendures hwalk, present_of_findOrCreate h,
    if_true]

end LineScript.Disk
