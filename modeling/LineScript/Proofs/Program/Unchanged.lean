import LineScript.Proofs.Memory.Lens
import LineScript.Proofs.Program.NullVariable

namespace LineScript

-- The variable that a name belongs to, with or without accessors.
def Token.variableKey (token : Token) : String := Memory.key (Name.ofText token.text).base

-- The targets of a line that was read are names that it holds, but for the outcome of a TEST.
theorem Statement.name_of_mem_targets {line : String} {s : Statement} {target : Token}
    (h : Statement.read line = .ok s) (htarget : target ∈ s.targets) :
    target.kind = .name ∧
      (target = ⟨.name, Scope.result⟩ ∨ s.primary = some target ∨ s.secondary = some target) := by
  by_cases hs : s.operation = .read
  · obtain ⟨file, hfile, hname⟩ := Statement.primary_of_read h (by simp [hs, Operation.form])
    obtain ⟨place, hplace, hkind⟩ := Statement.secondary_of_read h (by simp [hs, Operation.form])
    simp only [Statement.targets, hs, hfile, hplace, Option.getD_some, List.mem_cons,
      List.not_mem_nil, or_false] at htarget
    rcases htarget with rfl | rfl
    · exact ⟨hname, .inr (.inl hfile)⟩
    · exact ⟨hkind, .inr (.inr hplace)⟩
  · have hforms : s.targets = [] ∨ s.targets = [⟨.name, Scope.result⟩] ∨
        s.targets = [s.primary.getD .null] ∧ Slot.primary [.name] ∈ s.operation.form := by
      unfold Statement.targets
      cases hoperation : s.operation <;> simp [Operation.form]
      exact hs hoperation
    rcases hforms with hnone | hresult | ⟨hprimary, hslot⟩
    · rw [hnone] at htarget
      cases htarget
    · rw [hresult, List.mem_singleton] at htarget
      subst htarget
      exact ⟨rfl, .inl rfl⟩
    · obtain ⟨token, htoken, hkind⟩ := Statement.primary_of_read h hslot
      rw [hprimary, htoken, Option.getD_some, List.mem_singleton] at htarget
      subst htarget
      exact ⟨hkind, .inr (.inl htoken)⟩

namespace Memory

variable {memory next last : Memory} {keys : List String}

-- All that changed lies in the current scope, under some of the keys.
structure ChangedAt (keys : List String) (memory next : Memory) : Prop where
  parents : next.parents = memory.parents
  binding : ∀ key, key ∉ keys → next.current.get? key = memory.current.get? key

namespace ChangedAt

theorem refl (keys : List String) (memory : Memory) : ChangedAt keys memory memory :=
  ⟨rfl, fun _ _ => rfl⟩

theorem trans (h : ChangedAt keys memory next) (h' : ChangedAt keys next last) :
    ChangedAt keys memory last where
  parents := h'.parents.trans h.parents
  binding key hkey := (h'.binding key hkey).trans (h.binding key hkey)

theorem write {token : Token} {value : Value} {create : Bool} (htoken : token.variableKey ∈ keys)
    (h : memory.write token.text value create = .ok next) : ChangedAt keys memory next := by
  obtain ⟨path, stored, _, _, rfl⟩ := write_eq_ok h
  refine ⟨rfl, fun key hkey => ?_⟩
  have hother : key ≠ token.variableKey := fun hsame => hkey (hsame ▸ htoken)
  rw [get?_store]
  exact if_neg hother

theorem deliver {deliveries : List Delivery}
    (htargets : ∀ delivery ∈ deliveries, delivery.target.variableKey ∈ keys) :
    ChangedAt keys memory (memory.deliver deliveries).1 := by
  apply deliver_preserves (ChangedAt keys memory) _ (refl keys memory)
  intro delivery hmem before after hbefore hwrite
  exact hbefore.trans (write (htargets delivery hmem) hwrite)

end ChangedAt

end Memory

namespace Machine

variable {m next : Machine} {s : Statement} {a b : Value} {key : String}

-- A READ that finds its file at the end.
def readsEnd (m : Machine) (s : Statement) : Bool :=
  match m.memory.evaluate (s.primary.getD .null) with
  | .ok (.reader handle) =>
      match (m.world.files.readLine handle).2 with
      | .ok none => true
      | _ => false
  | _ => false

-- The variables that a statement assigns in this state of the machine. That of the file is only
-- among them once the file is read to its end.
def touched (m : Machine) (s : Statement) : List Token :=
  match s.operation with
  | .read => if m.readsEnd s then s.targets else [s.secondary.getD .null]
  | _ => s.targets

theorem touched_subset_targets : m.touched s ⊆ s.targets := by
  unfold touched
  split
  · rename_i hs
    split_ifs
    · exact List.Subset.refl _
    · simp [Statement.targets, hs]
  · exact List.Subset.refl _

def Spares (m : Machine) (s : Statement) (key : String) : Prop :=
  s.operation ≠ .scopeOpen ∧ s.operation ≠ .scopeClose ∧
    key ∉ (m.touched s).map Token.variableKey

instance (m : Machine) (s : Statement) (key : String) : Decidable (m.Spares s key) :=
  inferInstanceAs (Decidable (_ ∧ _ ∧ _))

theorem Delivers.target_mem_touched {deliveries : List Delivery}
    (ha : m.memory.evaluate (s.primary.getD .null) = .ok a)
    (h : m.Delivers s (s.primary.getD .null) a b deliveries) :
    ∀ delivery ∈ deliveries, delivery.target ∈ m.touched s := by
  by_cases hs : s.operation = .read
  · -- Only for a READ the state of the file counts.
    cases h with
    | line _ hfile hline =>
        have hmore : m.readsEnd s = false := by simp [readsEnd, ha, hfile, hline]
        simp [touched, hs, hmore]
    | ended _ hfile hend =>
        have hended : m.readsEnd s = true := by simp [readsEnd, ha, hfile, hend]
        simp [touched, hs, hended, Statement.targets]
    | computed hcomputed => simp [hs, Operation.computed?] at hcomputed
    | tested htested => simp [hs, Operation.tested?] at htested
    | opened hopen => simp [hs] at hopen
    | drawn hother | closed hother | replied hother => simp [hs] at hother
  · have htouched : m.touched s = s.targets := by
      unfold touched
      split
      · contradiction
      · rfl
    rw [htouched]
    exact h.target_mem

theorem Deed.changedAt {after : Own} {outcome : Except Fault Unit}
    (ha : m.memory.evaluate (s.primary.getD .null) = .ok a) (hopen : s.operation ≠ .scopeOpen)
    (hclose : s.operation ≠ .scopeClose)
    (h : m.Deed s (s.primary.getD .null) a b after outcome) :
    m.memory.ChangedAt ((m.touched s).map Token.variableKey) after.memory := by
  cases h with
  | opened hs => exact absurd hs hopen
  | closed hs => exact absurd hs hclose
  | delivered hdelivers =>
      refine .deliver fun delivery hmem => ?_
      exact List.mem_map_of_mem (hdelivers.target_mem_touched ha delivery hmem)
  | _ => exact .refl _ _

-- Succeed or fail, a statement that neither opens nor closes a scope changes no other variable.
theorem changedAt_execute (m : Machine) (hopen : s.operation ≠ .scopeOpen)
    (hclose : s.operation ≠ .scopeClose) :
    m.memory.ChangedAt ((m.touched s).map Token.variableKey) (m.execute s).1.memory := by
  rcases m.execute_cases s with ⟨e, _, hfail⟩ | ⟨a, b, ha, _, hdeed⟩
  · rw [hfail]
    exact .refl _ _
  · exact hdeed.changedAt ha hopen hclose

theorem get?_step (h : m.Spares s key) :
    (m.step s).1.memory.current.get? key = m.memory.current.get? key := by
  obtain ⟨hopen, hclose, hkey⟩ := h
  rw [memory_step]
  exact (m.changedAt_execute hopen hclose).binding key hkey

-- What SET takes over is the value of its argument.
theorem write_of_set (hs : s.operation = .set) (h : m.step s = (next, .ok ())) :
    ∃ value, m.memory.evaluateOperand s.secondary = .ok value ∧
      m.memory.write (s.primary.getD .null).text value true = .ok next.memory := by
  obtain ⟨a, b, _, hb, hok, hmemory⟩ := perform_of_step_ok (congrArg Prod.snd h)
  rw [h] at hmemory
  rw [perform_set hs] at hok hmemory
  exact ⟨b, hb, (write_of_store_ok hok).trans (congrArg _ hmemory)⟩

end Machine

namespace Program

variable {program : Program} {m : Machine} {key : String} {n : Nat}

theorem get?_drive (h : ∀ step ∈ program.steps n m, step.1.Spares step.2 key) :
    (program.drive n m).1.memory.current.get? key = m.memory.current.get? key := by
  apply steps_preserve (fun next => next.memory.current.get? key = m.memory.current.get? key)
  · intro next s hnext
    rwa [next.memory_announce s]
  · intro step hstep hnext
    exact (Machine.get?_step (h step hstep)).trans hnext
  · rfl

-- A statement changes no variables but those it assigns, and no scope but the current one unless
-- it is a SCOPE. So a copy and what it was copied from go their own ways.
theorem statements_change_what_they_name (m : Machine) {line : String} {s : Statement}
    (hread : Statement.read line = .ok s) :
    (∃ tokens, Token.readAll line = .ok tokens ∧
      Sentence tokens s.operation s.primary s.secondary ∧
      ∀ target ∈ m.touched s, target.kind = .name ∧
        (target = ⟨.name, Scope.result⟩ ∨ s.primary = some target ∨ s.secondary = some target)) ∧
    (s.operation ≠ .scopeOpen → s.operation ≠ .scopeClose →
      (m.execute s).1.memory.parents = m.memory.parents ∧
      ∀ key, (∀ target ∈ m.touched s, key ≠ Memory.key (Name.ofText target.text).base) →
        (m.execute s).1.memory.current.get? key = m.memory.current.get? key) ∧
    (∀ next, m.execute s = (next, .ok ()) →
      (s.operation = .scopeOpen → next.memory.parents = m.memory.current :: m.memory.parents) ∧
      (s.operation = .scopeClose → ∃ parent, m.memory.parents = parent :: next.memory.parents ∧
        ∀ key, key ≠ Scope.returned → next.memory.current.get? key = parent.get? key)) ∧
    ∀ copy source, s.operation = .set → s.primary = some copy → s.secondary = some source →
      source.kind = .name → (Name.ofText copy.text).accessors = [] →
      copy.variableKey ≠ source.variableKey → ∀ next, m.step s = (next, .ok ()) →
      ∀ (program : Program) (n : Nat),
        ((∀ step ∈ program.steps n next, step.1.Spares step.2 copy.variableKey) →
          (program.drive n next).1.memory.read copy.text = m.memory.read source.text) ∧
        ((∀ step ∈ program.steps n next, step.1.Spares step.2 source.variableKey) →
          (program.drive n next).1.memory.current.get? source.variableKey =
            m.memory.current.get? source.variableKey) := by
  refine ⟨?_, ?_, ?_, ?_⟩
  · obtain ⟨tokens, htokens, hof⟩ := bind_eq_ok.mp hread
    refine ⟨tokens, htokens, Statement.sentence_of_ofTokens hof, ?_⟩
    intro target htarget
    exact Statement.name_of_mem_targets hread (Machine.touched_subset_targets htarget)
  · intro hopen hclose
    have hchanged := m.changedAt_execute hopen hclose
    refine ⟨hchanged.parents, fun key hkey => hchanged.binding key ?_⟩
    intro hmem
    obtain ⟨target, htarget, hsame⟩ := List.mem_map.mp hmem
    exact hkey target htarget hsame.symm
  · intro next hexecute
    have heffect := m.effect_execute s
    rw [hexecute] at heffect
    refine ⟨fun hs => ?_, fun hs => ?_⟩
    · rw [heffect.memory_of_scopeOpen hs]
      rfl
    · obtain ⟨parent, others, hparents, hmemory⟩ :=
        Memory.closeScope_eq_ok (heffect.memory_of_scopeClose hs)
      refine ⟨parent, by rw [hparents, hmemory], fun key hkey => ?_⟩
      rw [hmemory, Scope.get?_insert, if_neg hkey]
  · intro copy source hs hcopy hsource hkind hplain hother next hstep program n
    obtain ⟨value, hvalue, hwrite⟩ := Machine.write_of_set hs hstep
    rw [hcopy, Option.getD_some] at hwrite
    rw [hsource] at hvalue
    have hsame : m.memory.read source.text = .ok value := by
      rw [← Memory.evaluate_name hkind]
      exact hvalue
    refine ⟨fun hspares => ?_, fun hspares => ?_⟩
    · have hget : (program.drive n next).1.memory.plain copy.text = next.memory.plain copy.text := by
        have hkey : Memory.key copy.text = copy.variableKey := by
          rw [Token.variableKey, Name.base_of_plain hplain]
        rw [Memory.plain, Memory.plain, hkey, get?_drive hspares]
      rw [hsame, Memory.read_of_plain hplain, hget, ← Memory.read_of_plain hplain]
      exact Memory.read_written hwrite
    · have hchanged : m.memory.ChangedAt [copy.variableKey] next.memory :=
        .write List.mem_cons_self hwrite
      rw [get?_drive hspares]
      refine hchanged.binding _ ?_
      simpa using Ne.symm hother

-- A list keeps its items when one of its copy is assigned.
theorem list_keeps_items_of_its_copy :
    ∃ program s next, compile "SET a TO (1, 2)\nSET b TO a\nSET B@0 TO 5" = .ok program ∧
      Statement.read "SET b TO a" = .ok s ∧
      let before := (program.drive 2 (program.load .blank)).1
      let after := (program.drive 1 next).1
      before.step s = (next, .ok ()) ∧
        after.memory.current.get? "a" = before.memory.current.get? "a" ∧
        (after.memory.read "a").toOption.any (fun a => after.display a = "( 1, 2 )") = true ∧
        (after.memory.read "b").toOption.any (fun b => after.display b = "( 5, 2 )") = true := by
  have hline : (Statement.read "SET b TO a").toOption.any (fun s => s.operation = .set &&
      s.primary = some ⟨.name, "b"⟩ && s.secondary = some ⟨.name, "a"⟩) = true := by
    decide +kernel
  have hrun : (compile "SET a TO (1, 2)\nSET b TO a\nSET B@0 TO 5").toOption.any (fun program =>
      (Statement.read "SET b TO a").toOption.any fun s =>
        let result := (program.drive 2 (program.load .blank)).1.step s
        let after := (program.drive 1 result.1).1
        result.2.toOption.isSome &&
          (program.steps 1 result.1).all (fun step => step.1.Spares step.2 "a") &&
          (after.memory.read "a").toOption.any (fun a => after.display a = "( 1, 2 )") &&
          (after.memory.read "b").toOption.any (fun b => after.display b = "( 5, 2 )")) = true := by
    decide +kernel
  obtain ⟨program, hprogram, hchecked⟩ := (Option.any_eq_true _ _).mp hrun
  obtain ⟨s, hs, hset⟩ := (Option.any_eq_true _ _).mp hline
  have hread := toOption_eq_some.mp hs
  rw [hs] at hchecked
  simp only [Option.any_some, Bool.and_eq_true, decide_eq_true_eq, List.all_eq_true,
    Option.isSome_iff_exists] at hchecked hset
  obtain ⟨⟨hset, hcopy⟩, hsource⟩ := hset
  obtain ⟨⟨⟨⟨_, hok⟩, hspares⟩, ha⟩, hb⟩ := hchecked
  have hcopies := (statements_change_what_they_name (program.drive 2 (program.load .blank)).1
    hread).2.2.2 _ _ hset hcopy hsource rfl (by decide) (by decide +kernel) _
    (Prod.ext rfl (toOption_eq_some.mp hok)) program 1
  exact ⟨program, s, _, toOption_eq_some.mp hprogram, hread, Prod.ext rfl (toOption_eq_some.mp hok),
    hcopies.2 hspares, ha, hb⟩

end Program

end LineScript
