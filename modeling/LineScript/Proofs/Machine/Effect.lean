import LineScript.Proofs.Machine.Performing
import LineScript.Proofs.Memory.Contents
import LineScript.Proofs.Memory.Lookup

namespace LineScript

namespace Files

@[simp]
theorem size_setChannel (files : Files) (handle : Handle) (channel : Channel) :
    (files.setChannel handle channel).channels.size = files.channels.size := by
  simp [setChannel]

@[simp]
theorem size_flush (files : Files) (handle : Handle) :
    (files.flush handle).1.channels.size = files.channels.size := by
  unfold flush
  split
  · split_ifs
    · rfl
    · split <;> simp
  · rfl

@[simp]
theorem size_store (files : Files) (handle : Handle) (bytes : Text.Bytes) :
    (files.store handle bytes).1.channels.size = files.channels.size := by
  unfold store
  split
  · split_ifs
    · split <;> rfl
    · simp
  · rfl

@[simp]
theorem size_put (files : Files) (handle : Handle) (bytes : Text.Bytes) :
    (files.put handle bytes).1.channels.size = files.channels.size := by
  have hflush := size_flush files handle
  unfold put
  split_ifs
  · simp
  · split
    · rename_i flushed hflushed
      rw [hflushed] at hflush
      simpa using hflush
    · exact hflush

@[simp]
theorem size_writeLine (files : Files) (handle : Handle) (text : String) :
    (files.writeLine handle text).1.channels.size = files.channels.size := by
  have hput := size_put files handle (Text.encode text)
  unfold writeLine
  split
  · dsimp only
    split
    · rename_i written hwritten
      rw [hwritten] at hput
      simpa using hput
    · exact hput
  · rfl

@[simp]
theorem size_readLine (files : Files) (handle : Handle) :
    (files.readLine handle).1.channels.size = files.channels.size := by
  unfold readLine
  split
  · dsimp only
    split_ifs
    · rfl
    · rfl
    · split <;> simp
  · rfl

@[simp]
theorem size_close (files : Files) (handle : Handle) :
    (files.close handle).1.channels.size = files.channels.size := by
  simp [close]

@[simp]
theorem size_release (files : Files) (handles : List Handle) :
    (files.release handles).channels.size = files.channels.size := by
  unfold release
  induction handles generalizing files with
  | nil => rfl
  | cons handle rest ih => rw [List.foldl_cons, ih, size_close]

-- A new handle has the next number.
theorem openRead_effect {files opened : Files} {name : String} {handle : Handle}
    (h : files.openRead name = .ok (opened, handle)) :
    handle.id = files.channels.size ∧ opened.channels.size = files.channels.size + 1 := by
  unfold openRead at h
  split at h
  · cases h
    simp
  · cases h

theorem openWrite_effect {files opened : Files} {name : String} {handle : Handle}
    (h : files.openWrite name = .ok (opened, handle)) :
    handle.id = files.channels.size ∧ opened.channels.size = files.channels.size + 1 := by
  unfold openWrite at h
  split at h
  · cases h
    simp
  · cases h

end Files

namespace Machine

def channelCount (m : Machine) : Nat := m.world.files.channels.size

-- The files of the current scope, and those opened since, up to some count.
def Met (m : Machine) (count : Nat) (handle : Handle) : Prop :=
  (∃ entry ∈ m.memory.current, handle ∈ entry.2.handles) ∨
    m.channelCount ≤ handle.id ∧ handle.id < count

theorem world_store (m : Machine) (target : Token) (value : Value) (create : Bool) :
    (m.store target value create).1.world = m.world := by
  unfold store
  split <;> rfl

theorem within_met_current (m : Machine) (count : Nat) :
    m.memory.current.Within (m.Met count) := by
  intro entry hentry handle hmem
  exact .inl ⟨entry, hentry, hmem⟩

-- What an operation can do to the scopes, short of opening or closing one: the parents are as
-- before, no variable is unbound, and no file comes into the current scope but from there or by
-- being opened.
structure Kept (m next : Machine) : Prop where
  parents : next.memory.parents = m.memory.parents
  bound : ∀ key, (m.memory.current.get? key).isSome → (next.memory.current.get? key).isSome
  count : m.channelCount ≤ next.channelCount
  current : next.memory.current.Within (m.Met next.channelCount)

namespace Kept

variable {m next : Machine}

theorem refl (m : Machine) : Kept m m where
  parents := rfl
  bound _ h := h
  count := Nat.le_refl _
  current := m.within_met_current _

-- The world may change as long as no handle is taken back.
theorem congr {other : Machine} (h : Kept m next) (hmemory : other.memory = next.memory)
    (hcount : next.channelCount ≤ other.channelCount) : Kept m other where
  parents := by rw [hmemory, h.parents]
  bound := by
    rw [hmemory]
    exact h.bound
  count := Nat.le_trans h.count hcount
  current := by
    rw [hmemory]
    intro entry hentry handle hmem
    rcases h.current entry hentry handle hmem with hmet | ⟨hlow, hhigh⟩
    · exact .inl hmet
    · exact .inr ⟨hlow, by omega⟩

theorem withFiles (h : Kept m next) {files : Files}
    (hcount : files.channels.size = next.channelCount) : Kept m (next.withFiles files) :=
  h.congr rfl (Nat.le_of_eq hcount.symm)

theorem store (h : Kept m next) (target : Token) {value : Value}
    (hvalue : value.Within (m.Met next.channelCount)) (create : Bool) :
    Kept m (next.store target value create).1 := by
  unfold Machine.store
  split
  · rename_i memory hwrite
    obtain ⟨name, stored, rfl, hstored⟩ := Memory.write_effect hwrite
    have hwithin := hstored _ (Value.hereditary_within _) h.current hvalue
    refine ⟨h.parents, ?_, h.count, h.current.insert _ hwithin⟩
    intro key hkey
    exact Scope.isSome_get?_insert (h.bound key hkey) _ stored
  · exact h

theorem storeResult (h : Kept m next) (target : Token) (create : Bool)
    {result : Except RuntimeError Value} (hresult : Supplies (m.Met next.channelCount) result) :
    Kept m (next.storeResult target create result).1 := by
  cases result with
  | ok value => exact h.store target (hresult value rfl) create
  | error e => exact h

theorem say (h : Kept m next) (text : String) : Kept m (next.say text).1 := by
  unfold Machine.say
  split
  · exact h.congr rfl (Nat.le_refl _)
  · exact h.congr rfl (Nat.le_refl _)

end Kept

theorem kept_test (m : Machine) (a b : Value) {outcome : Value}
    (houtcome : outcome.Within (m.Met m.channelCount)) : m.Kept (m.test a b outcome).1 := by
  unfold test
  split
  · exact .refl m
  · exact (Kept.refl m).store _ houtcome _

theorem kept_random (m : Machine) (target : Token) (bound : Value) :
    m.Kept (m.random target bound).1 := by
  have hdrawn (random : Random) : m.Kept { m with world := { m.world with random := random } } :=
    (Kept.refl m).congr rfl (Nat.le_refl _)
  unfold random
  dsimp only
  split
  · split
    · exact .refl m
    · exact (Kept.refl m).store target (Value.within_integer _) true
    · exact (hdrawn _).store target (Value.within_integer _) true
  · exact (hdrawn _).store target (Value.within_float _) true
  · exact .refl m

-- The handle given out is the one new file that can come in.
theorem kept_openFile (m : Machine) (operation : Operation) (target : Token) (name : Value) :
    m.Kept (m.openFile operation target name).1 := by
  cases name with
  | string text =>
      unfold openFile
      simp only [borrowing_none]
      split
      · exact .refl m
      · rename_i files handle value hopened
        have hnew : handle.id = m.channelCount ∧ files.channels.size = m.channelCount + 1 ∧
            value.handles = [handle] := by
          split_ifs at hopened
          · obtain ⟨given, hgiven, hsame⟩ := map_eq_ok.mp hopened
            cases hsame
            exact ⟨(Files.openRead_effect hgiven).1, (Files.openRead_effect hgiven).2, rfl⟩
          · obtain ⟨given, hgiven, hsame⟩ := map_eq_ok.mp hopened
            cases hsame
            exact ⟨(Files.openWrite_effect hgiven).1, (Files.openWrite_effect hgiven).2, rfl⟩
        obtain ⟨hid, hcount, hhandles⟩ := hnew
        have hgrown : m.channelCount ≤ files.channels.size := by omega
        have hready : m.Kept ((m.withFiles files).note ⟨.debug, .fileOpening,
            "opened " ++ (m.withFiles files).display value⟩) :=
          (Kept.refl m).congr rfl hgrown
        have hvalue : value.Within (m.Met files.channels.size) := by
          intro other hother
          rw [hhandles, List.mem_singleton] at hother
          subst hother
          exact .inr ⟨by omega, by omega⟩
        have hstored := hready.store target hvalue true
        split
        · rename_i stored hstore
          rw [hstore] at hstored
          exact hstored
        · -- The new handle is closed again, and stays given out.
          rename_i unstored fault _ hstore
          have hworld := world_store ((m.withFiles files).note ⟨.debug, .fileOpening,
            "opened " ++ (m.withFiles files).display value⟩) target value true
          rw [hstore] at hstored hworld
          refine hstored.withFiles ((Files.size_close _ _).trans ?_)
          rw [channelCount, hworld]
          rfl
  | _ => exact .refl m

theorem kept_closeFile (m : Machine) (target : Token) (file : Value) :
    m.Kept (m.closeFile target file).1 := by
  unfold closeFile
  simp only [borrowing_none]
  split
  · rename_i handle _
    have hcount := Files.size_close m.world.files handle
    split
    · rename_i files hclose
      rw [hclose] at hcount
      exact ((Kept.refl m).withFiles hcount).store target Value.within_null false
    · rename_i files e hclose
      rw [hclose] at hcount
      exact (Kept.refl m).withFiles hcount
  · exact .refl m

theorem kept_readFrom (m : Machine) (fileToken : Token) (file : Value) (target : Token) :
    m.Kept (m.readFrom fileToken file target).1 := by
  unfold readFrom
  simp only [borrowing_none]
  split
  · rename_i handle
    have hcount := Files.size_readLine m.world.files handle
    split
    · rename_i files e hread
      rw [hread] at hcount
      exact (Kept.refl m).withFiles hcount
    · rename_i files line hread
      rw [hread] at hcount
      exact ((Kept.refl m).withFiles hcount).store target
        ((Value.hereditary_within _).ofLine line) true
    · rename_i files hread
      rw [hread] at hcount
      have hclosed : m.Kept ((m.withFiles (files.close handle).1).store fileToken .null false).1 :=
        ((Kept.refl m).withFiles ((Files.size_close _ _).trans hcount)).store fileToken
          Value.within_null false
      split
      · rename_i closed hstore
        rw [hstore] at hclosed
        exact hclosed.store target Value.within_null true
      · exact hclosed
  · exact .refl m

theorem kept_writeTo (m : Machine) (file value : Value) : m.Kept (m.writeTo file value).1 := by
  cases file with
  | writer handle =>
      have hcount := Files.size_writeLine m.world.files handle (m.display value)
      rw [writeTo_writer]
      split_ifs
      · exact .refl m
      · split
        · rename_i files hwrite
          rw [hwrite] at hcount
          exact (Kept.refl m).withFiles hcount
        · rename_i files e hwrite
          rw [hwrite] at hcount
          exact (Kept.refl m).withFiles hcount
  | _ => exact .refl m

theorem kept_ask (m : Machine) (target : Token) (prompt : Value) :
    m.Kept (m.ask target prompt).1 := by
  cases prompt with
  | string text =>
      have hsay := (Kept.refl m).say text
      unfold ask
      dsimp only
      split
      · rename_i asked fault hsaid
        rw [hsaid] at hsay
        exact hsay
      · rename_i asked hsaid
        rw [hsaid] at hsay
        split
        · exact hsay
        · split
          · exact hsay.congr rfl (Nat.le_refl _)
          · rename_i console reply _
            have htold : m.Kept (asked.withConsole console) := hsay.congr rfl (Nat.le_refl _)
            exact htold.storeResult target true
              ((Value.hereditary_within _).replyValue htold.current reply)
  | _ => exact .refl m

theorem kept_goto (m : Machine) (target condition : Value) :
    m.Kept (m.goto target condition).1 := by
  unfold goto
  split
  · split
    · exact .refl m
    · split_ifs
      · exact .refl m
      · exact .refl m
      · exact (Kept.refl m).congr rfl (Nat.le_refl _)
  · exact .refl m

-- What a statement can do to the scopes: open one, close one, or keep the parents. Success of
-- SCOPE OPEN and SCOPE CLOSE is always of the first two kinds.
inductive Effect (m : Machine) (s : Statement) : Result → Prop where
  | opened {next : Machine} (hs : s.operation = .scopeOpen)
      (hmemory : next.memory = m.memory.openScope) (hcount : next.channelCount = m.channelCount) :
      Effect m s (next, .ok ())
  | closed {next : Machine} (hs : s.operation = .scopeClose)
      (hmemory : m.memory.closeScope = .ok next.memory)
      (hcount : next.channelCount = m.channelCount) : Effect m s (next, .ok ())
  | kept {next : Machine} {outcome : Except Fault Unit} (hkept : m.Kept next)
      (hs : outcome = .ok () → s.operation ≠ .scopeOpen ∧ s.operation ≠ .scopeClose) :
      Effect m s (next, outcome)

namespace Effect

variable {m : Machine} {s : Statement}

theorem of_kept {result : Result} (hkept : m.Kept result.1)
    (hs : s.operation ≠ .scopeOpen ∧ s.operation ≠ .scopeClose) : Effect m s result :=
  .kept hkept fun _ => hs

-- Nothing but memory and the number of handles counts.
theorem congr {result other : Result} (h : Effect m s result)
    (hmemory : other.1.memory = result.1.memory)
    (hcount : other.1.channelCount = result.1.channelCount) (houtcome : other.2 = result.2) :
    Effect m s other := by
  obtain ⟨next, outcome⟩ := other
  cases h with
  | opened hs hm hc =>
      cases houtcome
      exact .opened hs (hmemory.trans hm) (hcount.trans hc)
  | closed hs hm hc =>
      cases houtcome
      exact .closed hs (by rw [hm, ← hmemory]) (hcount.trans hc)
  | kept hkept hs =>
      cases houtcome
      exact .kept (hkept.congr hmemory (Nat.le_of_eq hcount.symm)) hs

variable {next : Machine}

theorem memory_of_scopeOpen (h : Effect m s (next, .ok ())) (hs : s.operation = .scopeOpen) :
    next.memory = m.memory.openScope := by
  cases h with
  | opened _ hmemory _ => exact hmemory
  | closed hclose _ _ =>
      rw [hs] at hclose
      cases hclose
  | kept _ hother => exact absurd hs (hother rfl).1

theorem memory_of_scopeClose (h : Effect m s (next, .ok ())) (hs : s.operation = .scopeClose) :
    m.memory.closeScope = .ok next.memory := by
  cases h with
  | opened hopen _ _ =>
      rw [hs] at hopen
      cases hopen
  | closed _ hmemory _ => exact hmemory
  | kept _ hother => exact absurd hs (hother rfl).2

variable {outcome : Except Fault Unit}

theorem count_le (h : Effect m s (next, outcome)) : m.channelCount ≤ next.channelCount := by
  cases h with
  | opened _ _ hcount => exact Nat.le_of_eq hcount.symm
  | closed _ _ hcount => exact Nat.le_of_eq hcount.symm
  | kept hkept _ => exact hkept.count

-- No file comes into memory but by being opened.
theorem handles {allowed : Handle → Prop} (h : Effect m s (next, outcome))
    (hold : ∀ handle ∈ m.memory.handles, allowed handle)
    (hnew : ∀ handle : Handle, m.channelCount ≤ handle.id → handle.id < next.channelCount →
      allowed handle) :
    ∀ handle ∈ next.memory.handles, allowed handle := by
  obtain ⟨hcurrent, hparents⟩ := Memory.forall_mem_handles.mp hold
  refine Memory.forall_mem_handles.mpr ?_
  cases h with
  | opened _ hmemory _ =>
      have hargument := hcurrent.getD Scope.argument
      rw [hmemory]
      exact ⟨Scope.within_fresh.insert Scope.argument hargument,
        List.forall_mem_cons.mpr ⟨hcurrent, hparents⟩⟩
  | closed _ hmemory _ =>
      obtain ⟨parent, others, hcons, hnext⟩ := Memory.closeScope_eq_ok hmemory
      rw [hcons] at hparents
      obtain ⟨hparent, hothers⟩ := List.forall_mem_cons.mp hparents
      rw [hnext]
      exact ⟨hparent.insert _ (hcurrent.getD _), hothers⟩
  | kept hkept _ =>
      rw [hkept.parents]
      refine ⟨?_, hparents⟩
      intro entry hentry handle hmem
      rcases hkept.current entry hentry handle hmem with ⟨old, hold, hmem⟩ | ⟨hlow, hhigh⟩
      · exact hcurrent old hold handle hmem
      · exact hnew handle hlow hhigh

end Effect

theorem effect_perform (m : Machine) (s : Statement) (target : Token) {a b : Value}
    (ha : a.Within (m.Met m.channelCount)) (hb : b.Within (m.Met m.channelCount)) :
    m.Effect s (m.perform s target a b) := by
  rw [perform_eq_act]
  unfold act
  split
  · rename_i create result hcomputed
    have hresult := Operation.supplies_computed? ha hb hcomputed
    refine .of_kept ((Kept.refl m).storeResult target create hresult) ?_
    constructor <;> intro hs <;> simp [hs, Operation.computed?] at hcomputed
  · split
    · rename_i outcome htested
      refine .of_kept (m.kept_test a b (Operation.within_tested? htested)) ?_
      constructor <;> intro hs <;> simp [hs, Operation.tested?] at htested
    · split
      · rename_i hs
        exact .of_kept (m.kept_random target b) (by simp [hs])
      · rename_i hs
        exact .of_kept (m.kept_openFile _ target b) (by simp [hs])
      · rename_i hs
        exact .of_kept (m.kept_openFile _ target b) (by simp [hs])
      · rename_i hs
        exact .of_kept (m.kept_closeFile target a) (by simp [hs])
      · rename_i hs
        exact .of_kept (m.kept_readFrom target a _) (by simp [hs])
      · rename_i hs
        exact .of_kept (m.kept_writeTo a b) (by simp [hs])
      · rename_i hs
        exact .of_kept (m.kept_ask target b) (by simp [hs])
      · rename_i hs
        exact .of_kept ((Kept.refl m).say _) (by simp [hs])
      · rename_i hs
        exact .opened hs rfl rfl
      · rename_i hs
        split
        · rename_i memory hclose
          exact .closed hs hclose rfl
        · refine .kept (.refl m) ?_
          intro hok
          cases hok
      · rename_i hs
        split
        · exact .of_kept (.refl m) (by simp [hs])
        · exact .of_kept (.refl m) (by simp [hs])
      · rename_i hs
        exact .of_kept (m.kept_goto a b) (by simp [hs])
      · rename_i hs
        exact .of_kept ((Kept.refl m).congr rfl (Nat.le_refl _)) (by simp [hs])
      · rename_i hs
        exact .of_kept (.refl m) (by simp [hs])
      · rename_i hopen hclose _ _ _ _
        exact .of_kept (.refl m) ⟨hopen, hclose⟩

theorem memory_release (m : Machine) (leaving : List Handle) :
    (m.release leaving).memory = m.memory := by
  unfold release
  split <;> rfl

theorem channelCount_release (m : Machine) (leaving : List Handle) :
    (m.release leaving).channelCount = m.channelCount := by
  unfold release
  split
  · exact Files.size_release _ _
  · rfl

theorem execute_of_no_operands (m : Machine) {s : Statement} (hprimary : s.primary = none)
    (hsecondary : s.secondary = none) :
    m.execute s = ((m.perform s .null .null .null).1.release (m.leaving .null .null),
      (m.perform s .null .null .null).2) := by
  rw [execute_eq_attempt]
  unfold attempt
  rw [hprimary, hsecondary]
  dsimp only [Option.getD_none]
  rw [Memory.evaluate_null]
  rfl

theorem effect_execute (m : Machine) (s : Statement) : m.Effect s (m.execute s) := by
  have hcurrent := m.within_met_current m.channelCount
  rw [execute_eq_attempt]
  unfold attempt
  dsimp only
  split
  · exact .kept (.refl m) nofun
  · rename_i a ha
    split
    · exact .kept (.refl m) nofun
    · rename_i b hb
      have heffect := m.effect_perform s (s.primary.getD .null)
        (Memory.supplies_evaluate hcurrent _ a ha) (Memory.supplies_evaluateOperand hcurrent _ b hb)
      exact heffect.congr (memory_release _ _) (channelCount_release _ _) rfl

theorem effect_step (m : Machine) (s : Statement) : m.Effect s (m.step s) := by
  have heffect := m.effect_execute s
  unfold step
  split
  · rename_i next hexecute
    rw [hexecute] at heffect
    exact heffect.congr rfl rfl rfl
  · exact heffect

end Machine

end LineScript
