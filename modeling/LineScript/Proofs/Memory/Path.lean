import LineScript.Proofs.Memory.Contents
import LineScript.Proofs.Value.Elements

namespace LineScript

namespace Text

theorem splitOn_append (mark : Char) (front back : List Char) :
    splitOn mark (front ++ mark :: back) =
      ((splitOn mark front).1,
        (splitOn mark front).2 ++ (splitOn mark back).1 :: (splitOn mark back).2) := by
  induction front with
  | nil => simp [splitOn]
  | cons c rest ih =>
      rw [List.cons_append, splitOn, ih, splitOn]
      by_cases hc : c = mark
      · simp [hc]
      · simp [hc]

-- A text can be cut before any of its later pieces.
theorem exists_of_splitOn {mark : Char} {cs piece : List Char} {before after : List (List Char)}
    (h : (splitOn mark cs).2 = before ++ piece :: after) :
    ∃ front back, cs = front ++ mark :: back ∧
      splitOn mark front = ((splitOn mark cs).1, before) ∧ splitOn mark back = (piece, after) := by
  induction cs generalizing before with
  | nil => simp [splitOn] at h
  | cons c rest ih =>
      rw [splitOn] at h ⊢
      by_cases hc : c = mark
      · subst hc
        simp only [if_true] at h ⊢
        cases before with
        | nil =>
            obtain ⟨hpiece, hafter⟩ := List.cons.inj h
            exact ⟨[], rest, rfl, rfl, Prod.ext hpiece hafter⟩
        | cons first others =>
            obtain ⟨hfirst, hothers⟩ := List.cons.inj h
            obtain ⟨front, back, hrest, hfront, hback⟩ := ih hothers
            refine ⟨c :: front, back, by rw [hrest, List.cons_append], ?_, hback⟩
            simp [splitOn, hfront, hfirst]
      · simp only [if_neg hc] at h ⊢
        obtain ⟨front, back, hrest, hfront, hback⟩ := ih h
        refine ⟨c :: front, back, by rw [hrest, List.cons_append], ?_, hback⟩
        simp [splitOn, hfront, hc]

theorem splitOn_of_unsplit {mark : Char} {cs : List Char} (h : (splitOn mark cs).2 = []) :
    (splitOn mark cs).1 = cs := by
  induction cs with
  | nil => rfl
  | cons c rest ih =>
      rw [splitOn] at h ⊢
      by_cases hc : c = mark
      · simp [hc] at h
      · simp only [if_neg hc] at h ⊢
        rw [ih h]

end Text

theorem Name.base_of_plain {text : String} (h : (Name.ofText text).accessors = []) :
    (Name.ofText text).base = text := by
  unfold Name.ofText at h ⊢
  dsimp only at h ⊢
  rw [Text.splitOn_of_unsplit (List.map_eq_nil_iff.mp h), String.ofList_toList]

theorem Name.ofText_append (before after : String) :
    Name.ofText (before ++ "@" ++ after) =
      ⟨(Name.ofText before).base,
        (Name.ofText before).accessors ++
          (Name.ofText after).base :: (Name.ofText after).accessors⟩ := by
  have hchars : (before ++ "@" ++ after).toList = before.toList ++ '@' :: after.toList := by simp
  simp [Name.ofText, hchars, Text.splitOn_append]

theorem Name.exists_of_accessors {text accessor : String} {front back : List String}
    (h : (Name.ofText text).accessors = front ++ accessor :: back) :
    ∃ before after, text = before ++ "@" ++ after ∧
      Name.ofText before = ⟨(Name.ofText text).base, front⟩ := by
  unfold Name.ofText at h
  dsimp only at h
  obtain ⟨heads, tails, hpieces, hheads, htails⟩ := List.map_eq_append_iff.mp h
  obtain ⟨piece, others, rfl, _, _⟩ := List.map_eq_cons_iff.mp htails
  obtain ⟨first, second, htext, hfirst, _⟩ := Text.exists_of_splitOn hpieces
  refine ⟨String.ofList first, String.ofList second, ?_, ?_⟩
  · apply String.toList_inj.mp
    rw [htext]
    simp
  · simp [Name.ofText, hfirst, hheads]

namespace Memory

variable {memory : Memory}

-- What a name passes through is the value of one of the names it begins with.
def PassesText (memory : Memory) (name : String) : Prop :=
  ∃ before after text, name = before ++ "@" ++ after ∧ memory.read before = .ok (.string text)

-- The same along a resolved path: some part of it, but not all, leads to a text.
def CrossesText (path : List (String × Value)) (value : Value) : Prop :=
  ∃ front place back text, path = front ++ place :: back ∧
    descend front value = .ok (.string text)

theorem resolve_append (memory : Memory) (indexed : String) (front back : List String) :
    memory.resolve indexed (front ++ back) =
      (memory.resolve (front.foldl (fun name accessor => name ++ "@" ++ accessor) indexed)
        back).bind fun later => (memory.resolve indexed front).map (· ++ later) := by
  induction front generalizing indexed with
  | nil =>
      cases hback : memory.resolve indexed back <;>
        simp [resolve, hback, Except.bind, Except.map]
  | cons accessor rest ih =>
      rw [List.cons_append, resolve, ih, List.foldl_cons, resolve]
      cases memory.resolve (rest.foldl (fun name accessor => name ++ "@" ++ accessor)
        (indexed ++ "@" ++ accessor)) back with
      | error e => rfl
      | ok later =>
          cases memory.resolve (indexed ++ "@" ++ accessor) rest with
          | error e => rfl
          | ok middle => cases memory.index accessor <;> rfl

theorem length_resolve {indexed : String} {accessors : List String} {path : List (String × Value)}
    (h : memory.resolve indexed accessors = .ok path) : path.length = accessors.length := by
  induction accessors generalizing indexed path with
  | nil =>
      cases h
      rfl
  | cons accessor rest ih =>
      obtain ⟨later, hlater, hindexed⟩ := bind_eq_ok.mp h
      obtain ⟨index, _, rfl⟩ := map_eq_ok.mp hindexed
      rw [List.length_cons, List.length_cons, ih hlater]

-- The front of a resolved path is the path of the name up to there.
theorem resolve_append_eq_ok {indexed : String} {front back : List String}
    {path : List (String × Value)} (h : memory.resolve indexed (front ++ back) = .ok path) :
    ∃ first second, path = first ++ second ∧ memory.resolve indexed front = .ok first ∧
      second.length = back.length := by
  rw [resolve_append] at h
  obtain ⟨second, hsecond, hpath⟩ := bind_eq_ok.mp h
  obtain ⟨first, hfirst, rfl⟩ := map_eq_ok.mp hpath
  exact ⟨first, second, rfl, hfirst, length_resolve hsecond⟩

-- A name that can be resolved passes through a text exactly if its path does.
theorem passesText_iff {name : String} {path : List (String × Value)}
    (h : memory.resolve (Name.ofText name).base (Name.ofText name).accessors = .ok path) :
    memory.PassesText name ↔ CrossesText path (memory.plain (Name.ofText name).base) := by
  constructor
  · rintro ⟨before, after, text, rfl, hread⟩
    rw [Name.ofText_append] at h ⊢
    obtain ⟨first, second, rfl, hfirst, hsecond⟩ := resolve_append_eq_ok h
    simp only [read, hfirst, Except.bind] at hread
    cases second with
    | nil => simp at hsecond
    | cons place back => exact ⟨first, place, back, text, rfl, hread⟩
  · rintro ⟨front, place, back, text, rfl, hread⟩
    have hlength := length_resolve h
    rw [List.length_append, List.length_cons] at hlength
    -- The accessors are cut where the path is.
    have hcut := List.take_append_drop front.length (Name.ofText name).accessors
    cases hdrop : (Name.ofText name).accessors.drop front.length with
    | nil =>
        have := List.drop_eq_nil_iff.mp hdrop
        omega
    | cons accessor rest =>
        rw [hdrop] at hcut
        obtain ⟨before, after, hname, hbefore⟩ := Name.exists_of_accessors hcut.symm
        rw [← hcut] at h
        obtain ⟨first, second, hpath, hfirst, hsecond⟩ := resolve_append_eq_ok h
        have hfirst_length := length_resolve hfirst
        rw [List.length_take] at hfirst_length
        obtain ⟨rfl, _⟩ := List.append_inj hpath (by omega)
        refine ⟨before, after, text, hname, ?_⟩
        simp only [read, hbefore, hfirst, Except.bind]
        exact hread

theorem not_crossesText_nil (value : Value) : ¬CrossesText [] value := by
  rintro ⟨front, place, back, text, hpath, _⟩
  simp at hpath

theorem crossesText_cons {place : String × Value} {rest : List (String × Value)} {value : Value} :
    CrossesText (place :: rest) value ↔
      (∃ text, value = .string text) ∨
        ∃ item, value.element place.2 place.1 = .ok item ∧ CrossesText rest item := by
  constructor
  · rintro ⟨front, other, back, text, hpath, hdescend⟩
    cases front with
    | nil =>
        cases hdescend
        exact .inl ⟨text, rfl⟩
    | cons first others =>
        obtain ⟨rfl, rfl⟩ := List.cons.inj hpath
        obtain ⟨item, hitem, hrest⟩ := bind_eq_ok.mp hdescend
        exact .inr ⟨item, hitem, others, other, back, text, rfl, hrest⟩
  · rintro (⟨text, rfl⟩ | ⟨item, hitem, front, other, back, text, rfl, hdescend⟩)
    · exact ⟨[], place, rest, text, rfl, rfl⟩
    · refine ⟨place :: front, other, back, text, rfl, ?_⟩
      rw [descend, hitem]
      exact hdescend

theorem assign_of_crossesText {path : List (String × Value)} {value : Value} (new : Value)
    (h : CrossesText path value) : assign new path value = .error .stringAssignment := by
  induction path generalizing value with
  | nil => exact absurd h (not_crossesText_nil value)
  | cons place rest ih =>
      rcases crossesText_cons.mp h with ⟨text, rfl⟩ | ⟨item, hitem, hrest⟩
      · rfl
      · cases value with
        | string text => rfl
        | list items =>
            obtain ⟨i, hi, rfl⟩ := map_eq_ok.mp hitem
            rw [assign, Value.modifyElement, hi, Except.bind, ih hrest]
            rfl
        | _ => cases hitem

-- Where no text is on the way, putting a value at its end goes as far as finding one there.
theorem outcome_of_assign {path : List (String × Value)} {value : Value} (new : Value)
    (h : ¬CrossesText path value) :
    (assign new path value).map (fun _ => ()) = (descend path value).map fun _ => () := by
  induction path generalizing value with
  | nil => rfl
  | cons place rest ih =>
      cases value with
      | string text => exact absurd (crossesText_cons.mpr (.inl ⟨text, rfl⟩)) h
      | list items =>
          cases hi : Value.checkedIndex place.2 items.length with
          | error e =>
              simp [assign, Value.modifyElement, descend, Value.element, hi, Except.bind,
                Except.map]
          | ok i =>
              have hitem : (Value.list items).element place.2 place.1 =
                  .ok (items.getD i .null) := by
                simp [Value.element, hi, Except.map]
              have hclear : ¬CrossesText rest (items.getD i .null) := fun hrest =>
                h (crossesText_cons.mpr (.inr ⟨_, hitem, hrest⟩))
              rw [assign, Value.modifyElement, hi, descend, hitem, Except.bind, Except.bind,
                ← ih hclear]
              cases assign new rest (items.getD i .null) <;> rfl
      | _ => rfl

-- Where a value can be found another can be put, unless a text is on the way.
theorem assign_of_descend {path : List (String × Value)} {value found : Value} (new : Value)
    (h : descend path value = .ok found) :
    (¬CrossesText path value ∧ ∃ stored, assign new path value = .ok stored) ∨
      (CrossesText path value ∧ assign new path value = .error .stringAssignment) := by
  by_cases htext : CrossesText path value
  · exact .inr ⟨htext, assign_of_crossesText new htext⟩
  · have houtcome := outcome_of_assign new htext
    rw [h] at houtcome
    obtain ⟨stored, hstored, _⟩ := map_eq_ok.mp houtcome
    exact .inl ⟨htext, stored, hstored⟩

theorem read_eq_ok {name : String} {found : Value} (h : memory.read name = .ok found) :
    ∃ path, memory.resolve (Name.ofText name).base (Name.ofText name).accessors = .ok path ∧
      descend path (memory.plain (Name.ofText name).base) = .ok found := by
  unfold read at h
  exact bind_eq_ok.mp h

-- A variable that was never assigned is null, and a null has no items.
theorem bound_of_descend {name : String} {path : List (String × Value)} {found : Value}
    (h : descend path (memory.plain name) = .ok found) (hfound : path ≠ [] ∨ found ≠ .null) :
    memory.current.get? (key name) = some (memory.plain name) := by
  cases hget : memory.current.get? (key name) with
  | some value => rw [plain, hget, Option.getD_some]
  | none =>
      have hnull : memory.plain name = .null := by rw [plain, hget, Option.getD_none]
      rw [hnull] at h
      cases path with
      | nil =>
          cases h
          simp at hfound
      | cons place rest => cases h

-- A name with accessors is written to in a variable that is there already.
theorem write_of_indexed {name : String} {path : List (String × Value)} {old : Value}
    {create : Bool} (value : Value) (hindexed : (Name.ofText name).accessors ≠ [])
    (hpath : memory.resolve (Name.ofText name).base (Name.ofText name).accessors = .ok path)
    (hbound : memory.current.get? (key (Name.ofText name).base) = some old) :
    memory.write name value create =
      (assign value path old).map (memory.store (Name.ofText name).base) := by
  simp [write, hindexed, hpath, hbound, Except.bind]

theorem write_of_indexed_read {name : String} {found : Value} (value : Value) (create : Bool)
    (hindexed : (Name.ofText name).accessors ≠ []) (h : memory.read name = .ok found) :
    (¬memory.PassesText name ∧ ∃ next, memory.write name value create = .ok next) ∨
      (memory.PassesText name ∧ memory.write name value create = .error .stringAssignment) := by
  obtain ⟨path, hpath, hdescend⟩ := read_eq_ok h
  have hne : path ≠ [] := by
    rintro rfl
    exact hindexed (List.length_eq_zero_iff.mp (length_resolve hpath).symm)
  rw [passesText_iff hpath,
    write_of_indexed value hindexed hpath (bound_of_descend hdescend (.inl hne))]
  rcases assign_of_descend value hdescend with ⟨hclear, stored, hstored⟩ | ⟨htext, hrefused⟩
  · rw [hstored]
    exact .inl ⟨hclear, _, rfl⟩
  · rw [hrefused]
    exact .inr ⟨htext, rfl⟩

-- After a look-up a write can fail in one way only. A variable that must exist does, as it was
-- found not to be null.
theorem write_of_read {name : String} {found : Value} {create : Bool} (value : Value)
    (h : memory.read name = .ok found) (hfound : create = true ∨ found ≠ .null) :
    (¬memory.PassesText name ∧ ∃ next, memory.write name value create = .ok next) ∨
      (memory.PassesText name ∧ memory.write name value create = .error .stringAssignment) := by
  by_cases hplain : (Name.ofText name).accessors = []
  · obtain ⟨path, hpath, hdescend⟩ := read_eq_ok h
    have hallowed : create || (memory.current.get? (key (Name.ofText name).base)).isSome := by
      rcases hfound with rfl | hfound
      · rfl
      · rw [bound_of_descend hdescend (.inr hfound), Option.isSome_some, Bool.or_true]
    rw [passesText_iff hpath, write, if_pos hplain, if_pos hallowed]
    rw [hplain] at hpath
    cases hpath
    exact .inl ⟨not_crossesText_nil _, _, rfl⟩
  · exact write_of_indexed_read value create hplain h

theorem checkedIndex_eq_ok {index : Value} {length i : Nat}
    (h : Value.checkedIndex index length = .ok i) : i < length ∧ ∃ n, index = .integer n := by
  obtain ⟨n, rfl, -, hlt⟩ := Value.checkedIndex_eq_ok_iff.mp h
  exact ⟨hlt, n, rfl⟩

-- All accessors of a name that leads somewhere are integers.
theorem exists_integer_of_descend {path : List (String × Value)} {value found : Value}
    (h : descend path value = .ok found) :
    ∀ place ∈ path, ∃ n, place.2 = .integer n := by
  induction path generalizing value with
  | nil => simp
  | cons place rest ih =>
      obtain ⟨item, hitem, hrest⟩ := bind_eq_ok.mp h
      have hinteger : ∃ n, place.2 = .integer n := by
        cases value with
        | list items | string text =>
            obtain ⟨i, hindex, _⟩ := map_eq_ok.mp hitem
            exact (checkedIndex_eq_ok hindex).2
        | _ => cases hitem
      exact List.forall_mem_cons.mpr ⟨hinteger, ih hrest⟩

-- Where a value without items stood, putting another in its place changes no other look-up.
theorem descend_of_assign {front path : List (String × Value)} {value stored old new found : Value}
    (hold : ∀ index name item, old.element index name ≠ .ok item)
    (hfront : descend front value = .ok old) (hassign : assign new front value = .ok stored)
    (hpath : descend path value = .ok found) :
    (∃ other, descend path stored = .ok other) ∧
      (CrossesText path stored ↔ CrossesText path value) := by
  induction front generalizing path value stored with
  | nil =>
      cases hfront
      cases hassign
      cases path with
      | nil => exact ⟨⟨new, rfl⟩, by simp [not_crossesText_nil]⟩
      | cons place rest =>
          obtain ⟨item, hitem, _⟩ := bind_eq_ok.mp hpath
          exact absurd hitem (hold _ _ _)
  | cons first others ih =>
      cases path with
      | nil => exact ⟨⟨stored, rfl⟩, by simp [not_crossesText_nil]⟩
      | cons place rest =>
          cases value with
          | list items =>
              obtain ⟨inner, hinner, hothers⟩ := bind_eq_ok.mp hfront
              obtain ⟨i, hi, hinnerGet⟩ := map_eq_ok.mp hinner
              obtain ⟨item, hitem, hrest⟩ := bind_eq_ok.mp hpath
              obtain ⟨j, hj, hitemGet⟩ := map_eq_ok.mp hitem
              rw [assign, Value.modifyElement, hi, Except.bind, hinnerGet] at hassign
              obtain ⟨changed, hchanged, rfl⟩ := map_eq_ok.mp hassign
              have hnext : Value.element (.list (items.set i changed)) place.2 place.1 =
                  .ok ((items.set i changed).getD j .null) := by
                simp [Value.element, hj, Except.map]
              have hlt := (checkedIndex_eq_ok hi).1
              by_cases hij : i = j
              · -- The same item: the rest of both ways lies in it.
                subst hij
                have hsame : item = inner := hitemGet.symm.trans hinnerGet
                subst hsame
                have hget : (items.set i changed).getD i .null = changed := by
                  simp [List.getD_eq_getElem?_getD, hlt]
                rw [hget] at hnext
                obtain ⟨⟨other, hother⟩, hcrosses⟩ := ih hothers hchanged hrest
                refine ⟨⟨other, by rw [descend, hnext]; exact hother⟩, ?_⟩
                simp [crossesText_cons, hnext, hitem, hcrosses]
              · have hget : (items.set i changed).getD j .null = item := by
                  rw [← hitemGet]
                  simp [List.getD_eq_getElem?_getD, hij]
                rw [hget] at hnext
                refine ⟨⟨found, by rw [descend, hnext]; exact hrest⟩, ?_⟩
                simp [crossesText_cons, hnext, hitem]
          | _ => cases hassign

theorem plain_store (memory : Memory) (name other : String) (value : Value) :
    (memory.store name value).plain other =
      if key other = key name then value else memory.plain other := by
  unfold plain store
  rw [Scope.get?_insert]
  split_ifs <;> rfl

theorem resolve_congr {other : Memory} {indexed : String} {accessors : List String}
    (h : ∀ accessor ∈ accessors, other.index accessor = memory.index accessor) :
    other.resolve indexed accessors = memory.resolve indexed accessors := by
  induction accessors generalizing indexed with
  | nil => rfl
  | cons accessor rest ih =>
      obtain ⟨hfirst, hrest⟩ := List.forall_mem_cons.mp h
      rw [resolve, resolve, ih hrest, hfirst]

theorem exists_index_of_resolve {indexed : String} {accessors : List String}
    {path : List (String × Value)} (h : memory.resolve indexed accessors = .ok path) :
    ∀ accessor ∈ accessors, ∃ place ∈ path, memory.index accessor = .ok place.2 := by
  induction accessors generalizing indexed path with
  | nil => simp
  | cons accessor rest ih =>
      obtain ⟨later, hlater, hindexed⟩ := bind_eq_ok.mp h
      obtain ⟨index, hindex, rfl⟩ := map_eq_ok.mp hindexed
      refine List.forall_mem_cons.mpr ⟨⟨_, List.mem_cons_self, hindex⟩, ?_⟩
      intro other hother
      obtain ⟨place, hplace, hat⟩ := ih hlater other hother
      exact ⟨place, List.mem_cons_of_mem _ hplace, hat⟩

-- An accessor that is an integer is not looked up in a variable that is none.
theorem index_store {name accessor : String} {stored : Value} {n : Int64}
    (hname : ∀ m, memory.plain name ≠ .integer m)
    (h : memory.index accessor = .ok (.integer n)) :
    (memory.store name stored).index accessor = memory.index accessor := by
  unfold index at h ⊢
  split_ifs with hdigit
  · rfl
  · rw [if_neg hdigit] at h
    have hkey : key accessor ≠ key name := by
      intro hkey
      have hplain : memory.plain accessor = memory.plain name := by rw [plain, plain, hkey]
      rw [hplain] at h
      exact hname n (Except.ok.inj h)
    rw [plain_store, if_neg hkey]

-- What was put at the end of a way is found there.
theorem descend_assign {new value stored : Value} {path : List (String × Value)}
    (h : assign new path value = .ok stored) : descend path stored = .ok new := by
  induction path generalizing value stored with
  | nil =>
      cases h
      rfl
  | cons place rest ih =>
      cases value with
      | list items =>
          obtain ⟨i, hi, hchanged⟩ := bind_eq_ok.mp h
          obtain ⟨changed, hrest, rfl⟩ := map_eq_ok.mp hchanged
          have hlt := (checkedIndex_eq_ok hi).1
          have hitem : Value.element (.list (items.set i changed)) place.2 place.1 =
              .ok changed := by
            simp [Value.element, hi, hlt, Except.map]
          rw [descend, hitem]
          exact ih hrest
      | _ => cases h

-- The accessors of a name that is written to are integers, and the variable that they lead into is
-- a list, so writing changes none of them.
theorem resolve_written {name : String} {path : List (String × Value)} {new stored : Value}
    (hpath : memory.resolve (Name.ofText name).base (Name.ofText name).accessors = .ok path)
    (hassign : assign new path (memory.plain (Name.ofText name).base) = .ok stored) :
    (memory.store (Name.ofText name).base stored).resolve (Name.ofText name).base
      (Name.ofText name).accessors = .ok path := by
  rw [← hpath]
  refine resolve_congr fun accessor haccessor => ?_
  obtain ⟨place, hplace, hindex⟩ := exists_index_of_resolve hpath accessor haccessor
  obtain ⟨n, hn⟩ := exists_integer_of_descend (descend_assign hassign) place hplace
  rw [hn] at hindex
  refine index_store (fun other hinteger => ?_) hindex
  rw [hinteger] at hassign
  cases path with
  | nil => cases hplace
  | cons first rest => cases hassign

-- What was written under a name is read under it.
theorem read_written {name : String} {new : Value} {create : Bool} {next : Memory}
    (h : memory.write name new create = .ok next) : next.read name = .ok new := by
  obtain ⟨path, stored, hpath, hassign, rfl⟩ := write_eq_ok h
  rw [read, resolve_written hpath hassign, Except.bind, plain_store, if_pos rfl]
  exact descend_assign hassign

section Overwriting

variable {name : String} {old new : Value} {create : Bool} {next : Memory}
  (hold : ∀ index indexed item, old.element index indexed ≠ .ok item)
  (hinteger : ∀ n, old ≠ .integer n) (hname : memory.read name = .ok old)
  (hwrite : memory.write name new create = .ok next)

include hinteger hname hwrite

-- The accessors of a name that leads somewhere are integers, so none of them is the variable that
-- was written, which is no integer.
theorem resolve_of_write {target : String} {path : List (String × Value)} {found : Value}
    (hpath : memory.resolve (Name.ofText target).base (Name.ofText target).accessors = .ok path)
    (hfound : descend path (memory.plain (Name.ofText target).base) = .ok found) :
    next.resolve (Name.ofText target).base (Name.ofText target).accessors = .ok path := by
  obtain ⟨front, stored, hfront, _, rfl⟩ := write_eq_ok hwrite
  obtain ⟨front', hfront', hdescend⟩ := read_eq_ok hname
  rw [hfront] at hfront'
  cases hfront'
  have hbase : ∀ n, memory.plain (Name.ofText name).base ≠ .integer n := by
    intro n hn
    rw [hn] at hdescend
    cases front with
    | nil => exact hinteger n (Except.ok.inj hdescend).symm
    | cons place rest => cases hdescend
  rw [← hpath]
  refine resolve_congr fun accessor haccessor => ?_
  obtain ⟨place, hplace, hindex⟩ := exists_index_of_resolve hpath accessor haccessor
  obtain ⟨n, hn⟩ := exists_integer_of_descend hfound place hplace
  rw [hn] at hindex
  exact index_store hbase hindex

include hold

-- Overwriting a value without items leaves every name that led somewhere leading somewhere, and
-- through the same texts.
theorem read_of_write {target : String} {found : Value} (htarget : memory.read target = .ok found) :
    (∃ other, next.read target = .ok other) ∧
      (next.PassesText target ↔ memory.PassesText target) := by
  obtain ⟨path, hpath, hfound⟩ := read_eq_ok htarget
  have hresolve := resolve_of_write hinteger hname hwrite hpath hfound
  obtain ⟨front, stored, hfront, hassign, rfl⟩ := write_eq_ok hwrite
  obtain ⟨front', hfront', hdescend⟩ := read_eq_ok hname
  rw [hfront] at hfront'
  cases hfront'
  rw [passesText_iff hresolve, passesText_iff hpath, read, hresolve, Except.bind, plain_store]
  split_ifs with hkey
  · have hplain : memory.plain (Name.ofText target).base =
        memory.plain (Name.ofText name).base := by rw [plain, plain, hkey]
    rw [hplain] at hfound ⊢
    exact descend_of_assign hold hdescend hassign hfound
  · exact ⟨⟨found, hfound⟩, Iff.rfl⟩

end Overwriting

-- An accessor that starts like a number has to be one; nothing else can go wrong with it.
theorem exists_invalidIndex_of_resolve {indexed : String} {accessors : List String}
    {e : RuntimeError} (h : memory.resolve indexed accessors = .error e) :
    ∃ index, e = .invalidIndex index := by
  induction accessors generalizing indexed with
  | nil => cases h
  | cons accessor rest ih =>
      rw [resolve] at h
      cases hlater : memory.resolve (indexed ++ "@" ++ accessor) rest with
      | error later =>
          rw [hlater] at h
          cases h
          exact ih hlater
      | ok later =>
          rw [hlater] at h
          unfold index at h
          split_ifs at h
          · split at h
            · cases h
            · cases h
              exact ⟨_, rfl⟩
          · cases h

-- Nothing can be reached from a value that has no items.
theorem read_of_itemless {name : String} (hindexed : (Name.ofText name).accessors ≠ [])
    (h : ∀ index indexed, (memory.plain (Name.ofText name).base).element index indexed =
      .error (.notIndexable indexed)) :
    (∃ indexed, memory.read name = .error (.notIndexable indexed)) ∨
      ∃ index, memory.read name = .error (.invalidIndex index) := by
  unfold read
  dsimp only
  cases hpath : memory.resolve (Name.ofText name).base (Name.ofText name).accessors with
  | error e =>
      obtain ⟨index, rfl⟩ := exists_invalidIndex_of_resolve hpath
      exact .inr ⟨index, rfl⟩
  | ok path =>
      cases path with
      | nil => exact absurd (List.length_eq_zero_iff.mp (length_resolve hpath).symm) hindexed
      | cons place rest =>
          refine .inl ⟨place.1, ?_⟩
          rw [Except.bind, descend, h]
          rfl

-- A name without accessors is that of a variable.
theorem read_of_plain {name : String} (h : (Name.ofText name).accessors = []) :
    memory.read name = .ok (memory.plain name) := by
  have hbase : (Name.ofText name).base = name := Name.base_of_plain h
  unfold read
  dsimp only
  rw [h, hbase]
  rfl

end Memory

end LineScript
