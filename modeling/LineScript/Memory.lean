import LineScript.Files
import LineScript.Text.Lowercase
import LineScript.Text.Line
import LineScript.Value.Collection

namespace LineScript

-- Keys to values, each key once.
abbrev Scope := List (String × Value)

namespace Scope

def get? (scope : Scope) (key : String) : Option Value := scope.lookup key

def insert (scope : Scope) (key : String) (value : Value) : Scope :=
  match scope with
  | [] => [(key, value)]
  | entry :: rest =>
      if entry.1 = key then (key, value) :: rest else entry :: Scope.insert rest key value

def result : String := "result"
def argument : String := "argument"
def returned : String := "return"

-- Every scope starts with these four.
def fresh : Scope :=
  [(result, .integer 0), (argument, .null), (returned, .null), ("null", .null)]

end Scope

-- An order in which the variables of a scope are met. The scope itself has none: the same variables
-- may be met in another order every time.
structure Scope.Order where
  arrange : Scope → Scope
  perm : ∀ scope, (arrange scope).Perm scope

def Scope.Order.ofCreation : Scope.Order := ⟨id, fun _ => .refl _⟩

-- A variable as it is written, `base@accessor@accessor`.
structure Name where
  base : String
  accessors : List String
deriving DecidableEq, Repr

def Name.ofText (text : String) : Name :=
  let pieces := Text.splitOn '@' text.toList
  ⟨String.ofList pieces.1, pieces.2.map String.ofList⟩

-- Only the current scope is visible. The nearest parent comes first and the root last.
structure Memory where
  current : Scope
  parents : List Scope

namespace Memory

def fresh : Memory := ⟨Scope.fresh, []⟩

def depth (memory : Memory) : Nat := memory.parents.length + 1

-- Names that differ only in case are one variable.
def key (name : String) : String := Text.lowercase name

-- A variable that was never assigned reads as null.
def plain (memory : Memory) (name : String) : Value :=
  (memory.current.get? (key name)).getD .null

-- An accessor is a number if it starts like one, and else the name of a plain variable.
def index (memory : Memory) (accessor : String) : Except RuntimeError Value :=
  if accessor.toList.head?.any Char.isDigit then
    match Number.readInteger? accessor.toList with
    | some n => .ok (.integer n)
    | none => .error (.invalidIndex (.string accessor))
  else .ok (memory.plain accessor)

-- The accessors of a name with what each of them indexes. The last one is evaluated first.
def resolve (memory : Memory) (indexed : String) :
    List String → Except RuntimeError (List (String × Value))
  | [] => .ok []
  | accessor :: rest =>
      (memory.resolve (indexed ++ "@" ++ accessor) rest).bind fun later =>
        (memory.index accessor).map fun index => (indexed, index) :: later

-- Goes from a value down along resolved accessors.
def descend : List (String × Value) → Value → Except RuntimeError Value
  | [], value => .ok value
  | (indexed, index) :: rest, value => (value.element index indexed).bind (descend rest)

-- Puts a new value at the end of the same way.
def assign (new : Value) : List (String × Value) → Value → Except RuntimeError Value
  | [], _ => .ok new
  | (indexed, index) :: rest, value => value.modifyElement index indexed (assign new rest)

def read (memory : Memory) (text : String) : Except RuntimeError Value :=
  let name := Name.ofText text
  (memory.resolve name.base name.accessors).bind fun path => descend path (memory.plain name.base)

def store (memory : Memory) (name : String) (value : Value) : Memory :=
  { memory with current := memory.current.insert (key name) value }

-- Only a plain variable can come into being this way, and only if `create` allows it.
def write (memory : Memory) (text : String) (value : Value) (create : Bool) :
    Except RuntimeError Memory :=
  let name := Name.ofText text
  if name.accessors = [] then
    if create || (memory.current.get? (key name.base)).isSome then
      .ok (memory.store name.base value)
    else .error (.unboundVariable name.base)
  else
    (memory.resolve name.base name.accessors).bind fun path =>
      match memory.current.get? (key name.base) with
      | none => .error (.unboundVariable name.base)
      | some old => (assign value path old).map (memory.store name.base)

-- `argument` is carried in.
def openScope (memory : Memory) : Memory :=
  let argument := (memory.current.get? Scope.argument).getD .null
  ⟨Scope.insert Scope.fresh Scope.argument argument, memory.current :: memory.parents⟩

-- `return` is carried out.
def closeScope (memory : Memory) : Except RuntimeError Memory :=
  match memory.parents with
  | [] => .error .finalScope
  | parent :: others =>
      let returned := (memory.current.get? Scope.returned).getD .null
      .ok ⟨parent.insert Scope.returned returned, others⟩

-- Labels live in the root scope.
def bindLabel (memory : Memory) (name : String) (index : Nat) : Memory :=
  let bind (scope : Scope) := scope.insert (key name) (.integer (Number.saturate index))
  match memory.parents.getLast? with
  | none => { memory with current := bind memory.current }
  | some root => { memory with parents := memory.parents.dropLast ++ [bind root] }

-- All values, those of the root scope first.
def values (memory : Memory) : List Value :=
  (memory.parents.reverse ++ [memory.current]).flatMap fun scope => scope.map Prod.snd

def handles (memory : Memory) : List Handle := memory.values.flatMap Value.handles

-- The same variables in the same scopes, each scope in an order of its own.
def arranged (memory : Memory) (orders : Nat → Scope.Order) : Memory :=
  ⟨(orders 0).arrange memory.current,
    memory.parents.mapIdx fun i scope => (orders (i + 1)).arrange scope⟩

-- The files in the order in which memory lets them go: the current scope goes first, then those
-- below it from the root on.
def leaving (memory : Memory) : List Handle :=
  ((memory.current :: memory.parents.reverse).flatMap fun scope => scope.map Prod.snd).flatMap
    Value.handles

end Memory

-- What is left of closing all files: the count of those that were open and the failures met.
structure Sweep where
  files : Files
  closed : Nat
  failures : List RuntimeError

-- A value whose files cannot all be closed adds nothing to the count.
def Files.sweep (files : Files) (values : List Value) : Sweep :=
  values.foldl
    (fun sweep value =>
      match sweep.files.closeAll value.handles with
      | (closed, .ok count) => { sweep with files := closed, closed := sweep.closed + count }
      | (closed, .error e) => { sweep with files := closed, failures := sweep.failures ++ [e] })
    ⟨files, 0, []⟩

end LineScript
