import LineScript.Value

namespace LineScript

-- A shared file is borrowed by many at once to be looked at, and by one alone to be changed.
inductive Access where
  | look
  | change
deriving DecidableEq, Repr

-- The files that are borrowed at the moment. A file is given back as soon as that is done for which
-- it was borrowed, so that nothing is borrowed in between.
abbrev Loans := List (Handle × Access)

namespace Loans

def none : Loans := []

def lend (loans : Loans) (handle : Handle) (access : Access) : Loans := (handle, access) :: loans

-- Whether a file can be borrowed beside those that are.
def admits (loans : Loans) (access : Access) (handle : Handle) : Bool :=
  loans.all fun loan => loan.1 ≠ handle ∨ (loan.2 = .look ∧ access = .look)

-- Whether files can be borrowed one after the other, each given back before the next.
def grants (loans : Loans) (access : Access) (handles : List Handle) : Bool :=
  handles.all (loans.admits access)

end Loans

end LineScript
