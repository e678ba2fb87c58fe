import Linkage.Search
import Linkage.Type.Printer
import Linkage.Type.Sharing

/-!
# Subtyping and its mismatches

A type is below another if both have the same kind and

* as core types they are equal;
* as instance types the lower one has every export of the upper one, with a type below it;
* as module types the exports of the lower one are below those of the upper one, and the imports of
  the upper one are below those of the lower one.

`ItemType.mismatch?` finds the first reason why this fails, with the path of entries that leads to
it: exports before imports, and the entries of a family in byte order of their names. Pairs of types
that are equal or have been found to match are not compared again.
-/

set_option autoImplicit false

namespace Linkage

structure Step where
  role : Role
  name : Name
deriving DecidableEq, Repr

def Step.text (step : Step) : Text := step.role.keyword ++ " " ++ Text.quoted step.name

/-- Why two types do not match; `found` belongs to the lower one, `expected` to the upper one. -/
inductive Reason where
  | kind (found expected : ItemKind)
  | core (found expected : CoreType)
  | missing (role : Role) (name : Name)
deriving DecidableEq, Repr

def CoreType.label : CoreType → Text
  | .func _ => "function"
  | .table _ => "table"
  | .memory _ => "memory"
  | .global _ => "global"

def Reason.text : Reason → Text
  | .kind found expected => "expected " ++ expected.name ++ " but found " ++ found.name
  | .core found expected =>
      found.label ++ " type " ++ found.text ++ " does not match " ++ expected.text
  | .missing .exports name => "export " ++ Text.quoted name ++ " is missing"
  | .missing .imports name =>
      "import " ++ Text.quoted name ++ " is required but not provided by the super type"

structure Mismatch where
  path : List Step
  reason : Reason
deriving DecidableEq, Repr

namespace Mismatch

def under (step : Step) (mismatch : Mismatch) : Mismatch :=
  { mismatch with path := step :: mismatch.path }

def text (mismatch : Mismatch) : Text :=
  mismatch.path.flatMap (fun step => (step.text ++ " / " : Text)) ++ mismatch.reason.text

end Mismatch

def CoreType.mismatch? (found expected : CoreType) : Option Mismatch :=
  if found.kind ≠ expected.kind then some ⟨[], .kind found.kind expected.kind⟩
  else if found ≠ expected then some ⟨[], .core found expected⟩
  else none

/-- The end of a comparison at which a type stands. -/
inductive Rank where
  | lower
  | upper
deriving DecidableEq, Repr

/-- A search for a mismatch; what it settles are pairs of types of which the first is below the
second. -/
abbrev MismatchSearch := Search Mismatch (ItemType × ItemType)

/-- Compares two types unless they are equal or settled. -/
def MismatchSearch.compare (found expected : ItemType) (search : MismatchSearch) :
    MismatchSearch := fun settled =>
  if found = expected then .ok settled else Search.settle (found, expected) search settled

def Entries.searchAt {α β : Type} (role : Role) (offered : List (Name × α))
    (compare : α → β → MismatchSearch) (entry : Name × β) : MismatchSearch :=
  match offered.lookup entry.1 with
  | none => .ofOption (some ⟨[], .missing role entry.1⟩)
  | some offer => fun settled =>
      (compare offer entry.2 settled).mapError (Mismatch.under ⟨role, entry.1⟩)

def Entries.search {α β : Type} (role : Role) (offered : List (Name × α))
    (wanted : List (Name × β)) (compare : α → β → MismatchSearch) : MismatchSearch := fun settled =>
  Search.inOrder (Entries.searchAt role offered compare) (Entries.sorted wanted) settled

mutual

/-- Compares the first type, which stands at the given end, with another one. Imports exchange the
ends, so the recursion follows the first type at whichever end it stands. -/
def ItemType.search : ItemType → Rank → ItemType → MismatchSearch
  | .core type, .lower, .core other => .ofOption (type.mismatch? other)
  | .core type, .upper, .core other => .ofOption (other.mismatch? type)
  | .inst exports, .lower, .inst others =>
      .compare (.inst exports) (.inst others) fun settled =>
        Entries.search .exports (ItemType.searches exports) others (fun entry => entry .lower)
          settled
  | .inst exports, .upper, .inst others =>
      .compare (.inst others) (.inst exports) fun settled =>
        Entries.search .exports others (ItemType.searches exports)
          (fun other entry => entry .upper other) settled
  | .module imports exports, .lower, .module otherImports otherExports =>
      .compare (.module imports exports) (.module otherImports otherExports) fun settled =>
        Entries.search .exports (ItemType.searches exports) otherExports
          (fun entry => entry .lower) settled
        >>= Entries.search .imports otherImports (ItemType.searches imports)
          fun other entry => entry .upper other
  | .module imports exports, .upper, .module otherImports otherExports =>
      .compare (.module otherImports otherExports) (.module imports exports) fun settled =>
        Entries.search .exports otherExports (ItemType.searches exports)
          (fun other entry => entry .upper other) settled
        >>= Entries.search .imports (ItemType.searches imports) otherImports
          fun entry => entry .lower
  | type, .lower, other => .ofOption (some ⟨[], .kind type.kind other.kind⟩)
  | type, .upper, other => .ofOption (some ⟨[], .kind other.kind type.kind⟩)

def ItemType.searches :
    List (Name × ItemType) → List (Name × (Rank → ItemType → MismatchSearch))
  | [] => []
  | (name, type) :: rest => (name, type.search) :: ItemType.searches rest

end

namespace ItemType

def mismatch? (found expected : ItemType) : Option Mismatch :=
  match found.sharedWith expected with
  | (found, expected) => (found.search .lower expected).fault?

def isSubtype (found expected : ItemType) : Bool := (found.mismatch? expected).isNone

def isEquivalent (a b : ItemType) : Bool := a.isSubtype b && b.isSubtype a

end ItemType

def InstanceType.mismatch? (found expected : InstanceType) : Option Mismatch :=
  (ItemType.inst found).mismatch? (.inst expected)

def ModuleType.mismatch? (found expected : ModuleType) : Option Mismatch :=
  (ItemType.ofModule found).mismatch? (.ofModule expected)

end Linkage
