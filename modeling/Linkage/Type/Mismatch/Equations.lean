import Linkage.Type.Mismatch

/-!
# Equations of the comparison

The search for a mismatch follows one of its two types, whichever end that type stands at, and
remembers pairs that match. Seen from outside none of this matters: `mismatch?` satisfies one
equation for each kind of item, in terms of the mismatches of the entries, and need not be unfolded
again.
-/

set_option autoImplicit false

namespace Linkage

theorem ItemType.mismatch?_eq (found expected : ItemType) :
    found.mismatch? expected = (found.search .lower expected).fault? := by
  rw [ItemType.mismatch?, ItemType.sharedWith_eq]

@[simp]
theorem CoreType.mismatch?_self (type : CoreType) : type.mismatch? type = none := by
  simp [CoreType.mismatch?]

/-- Every type is below itself. -/
@[simp]
theorem ItemType.mismatch?_self (type : ItemType) : type.mismatch? type = none := by
  rw [ItemType.mismatch?_eq]
  cases type with
  | core type =>
      rw [ItemType.search, CoreType.mismatch?_self]
      rfl
  | inst exports => simp [ItemType.search, Search.fault?, MismatchSearch.compare]
  | module imports exports => simp [ItemType.search, Search.fault?, MismatchSearch.compare]

def Entries.mismatchAt? {α β : Type} (role : Role) (offered : List (Name × α))
    (compare : α → β → Option Mismatch) (entry : Name × β) : Option Mismatch :=
  match offered.lookup entry.1 with
  | none => some ⟨[], .missing role entry.1⟩
  | some offer => (compare offer entry.2).map (Mismatch.under ⟨role, entry.1⟩)

def Entries.mismatch? {α β : Type} (role : Role) (offered : List (Name × α))
    (wanted : List (Name × β)) (compare : α → β → Option Mismatch) : Option Mismatch :=
  (Entries.sorted wanted).findSome? (Entries.mismatchAt? role offered compare)

/-- Entries match themselves if their values do. -/
theorem Entries.mismatch?_self {α : Type} (role : Role) (entries : List (Name × α))
    {compare : α → α → Option Mismatch} (reflexive : ∀ value, compare value value = none) :
    mismatch? role entries entries compare = none := by
  unfold mismatch?
  rw [List.findSome?_eq_none_iff]
  intro entry inside
  unfold mismatchAt?
  rw [lookup_of_mem_sorted inside]
  simp only [reflexive, Option.map_none]

def Matches (pair : ItemType × ItemType) : Prop := pair.1.mismatch? pair.2 = none

namespace MismatchSearch

variable {found expected : ItemType} {search : MismatchSearch} {answer : Option Mismatch}

theorem fault?_compare (finds : Search.Finds Matches search answer)
    (reflexive : found = expected → answer = none) :
    (compare found expected search).fault? = answer := by
  by_cases equal : found = expected
  · unfold Search.fault? compare
    rw [if_pos equal, reflexive equal]
  · have settles : compare found expected search = Search.settle (found, expected) search := by
      funext settled
      exact if_neg equal
    rw [settles, Search.fault?_settle, finds.fault?_eq]

theorem finds_compare (finds : Search.Finds Matches search answer)
    (same : found.mismatch? expected = answer) :
    Search.Finds Matches (compare found expected search) answer := by
  intro settled allMatch
  by_cases equal : found = expected
  · subst equal
    rw [← same, found.mismatch?_self, compare, if_pos rfl]
    exact ⟨settled, rfl, allMatch⟩
  · rw [compare, if_neg equal]
    exact finds.settle (same ▸ Iff.rfl) settled allMatch

end MismatchSearch

namespace Entries

variable {α β γ : Type}

theorem search_map_offered (role : Role) (offered : List (Name × γ)) (wanted : List (Name × β))
    (change : γ → α) (compare : α → β → MismatchSearch) :
    search role (offered.map fun entry => (entry.1, change entry.2)) wanted compare =
      search role offered wanted fun offer => compare (change offer) := by
  have same : searchAt role (offered.map fun entry => (entry.1, change entry.2)) compare =
      searchAt role offered fun offer => compare (change offer) := by
    funext entry
    simp only [searchAt, lookup_map]
    cases offered.lookup entry.1 <;> rfl
  unfold search
  rw [same]

theorem search_map_wanted (role : Role) (offered : List (Name × α)) (wanted : List (Name × γ))
    (change : γ → β) (compare : α → β → MismatchSearch) :
    search role offered (wanted.map fun entry => (entry.1, change entry.2)) compare =
      search role offered wanted fun offer want => compare offer (change want) := by
  funext settled
  unfold search Search.inOrder
  rw [sorted_map, List.foldlM_map]
  rfl

theorem finds_searchAt {role : Role} {offered : List (Name × α)} {entry : Name × β}
    {compare : α → β → MismatchSearch} {answer : α → β → Option Mismatch}
    (agree : ∀ offer ∈ offered,
      Search.Finds Matches (compare offer.2 entry.2) (answer offer.2 entry.2)) :
    Search.Finds Matches (searchAt role offered compare entry)
      (mismatchAt? role offered answer entry) := by
  unfold searchAt mismatchAt?
  cases found : offered.lookup entry.1 with
  | none => exact Search.finds_ofOption _
  | some offer => exact (agree _ (mem_of_lookup found)).mapError _

/-- Searching entries finds the first mismatch if the searches of their values do. -/
theorem finds_search {role : Role} {offered : List (Name × α)} {wanted : List (Name × β)}
    {compare : α → β → MismatchSearch} {answer : α → β → Option Mismatch}
    (agree : ∀ offer ∈ offered, ∀ want ∈ wanted,
      Search.Finds Matches (compare offer.2 want.2) (answer offer.2 want.2)) :
    Search.Finds Matches (search role offered wanted compare)
      (mismatch? role offered wanted answer) :=
  Search.finds_inOrder fun entry inside =>
    finds_searchAt fun offer among => agree offer among entry (mem_of_mem_sorted inside)

end Entries

theorem ItemType.searches_eq (entries : List (Name × ItemType)) :
    ItemType.searches entries = entries.map fun entry => (entry.1, entry.2.search) := by
  induction entries with
  | nil => rfl
  | cons entry rest ih => rw [ItemType.searches, ih, List.map_cons]

/-- The searches that follow the first type find its mismatch with the second, at either end. -/
structure ItemType.Followed (type other : ItemType) : Prop where
  lower : Search.Finds Matches (type.search .lower other) (type.mismatch? other)
  upper : Search.Finds Matches (type.search .upper other) (other.mismatch? type)

def ItemType.Agree (type other : ItemType) : Prop := type.Followed other ∧ other.Followed type

def Entries.Agree (entries others : List (Name × ItemType)) : Prop :=
  ∀ entry ∈ entries, ∀ other ∈ others, entry.2.Agree other.2

theorem Entries.Agree.symm {entries others : List (Name × ItemType)}
    (agree : Entries.Agree entries others) : Entries.Agree others entries :=
  fun other inside entry among => ⟨(agree entry among other inside).2,
    (agree entry among other inside).1⟩

namespace Entries

variable {entries others : List (Name × ItemType)}

/-- Following the offered entries finds their mismatch. -/
theorem Agree.finds_offered (agree : Entries.Agree entries others) (role : Role) :
    Search.Finds Matches
      (search role (ItemType.searches entries) others fun entry => entry .lower)
      (mismatch? role entries others ItemType.mismatch?) := by
  rw [ItemType.searches_eq, search_map_offered]
  exact finds_search fun offer among want inside => (agree offer among want inside).1.lower

/-- Following the wanted entries finds their mismatch. -/
theorem Agree.finds_wanted (agree : Entries.Agree entries others) (role : Role) :
    Search.Finds Matches
      (search role others (ItemType.searches entries) fun other entry => entry .upper other)
      (mismatch? role others entries ItemType.mismatch?) := by
  rw [ItemType.searches_eq, search_map_wanted]
  exact finds_search fun offer among want inside => (agree want inside offer among).1.upper

end Entries

namespace ItemType

variable {type other : ItemType}

theorem mismatch?_of_ofOption {answer : Option Mismatch}
    (lower : type.search .lower other = .ofOption answer) : type.mismatch? other = answer := by
  have finds : Search.Finds Matches (.ofOption answer) answer := Search.finds_ofOption answer
  rw [mismatch?_eq, lower, finds.fault?_eq]

/-- Types without entries to compare can be followed. -/
theorem Followed.of_ofOption {forward backward : Option Mismatch}
    (lower : type.search .lower other = .ofOption forward)
    (upper : type.search .upper other = .ofOption backward)
    (reverse : other.search .lower type = .ofOption backward) : type.Followed other where
  lower := by
    rw [lower, mismatch?_of_ofOption lower]
    exact Search.finds_ofOption forward
  upper := by
    rw [upper, mismatch?_of_ofOption reverse]
    exact Search.finds_ofOption backward

/-- Types of different kinds can be followed. -/
theorem Followed.of_kinds
    (lower : type.search .lower other = .ofOption (some ⟨[], .kind type.kind other.kind⟩))
    (upper : type.search .upper other = .ofOption (some ⟨[], .kind other.kind type.kind⟩))
    (reverse : other.search .lower type = .ofOption (some ⟨[], .kind other.kind type.kind⟩)) :
    type.Followed other := .of_ofOption lower upper reverse

end ItemType

theorem InstanceType.mismatch?_of_agree {found expected : InstanceType}
    (agree : Entries.Agree found expected) :
    InstanceType.mismatch? found expected =
      Entries.mismatch? .exports found expected ItemType.mismatch? := by
  rw [InstanceType.mismatch?, ItemType.mismatch?_eq, ItemType.search]
  refine MismatchSearch.fault?_compare (agree.finds_offered .exports) fun equal => ?_
  rw [ItemType.inst.inj equal]
  exact Entries.mismatch?_self _ _ ItemType.mismatch?_self

theorem ModuleType.mismatch?_of_agree {found expected : ModuleType}
    (exports : Entries.Agree found.exports expected.exports)
    (imports : Entries.Agree found.imports expected.imports) :
    found.mismatch? expected =
      (Entries.mismatch? .exports found.exports expected.exports ItemType.mismatch?).or
        (Entries.mismatch? .imports expected.imports found.imports ItemType.mismatch?) := by
  rw [ModuleType.mismatch?, ItemType.mismatch?_eq, ItemType.ofModule, ItemType.ofModule,
    ItemType.search]
  refine MismatchSearch.fault?_compare ((exports.finds_offered .exports).bind
    (imports.finds_wanted .imports)) fun equal => ?_
  obtain ⟨sameImports, sameExports⟩ := ItemType.module.inj equal
  rw [sameImports, sameExports, Entries.mismatch?_self _ _ ItemType.mismatch?_self,
    Entries.mismatch?_self _ _ ItemType.mismatch?_self]
  rfl

namespace ItemType

theorem Followed.inst {exports others : List (Name × ItemType)}
    (agree : Entries.Agree exports others) : (ItemType.inst exports).Followed (.inst others) where
  lower := by
    have same := InstanceType.mismatch?_of_agree agree
    rw [InstanceType.mismatch?] at same
    rw [same, search]
    exact MismatchSearch.finds_compare (agree.finds_offered .exports) same
  upper := by
    have same := InstanceType.mismatch?_of_agree agree.symm
    rw [InstanceType.mismatch?] at same
    rw [same, search]
    exact MismatchSearch.finds_compare (agree.finds_wanted .exports) same

theorem Followed.module {imports exports otherImports otherExports : List (Name × ItemType)}
    (importsAgree : Entries.Agree imports otherImports)
    (exportsAgree : Entries.Agree exports otherExports) :
    (ItemType.module imports exports).Followed (.module otherImports otherExports) where
  lower := by
    have same : (ItemType.module imports exports).mismatch? (.module otherImports otherExports) =
        _ := @ModuleType.mismatch?_of_agree ⟨imports, exports⟩ ⟨otherImports, otherExports⟩
      exportsAgree importsAgree
    rw [same, search]
    exact MismatchSearch.finds_compare ((exportsAgree.finds_offered .exports).bind
      (importsAgree.finds_wanted .imports)) same
  upper := by
    have same : (ItemType.module otherImports otherExports).mismatch? (.module imports exports) =
        _ := @ModuleType.mismatch?_of_agree ⟨otherImports, otherExports⟩ ⟨imports, exports⟩
      exportsAgree.symm importsAgree.symm
    rw [same, search]
    exact MismatchSearch.finds_compare ((exportsAgree.finds_wanted .exports).bind
      (importsAgree.finds_offered .imports)) same

end ItemType

mutual

/-- Whichever type is followed, at whichever end it stands, the search finds the mismatch. -/
theorem ItemType.agree : ∀ type other : ItemType, type.Agree other
  | .core _, .core _ => ⟨.of_ofOption rfl rfl rfl, .of_ofOption rfl rfl rfl⟩
  | .core _, .inst _ => ⟨.of_kinds rfl rfl rfl, .of_kinds rfl rfl rfl⟩
  | .core _, .module _ _ => ⟨.of_kinds rfl rfl rfl, .of_kinds rfl rfl rfl⟩
  | .inst _, .core _ => ⟨.of_kinds rfl rfl rfl, .of_kinds rfl rfl rfl⟩
  | .inst _, .module _ _ => ⟨.of_kinds rfl rfl rfl, .of_kinds rfl rfl rfl⟩
  | .module _ _, .core _ => ⟨.of_kinds rfl rfl rfl, .of_kinds rfl rfl rfl⟩
  | .module _ _, .inst _ => ⟨.of_kinds rfl rfl rfl, .of_kinds rfl rfl rfl⟩
  | .inst exports, .inst others =>
      have agree : Entries.Agree exports others := fun entry inside other _ =>
        ItemType.agree_of_mem exports entry inside other.2
      ⟨.inst agree, .inst agree.symm⟩
  | .module imports exports, .module otherImports otherExports =>
      have importsAgree : Entries.Agree imports otherImports := fun entry inside other _ =>
        ItemType.agree_of_mem imports entry inside other.2
      have exportsAgree : Entries.Agree exports otherExports := fun entry inside other _ =>
        ItemType.agree_of_mem exports entry inside other.2
      ⟨.module importsAgree exportsAgree, .module importsAgree.symm exportsAgree.symm⟩

theorem ItemType.agree_of_mem : ∀ entries : List (Name × ItemType), ∀ entry ∈ entries,
    ∀ other : ItemType, entry.2.Agree other
  | [], _, inside, _ => absurd inside List.not_mem_nil
  | (_, type) :: rest, entry, inside, other => by
      rcases List.mem_cons.mp inside with first | later
      · subst first
        exact ItemType.agree type other
      · exact ItemType.agree_of_mem rest entry later other

end

/-- Instance types are compared by their exports. -/
theorem InstanceType.mismatch?_eq (found expected : InstanceType) :
    InstanceType.mismatch? found expected =
      Entries.mismatch? .exports found expected ItemType.mismatch? :=
  InstanceType.mismatch?_of_agree fun entry _ other _ => entry.2.agree other.2

/-- Module types are compared by their exports and then, with the ends exchanged, their imports. -/
theorem ModuleType.mismatch?_eq (found expected : ModuleType) :
    found.mismatch? expected =
      (InstanceType.mismatch? found.exports expected.exports).or
        (Entries.mismatch? .imports expected.imports found.imports ItemType.mismatch?) := by
  rw [InstanceType.mismatch?_eq]
  exact ModuleType.mismatch?_of_agree (fun entry _ other _ => entry.2.agree other.2)
    fun entry _ other _ => entry.2.agree other.2

namespace ItemType

@[simp]
theorem mismatch?_core (found expected : CoreType) :
    (ItemType.core found).mismatch? (.core expected) = found.mismatch? expected :=
  mismatch?_of_ofOption rfl

/-- Items that are instances are compared as instance types. -/
@[simp]
theorem mismatch?_inst (found expected : InstanceType) :
    (ItemType.inst found).mismatch? (.inst expected) = InstanceType.mismatch? found expected := rfl

/-- Items that are modules are compared as module types. -/
theorem mismatch?_module (found expected : ModuleType) :
    (ItemType.ofModule found).mismatch? (.ofModule expected) = found.mismatch? expected := rfl

/-- Items of different kinds never match, and the kinds are the reason. -/
theorem mismatch?_of_kind_ne {found expected : ItemType} (different : found.kind ≠ expected.kind) :
    found.mismatch? expected = some ⟨[], .kind found.kind expected.kind⟩ := by
  cases found with
  | core type =>
      cases expected with
      | core other =>
          rw [mismatch?_core]
          exact if_pos different
      | inst _ => exact mismatch?_of_ofOption rfl
      | module _ _ => exact mismatch?_of_ofOption rfl
  | inst _ =>
      cases expected with
      | core _ => exact mismatch?_of_ofOption rfl
      | inst _ => exact absurd rfl different
      | module _ _ => exact mismatch?_of_ofOption rfl
  | module _ _ =>
      cases expected with
      | core _ => exact mismatch?_of_ofOption rfl
      | inst _ => exact mismatch?_of_ofOption rfl
      | module _ _ => exact absurd rfl different

end ItemType

end Linkage
