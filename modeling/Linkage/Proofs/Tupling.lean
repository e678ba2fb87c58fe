import Mathlib.Data.List.Perm.Basic
import Linkage.Proofs.Judgement
import Linkage.Proofs.Lifecycle

/-!
# Tuples and aliases

A tuple puts items of a scope together to an instance, and an alias of an export takes an item out
of an instance. Each undoes the other. What was put into a tuple under a name comes out under this
name and with its own kind, and nothing else does (`Unpacks`). An instance that is taken apart by
aliases, in any order, is the same again when the new items are put together under the names they
had: `aliasAll` keeps book of the new items, and `exists_aliasAll` says that it gets them right,
whatever mixture of kinds they are.
-/

set_option autoImplicit false

namespace Linkage

namespace Scope

variable {options : Validation.Options} {outer : List Enclosing} {scope later : Scope}
  {exports items : InstanceType} {item : ItemType} {name : Name} {index : Nat}

def withItem (scope : Scope) (item : ItemType) : Scope :=
  { scope with spaces := scope.spaces.push item item.kind }

theorem grows_withItem (scope : Scope) (item : ItemType) : scope.Grows (scope.withItem item) :=
  .push scope item.kind item

/-- The new item stands at the end of its space. -/
theorem view_withItem (scope : Scope) (item : ItemType) :
    (scope.withItem item).view item.kind (scope.length item.kind) = some item := by
  rw [view, withItem, Spaces.get_push, if_pos rfl]
  exact List.getElem?_concat_length

/-! ## One alias -/

/-- An alias is accepted: it declares an item at the end of the space of its kind, and nothing else
changes. -/
structure Accepts (scope : Scope) (outer : List Enclosing) (target : ExportAlias)
    (item : ItemType) : Prop where
  result : (scope.aliasExport outer target).result =
    .ok (scope.length item.kind, scope.withItem item)
  inPlace : (Acting.aliasExport target).on scope =
    (.ok (scope.length item.kind), scope.withItem item)

/-- An alias is refused for a cause. Done in place, it leaves the scope as it was. -/
structure Refuses (scope : Scope) (outer : List Enclosing) (target : ExportAlias)
    (cause : Cause) : Prop where
  result : (scope.aliasExport outer target).result = scope.reject cause
  inPlace : (Acting.aliasExport target).on scope = (scope.reject cause, scope)

theorem accepts_of_findExport {target : ExportAlias} (accumulating : scope.state = .accumulating)
    (found : scope.findExport target = .ok item) : scope.Accepts outer target item := by
  have result : (scope.aliasExport outer target).result =
      .ok (scope.length item.kind, scope.withItem item) := by
    rw [result_aliasExport, found]
    exact declare_eq_ok_iff.mpr ⟨accumulating, .inr rfl, rfl, rfl⟩
  have performs := Acting.performs_aliasExport outer target scope
  rw [result] at performs
  exact ⟨result, performs⟩

theorem refuses_of_findExport {target : ExportAlias} {cause : Cause}
    (failed : scope.findExport target = scope.reject cause) :
    scope.Refuses outer target cause := by
  have result : (scope.aliasExport outer target).result = scope.reject cause := by
    rw [result_aliasExport, failed]
    rfl
  have performs := Acting.performs_aliasExport outer target scope
  rw [result] at performs
  exact ⟨result, performs⟩

theorem findExport_of_other_kind {code : KindCode}
    (source : scope.view .inst index = some (.inst exports))
    (exported : exports.lookup name = some item) (other : code ≠ .ofKind item.kind) :
    scope.findExport ⟨index, name, code⟩ =
      scope.reject (if code.isDefinition then .exportKind name index item.kind code
        else .exportedType name) := by
  rw [findExport, instanceAt_eq_ok_iff.mpr source]
  change (if code.isDefinition then _ else _ : Except Fault ItemType) = _
  cases code.isDefinition with
  | false => rfl
  | true =>
      simp only [if_true, exported]
      exact if_neg (Ne.symm other)

theorem findExport_of_other_name {code : KindCode}
    (source : scope.view .inst index = some (.inst exports))
    (absent : exports.lookup name = none) :
    scope.findExport ⟨index, name, code⟩ =
      scope.reject (if code.isDefinition then .unboundExport index name
        else .exportedType name) := by
  rw [findExport, instanceAt_eq_ok_iff.mpr source]
  change (if code.isDefinition then _ else _ : Except Fault ItemType) = _
  cases code.isDefinition with
  | false => rfl
  | true => simp only [if_true, absent]

/-! ## From a tuple to aliases -/

/-- References that resolve name items, one by one. -/
theorem exists_namesEach {use : Use} {references : List (Name × ItemRef)}
    (resolves : ∀ entry ∈ references, ∃ item, scope.resolveItem use entry.2 = .ok item) :
    ∃ items, NamesEach scope.view references items := by
  induction references with
  | nil => exact ⟨[], .nil⟩
  | cons entry rest ih =>
      obtain ⟨item, found⟩ := resolves entry List.mem_cons_self
      obtain ⟨items, named⟩ := ih fun other inside => resolves other (List.mem_cons_of_mem _ inside)
      exact ⟨(entry.1, item) :: items, .cons ⟨rfl, resolveItem_eq_ok_iff.mp found⟩ named⟩

/-- A tuple of distinct names is accepted if its references name items, and declares the instance of
these. -/
theorem result_define_tuple {references : List (Name × ItemRef)}
    (accumulating : scope.state = .accumulating) (distinct : (references.map Prod.fst).Nodup)
    (named : NamesEach scope.view references items) :
    (Validation.define options outer scope (.tuple references)).result =
      .ok (scope.withItem (.inst items)) := by
  have found : Validation.itemOf options outer scope (.tuple references) = .ok (.inst items) := by
    have rule : Rule scope.view (outer.map Enclosing.view) ⟨[], []⟩ (.tuple references)
        (.inst items) := .tuple distinct named
    refine (Validation.itemOf_eq_ok_iff ?_).mpr rule
    intro _ _ isNested
    cases isNested
  rw [Validation.result_define_eq, found]
  exact recordIn_own accumulating (.inst items)

/-- The item that a reference had is what stands under its name. -/
theorem lookup_of_namesEach {references : List (Name × ItemRef)} {entry : Name × ItemRef}
    (distinct : (references.map Prod.fst).Nodup) (named : NamesEach scope.view references items)
    (inside : entry ∈ references) {use : Use} (found : scope.resolveItem use entry.2 = .ok item) :
    items.lookup entry.1 = some item := by
  have present : entry.1 ∈ items.map Prod.fst := named.names_eq ▸ List.mem_map_of_mem inside
  obtain ⟨other, stands⟩ := Entries.has_iff.mp (Entries.has_iff_mem.mpr present)
  obtain ⟨reference, refers, names⟩ := named.covers entry.1 other stands
  rw [Entries.lookup_of_mem_nodup distinct inside, Option.some.injEq] at refers
  subst refers
  have same := (resolveItem_eq_ok_iff.mpr names).symm.trans found
  rw [stands, Except.ok.inj same]

/-- An instance of a scope gives out what was put into it by references in an earlier scope: under
each name the item that the reference had there, as what it is and as nothing else, and nothing
under any other name. -/
structure Unpacks (before : Scope) (references : List (Name × ItemRef)) (outer : List Enclosing)
    (scope : Scope) (index : Nat) : Prop where
  items : ∀ entry ∈ references, ∀ item, before.resolveItem .tupleExport entry.2 = .ok item →
    scope.Accepts outer ⟨index, entry.1, .ofKind item.kind⟩ item
  kinds : before.Kinded → ∀ entry ∈ references, ∀ item,
    before.resolveItem .tupleExport entry.2 = .ok item → entry.2.kind = .ofKind item.kind
  otherKinds : ∀ entry ∈ references, ∀ item,
    before.resolveItem .tupleExport entry.2 = .ok item → ∀ code, code ≠ .ofKind item.kind →
      ∃ cause, cause.kind? = some .kindMismatch ∧ scope.Refuses outer ⟨index, entry.1, code⟩ cause
  otherNames : ∀ name, name ∉ references.map Prod.fst → ∀ code,
    ∃ cause, cause.kind? = some (if code.isDefinition then .unboundExport else .kindMismatch) ∧
      scope.Refuses outer ⟨index, name, code⟩ cause

theorem unpacks_of_view {before : Scope} {references : List (Name × ItemRef)}
    (distinct : (references.map Prod.fst).Nodup) (named : NamesEach before.view references items)
    (accumulating : scope.state = .accumulating)
    (source : scope.view .inst index = some (.inst items)) :
    Unpacks before references outer scope index where
  items := by
    intro entry inside item found
    have exported := lookup_of_namesEach distinct named inside found
    exact accepts_of_findExport accumulating
      (findExport_eq_ok_iff.mpr ⟨items, source, exported, rfl⟩)
  kinds := by
    intro kinded entry inside item found
    obtain ⟨kind, notType, code, stands⟩ := resolveItem_eq_ok_iff.mp found
    rw [code, kinded kind notType item (List.mem_of_getElem? stands)]
  otherKinds := by
    intro entry inside item found code other
    have exported := lookup_of_namesEach distinct named inside found
    refine ⟨_, ?_, refuses_of_findExport (findExport_of_other_kind source exported other)⟩
    cases code.isDefinition <;> rfl
  otherNames := by
    intro name new code
    have absent : items.lookup name = none :=
      Entries.lookup_eq_none_iff_names.mpr (named.names_eq ▸ new)
    refine ⟨_, ?_, refuses_of_findExport (findExport_of_other_name source absent)⟩
    cases code.isDefinition <;> rfl

/-! ## From aliases to a tuple -/

/-- Aliases exports of an instance one after the other. Returns references to the new items, each
under the name of its export, and the scope. -/
def aliasAll (outer : List Enclosing) (index : Nat) :
    Scope → List (Name × ItemKind) → Traced Fault (List (Name × ItemRef) × Scope)
  | scope, [] => pure ([], scope)
  | scope, (name, kind) :: rest => do
      let (position, next) ← scope.aliasExport outer ⟨index, name, .ofKind kind⟩
      let (references, last) ← next.aliasAll outer index rest
      return ((name, ⟨.ofKind kind, position⟩) :: references, last)

def aliasesOf (index : Nat) (items : InstanceType) : List Definition :=
  items.map fun item => .exportAlias ⟨index, item.1, .ofKind item.2.kind⟩

/-- Exports that the instance has can be aliased in any order, and the references returned name the
new items in the scope at the end, under the names of the exports. -/
theorem exists_aliasAll (accumulating : scope.state = .accumulating)
    (source : scope.view .inst index = some (.inst exports))
    (exported : ∀ item ∈ items, exports.lookup item.1 = some item.2) :
    ∃ references last,
      (aliasAll outer index scope (items.map fun item => (item.1, item.2.kind))).result =
        .ok (references, last) ∧
      (Validation.defineAll options outer scope (aliasesOf index items)).result = .ok last ∧
      last.state = .accumulating ∧ scope.Grows last ∧ NamesEach last.view references items := by
  induction items generalizing scope with
  | nil => exact ⟨[], scope, rfl, rfl, accumulating, .refl scope, .nil⟩
  | cons first rest ih =>
      have accepts : scope.Accepts outer ⟨index, first.1, .ofKind first.2.kind⟩ first.2 :=
        accepts_of_findExport accumulating
          (findExport_eq_ok_iff.mpr ⟨exports, source, exported first List.mem_cons_self, rfl⟩)
      have grows := scope.grows_withItem first.2
      have accumulatingNext : (scope.withItem first.2).state = .accumulating := accumulating
      obtain ⟨references, last, aliased, defined, accumulatingLast, growsLast, named⟩ :=
        ih accumulatingNext (grows.view_eq_some source) fun item inside =>
          exported item (List.mem_cons_of_mem _ inside)
      have stands := growsLast.view_eq_some (scope.view_withItem first.2)
      refine ⟨(first.1, ⟨.ofKind first.2.kind, scope.length first.2.kind⟩) :: references, last,
        ?_, ?_, accumulatingLast, grows.trans growsLast,
        .cons ⟨rfl, first.2.kind, first.2.kind_ne_type, rfl, stands⟩ named⟩
      · rw [List.map_cons, aliasAll, Traced.result_bind, accepts.result]
        change (aliasAll outer index (scope.withItem first.2) _ >>= _).result = _
        rw [Traced.result_bind, aliased]
        rfl
      · rw [aliasesOf, List.map_cons, Validation.result_defineAll_cons, Validation.define,
          Traced.result_bind, accepts.result]
        exact defined

end Scope

/-! ## Both ways -/

/-- Entries that are those of a map in any order are the map. -/
theorem Entries.lookup_of_perm_sorted {items exports : InstanceType}
    (perm : items.Perm (Entries.sorted exports)) :
    (items.map Prod.fst).Nodup ∧ ∀ name, items.lookup name = exports.lookup name := by
  have ordered : ((Entries.sorted exports).map Prod.fst).Nodup := by
    rw [List.nodup_iff_pairwise_ne, List.pairwise_map]
    refine (Entries.pairwise_sorted exports).imp ?_
    intro first later before same
    exact List.lt_irrefl _ (same ▸ before)
  have distinct : (items.map Prod.fst).Nodup := (perm.map Prod.fst).nodup_iff.mpr ordered
  refine ⟨distinct, ?_⟩
  intro name
  apply Option.ext
  intro value
  rw [Entries.lookup_eq_some_iff_mem distinct, perm.mem_iff, Entries.mem_sorted_iff]

/-- Maps with the same values are equivalent instance types. -/
theorem ItemType.isEquivalent_inst_of_lookup {exports others : InstanceType}
    (same : ∀ name, exports.lookup name = others.lookup name) :
    (ItemType.inst exports).isEquivalent (.inst others) = true := by
  apply isEquivalent_iff.mpr
  have below : ∀ {first second : InstanceType},
      (∀ name, first.lookup name = second.lookup name) →
      (ItemType.inst first).Below (.inst second) := by
    intro first second agree
    refine below_inst_iff.mpr ?_
    intro name want found
    exact ⟨want, (agree name).trans found, .refl want⟩
  exact (below same).antisymm (below fun name => (same name).symm)

namespace Scope

variable {scope : Scope}

/-- **Tuples and aliases are inverse to each other.** In a scope that accepts definitions, a tuple
of distinct names is accepted if its references resolve; from then on its names can be aliased, with
the items and kinds that the references had, and nothing else can be aliased in it. An instance of
the scope can be taken apart by aliases of all its exports, in any order, and the tuple of the new
items under the same names, in any order again, is accepted and is the same instance type. -/
theorem tuple_inverse_aliases (options : Validation.Options) (outer : List Enclosing)
    (accumulating : scope.state = .accumulating) :
    (∀ references : List (Name × ItemRef), (references.map Prod.fst).Nodup →
      (∀ entry ∈ references, ∃ item, scope.resolveItem .tupleExport entry.2 = .ok item) →
      ∃ next, (Validation.define options outer scope (.tuple references)).result = .ok next ∧
        next.state = .accumulating ∧
        ∀ later, next.Grows later → later.state = .accumulating →
          Unpacks scope references outer later (scope.length .inst)) ∧
    ∀ (index : Nat) (exports items : InstanceType), scope.instanceAt index = .ok exports →
      items.Perm (Entries.sorted exports) →
      ∃ references last,
        (aliasAll outer index scope (items.map fun item => (item.1, item.2.kind))).result =
          .ok (references, last) ∧
        (Validation.defineAll options outer scope (aliasesOf index items)).result = .ok last ∧
        references.map Prod.fst = items.map Prod.fst ∧
        ∀ given : List (Name × ItemRef), given.Perm references → ∃ final rebuilt,
          (Validation.define options outer last (.tuple given)).result = .ok final ∧
          final.instanceAt (last.length .inst) = .ok rebuilt ∧
          (∀ name, rebuilt.lookup name = exports.lookup name) ∧
          (ItemType.inst rebuilt).isEquivalent (.inst exports) = true := by
  refine ⟨?_, ?_⟩
  · intro references distinct resolves
    obtain ⟨items, named⟩ := exists_namesEach resolves
    refine ⟨_, result_define_tuple accumulating distinct named, accumulating, ?_⟩
    intro later grows accumulatingLater
    have source := grows.view_eq_some (scope.view_withItem (.inst items))
    exact unpacks_of_view distinct named accumulatingLater source
  · intro index exports items found perm
    obtain ⟨distinct, same⟩ := Entries.lookup_of_perm_sorted perm
    have exported : ∀ item ∈ items, exports.lookup item.1 = some item.2 := by
      intro item inside
      rw [← same, Entries.lookup_of_mem_nodup distinct inside]
    obtain ⟨references, last, aliased, defined, accumulatingLast, _, named⟩ :=
      exists_aliasAll accumulating (instanceAt_eq_ok_iff.mp found) exported
    refine ⟨references, last, aliased, defined, named.names_eq, ?_⟩
    intro given permGiven
    -- The items go along with the references when these are put into another order.
    obtain ⟨rebuilt, namedGiven, permRebuilt⟩ := List.perm_comp_forall₂ permGiven named
    obtain ⟨distinctRebuilt, sameRebuilt⟩ := Entries.lookup_of_perm_sorted (permRebuilt.trans perm)
    have distinctGiven : (given.map Prod.fst).Nodup := by
      rw [Entries.Aligned.names_eq namedGiven]
      exact distinctRebuilt
    refine ⟨_, rebuilt, result_define_tuple accumulatingLast distinctGiven namedGiven, ?_,
      sameRebuilt, ItemType.isEquivalent_inst_of_lookup sameRebuilt⟩
    exact instanceAt_eq_ok_iff.mpr (last.view_withItem (.inst rebuilt))

/-- A scope with a function, two memories and an instance of a memory, a function and a memory. -/
def pantry : Scope :=
  { Scope.opened (.root [1]) with
    spaces :=
      { funcs := [.func [] []]
        memories := [.memory ⟨1, none⟩, .memory ⟨2, none⟩]
        instances := [.inst [([2], .memory ⟨3, none⟩), ([3], .func [.i32] []),
          ([4], .memory ⟨4, none⟩)]] } }

theorem tuple_inverse_aliases_pantry :
    (∃ next, (Validation.define {} [] pantry
        (.tuple [([5], ⟨.ofKind .memory, 1⟩), ([6], ⟨.ofKind .func, 0⟩)])).result = .ok next ∧
      next.Accepts [] ⟨1, [5], .ofKind .memory⟩ (.memory ⟨2, none⟩) ∧
      (∃ cause, cause.kind? = some .kindMismatch ∧
        next.Refuses [] ⟨1, [5], .ofKind .func⟩ cause) ∧
      ∃ cause, cause.kind? = some .unboundExport ∧
        next.Refuses [] ⟨1, [7], .ofKind .func⟩ cause) ∧
    ∃ last final rebuilt,
      (Validation.defineAll {} [] pantry (aliasesOf 0 [([4], .memory ⟨4, none⟩),
        ([2], .memory ⟨3, none⟩), ([3], .func [.i32] [])])).result = .ok last ∧
      (Validation.define {} [] last (.tuple [([3], ⟨.ofKind .func, 1⟩),
        ([2], ⟨.ofKind .memory, 3⟩), ([4], ⟨.ofKind .memory, 2⟩)])).result = .ok final ∧
      final.instanceAt 1 = .ok rebuilt ∧ rebuilt.lookup [4] = some (.memory ⟨4, none⟩) := by
  obtain ⟨packs, repacks⟩ := tuple_inverse_aliases {} [] (rfl : pantry.state = .accumulating)
  constructor
  · let references : List (Name × ItemRef) :=
      [([5], ⟨.ofKind .memory, 1⟩), ([6], ⟨.ofKind .func, 0⟩)]
    have resolves : ∀ entry ∈ references,
        ∃ item, pantry.resolveItem .tupleExport entry.2 = .ok item := by
      simp only [references, List.forall_mem_cons, List.not_mem_nil, false_implies, implies_true,
        and_true]
      exact ⟨⟨_, rfl⟩, ⟨_, rfl⟩⟩
    obtain ⟨next, accepted, accumulating, unpacks⟩ := packs references (by decide) resolves
    have unpacked := unpacks next (.refl next) accumulating
    exact ⟨next, accepted, unpacked.items _ List.mem_cons_self _ rfl,
      unpacked.otherKinds _ List.mem_cons_self _ rfl (.ofKind .func) (by decide),
      unpacked.otherNames [7] (by decide) (.ofKind .func)⟩
  · obtain ⟨references, last, aliased, defined, _, rebuilds⟩ :=
      repacks 0 _ [([4], .memory ⟨4, none⟩), ([2], .memory ⟨3, none⟩), ([3], .func [.i32] [])] rfl
        (by decide +kernel)
    cases aliased
    obtain ⟨final, rebuilt, accepted, found, same, _⟩ := rebuilds _ (List.reverse_perm _)
    refine ⟨_, final, rebuilt, defined, accepted, found, ?_⟩
    rw [same]
    rfl

end Scope

end Linkage
