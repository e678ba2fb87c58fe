import Linkage.Proofs.Lifecycle

/-!
# The ledger of a scope

The ledger of a scope lists the actions on it that succeeded, in order, each with what it found and
with its answer. What a scope holds can be read off its ledger: each index space is the items put
into it, in order, and the index that each was given is its place there; the names of imports and of
exports are those given by the actions of either kind. `Books` says what one action does to a scope
in terms of its entry in the ledger, and `Holds` follows for every run.
-/

set_option autoImplicit false

namespace Linkage

/-- An action on a scope that succeeded: the scope and those around it as the action found them,
what was to be done, and the answer. -/
structure Deed where
  scope : Scope
  outer : List Enclosing
  action : ScopeAction
  answer : ScopeAnswer

namespace Deed

/-- The item that is declared, and in which space. An alias names the kind, and the item is the one
that it finds under the export name or in the enclosing scope. -/
def declared? (deed : Deed) : Option (ItemKind × ItemType) :=
  match deed.action with
  | .declare kind item => some (kind, item)
  | .declareImport _ item => some (item.kind, item)
  | .aliasExport target => do
      let exports ← (deed.scope.view .inst target.instanceIndex).bind ItemType.instance?
      return (← target.kind.kind?, ← exports.lookup target.name)
  | .aliasOuter target => do
      let kind ← target.kind.kind?
      let ancestor ← deed.outer[target.depth]?
      return (kind, ← ancestor.view kind target.index)
  | _ => none

def imported? (deed : Deed) : Option (Name × ItemType) :=
  match deed.action with
  | .declareImport name item => some (name, item)
  | _ => none

def exported? (deed : Deed) : Option (Name × ItemType) :=
  match deed.action with
  | .declareExport name item => some (name, item)
  | _ => none

def into (kind : ItemKind) (deed : Deed) : Option (ItemType × ScopeAnswer) :=
  deed.declared?.bind fun declared =>
    if declared.1 = kind then some (declared.2, deed.answer) else none

theorem into_of_declared {deed : Deed} {space : ItemKind} {item : ItemType}
    (declares : deed.declared? = some (space, item)) (kind : ItemKind) :
    deed.into kind = if space = kind then some (item, deed.answer) else none := by
  rw [into, declares, Option.bind_some]

theorem into_of_none {deed : Deed} (nothing : deed.declared? = none) (kind : ItemKind) :
    deed.into kind = none := by
  rw [into, nothing, Option.bind_none]

end Deed

/-! ## What one action books -/

namespace Scope

variable {scope next : Scope} {outer : List Enclosing} {action : ScopeAction} {answer : ScopeAnswer}
  {deed : Deed} {deeds : List Deed}

/-- What a deed does to a scope: it adds the items and names that are in its entry, and nothing
else, and its answer is the index of the item. Freezing takes the names away. -/
structure Books (scope next : Scope) (deed : Deed) : Prop where
  spaces : ∀ kind, next.spaces.get kind =
    scope.spaces.get kind ++ ((deed.into kind).map Prod.fst).toList
  index : ∀ (kind : ItemKind) (item : ItemType) (answer : ScopeAnswer),
    deed.into kind = some (item, answer) → answer = .index (scope.length kind)
  notFrozen : next.state ≠ .frozen → scope.state ≠ .frozen
  imports : next.state ≠ .frozen → next.imports = scope.imports ++ deed.imported?.toList
  exports : next.state ≠ .frozen → next.exports = scope.exports ++ deed.exported?.toList
  newImport : ∀ entry, deed.imported? = some entry →
    scope.state ≠ .frozen ∧ entry.1 ∉ scope.imports.map Prod.fst
  newExport : ∀ entry, deed.exported? = some entry →
    scope.state ≠ .frozen ∧ entry.1 ∉ scope.exports.map Prod.fst

/-- A deed that declares and names nothing leaves spaces and names, unless it freezes the scope. -/
theorem Books.of_nothing (declares : deed.declared? = none) (imports : deed.imported? = none)
    (exports : deed.exported? = none) (spaces : next.spaces = scope.spaces)
    (kept : next.state ≠ .frozen → scope.state ≠ .frozen ∧ next.imports = scope.imports ∧
      next.exports = scope.exports) : scope.Books next deed where
  spaces := by
    intro kind
    rw [Deed.into_of_none declares, spaces]
    exact (List.append_nil _).symm
  index := by simp [Deed.into_of_none declares]
  notFrozen := fun notFrozen => (kept notFrozen).1
  imports := by
    intro notFrozen
    rw [imports, (kept notFrozen).2.1]
    exact (List.append_nil _).symm
  exports := by
    intro notFrozen
    rw [exports, (kept notFrozen).2.2]
    exact (List.append_nil _).symm
  newImport := by simp [imports]
  newExport := by simp [exports]

theorem get_push_toList {space : ItemKind} {item : ItemType}
    (declares : deed.declared? = some (space, item)) (spaces : Spaces) (kind : ItemKind) :
    (spaces.push item space).get kind =
      spaces.get kind ++ ((deed.into kind).map Prod.fst).toList := by
  rw [Spaces.get_push, Deed.into_of_declared declares]
  by_cases same : kind = space
  · subst same
    simp
  · rw [if_neg same, if_neg (Ne.symm same)]
    exact (List.append_nil _).symm

theorem index_of_declared {space : ItemKind} {item : ItemType}
    (declares : deed.declared? = some (space, item))
    (answers : deed.answer = .index (scope.length space)) {kind : ItemKind} {other : ItemType}
    {answer : ScopeAnswer} (booked : deed.into kind = some (other, answer)) :
    answer = .index (scope.length kind) := by
  rw [Deed.into_of_declared declares] at booked
  split at booked
  next same =>
    cases booked
    rw [answers, same]
  next => cases booked

/-- A deed that declares an item and names nothing. -/
theorem Books.of_declare {space : ItemKind} {item : ItemType} {index : Nat}
    (success : scope.declare space item = .ok (index, next))
    (declares : deed.declared? = some (space, item)) (answers : deed.answer = .index index)
    (imports : deed.imported? = none) (exports : deed.exported? = none) :
    scope.Books next deed := by
  obtain ⟨accumulating, _, sameIndex, sameScope⟩ := declare_eq_ok_iff.mp success
  subst sameIndex sameScope
  have notFrozen : scope.state ≠ .frozen := by simp [accumulating]
  exact {
    spaces := get_push_toList declares scope.spaces
    index := fun _ _ _ booked => index_of_declared declares answers booked
    notFrozen := fun _ => notFrozen
    imports := fun _ => by simp [imports]
    exports := fun _ => by simp [exports]
    newImport := by simp [imports]
    newExport := by simp [exports] }

theorem declared?_of_findExport {target : ExportAlias} {item : ItemType}
    (found : scope.findExport target = .ok item) :
    (Deed.mk scope outer (.aliasExport target) answer).declared? = some (item.kind, item) := by
  obtain ⟨exports, stands, exported, kinds⟩ := findExport_eq_ok_iff.mp found
  simp [Deed.declared?, stands, ItemType.instance?, kinds, KindCode.kind?_ofKind, exported]

theorem declared?_of_findOuter {target : OuterAlias} {kind : ItemKind} {ancestor : Name}
    {item : ItemType} (found : scope.findOuter outer target = .ok (kind, ancestor, item)) :
    (Deed.mk scope outer (.aliasOuter target) answer).declared? = some (kind, item) := by
  obtain ⟨known, view, shown, visible⟩ := findOuter_eq_ok_iff.mp ⟨ancestor, found⟩
  obtain ⟨_, code⟩ := KindCode.outerKind?_eq_some_iff.mp known
  rw [List.getElem?_map] at shown
  obtain ⟨enclosing, reached, sees⟩ := Option.map_eq_some_iff.mp shown
  subst sees
  simp [Deed.declared?, code, KindCode.kind?_ofKind, reached, visible]

theorem Books.of_declareImport {name : Name} {item : ItemType} {index : Nat}
    (success : scope.declareImport name item = .ok (index, next)) :
    scope.Books next ⟨scope, outer, .declareImport name item, .index index⟩ := by
  obtain ⟨accumulating, new, sameIndex, sameScope⟩ := declareImport_eq_ok_iff.mp success
  subst sameIndex sameScope
  have notFrozen : scope.state ≠ .frozen := by simp [accumulating]
  exact {
    spaces := get_push_toList rfl scope.spaces
    index := fun _ _ _ booked => index_of_declared rfl rfl booked
    notFrozen := fun _ => notFrozen
    imports := fun _ => rfl
    exports := fun _ => (List.append_nil _).symm
    newImport := by
      intro entry named
      cases named
      exact ⟨notFrozen, new⟩
    newExport := by simp [Deed.exported?] }

theorem Books.of_declareExport {name : Name} {item : ItemType}
    (success : scope.declareExport name item = .ok next) :
    scope.Books next ⟨scope, outer, .declareExport name item, .done⟩ := by
  obtain ⟨accumulating, new, sameScope⟩ := declareExport_eq_ok_iff.mp success
  subst sameScope
  have notFrozen : scope.state ≠ .frozen := by simp [accumulating]
  exact {
    spaces := fun _ => (List.append_nil _).symm
    index := by simp [Deed.into, Deed.declared?]
    notFrozen := fun _ => notFrozen
    imports := fun _ => (List.append_nil _).symm
    exports := fun _ => rfl
    newImport := by simp [Deed.imported?]
    newExport := by
      intro entry named
      cases named
      exact ⟨notFrozen, new⟩ }

/-- An action that asks books nothing. -/
theorem Books.of_asks {options : Validation.Options} (asks : action.asks = true)
    (success : (action.run options outer scope).result = .ok (answer, next)) :
    scope.Books next ⟨scope, outer, action, answer⟩ := by
  have same : next = scope := by
    rw [ScopeAction.result_run_of_asks asks] at success
    cases outcome : (action.run options outer scope).result with
    | error fault => rw [outcome] at success; cases success
    | ok pair => rw [outcome] at success; cases success; rfl
  subst same
  have kept : next.state ≠ .frozen → next.state ≠ .frozen ∧ next.imports = next.imports ∧
      next.exports = next.exports := fun notFrozen => ⟨notFrozen, rfl, rfl⟩
  cases action with
  | start | freeze | fail => cases asks
  | declare | declareImport | declareExport => cases asks
  | aliasExport | aliasOuter => cases asks
  | _ => exact .of_nothing rfl rfl rfl rfl kept

/-- Every action that succeeds books what its entry says. -/
theorem books_of_run {options : Validation.Options}
    (success : (action.run options outer scope).result = .ok (answer, next)) :
    scope.Books next ⟨scope, outer, action, answer⟩ := by
  by_cases asks : action.asks = true
  · exact .of_asks asks success
  cases action <;> simp only [ScopeAction.run, Traced.result_bind, Traced.result_ofExcept,
    Traced.result_pure, result_aliasExport, result_aliasOuter, bind_eq_ok_iff, Except.ok.injEq,
    Prod.mk.injEq] at success
  case start =>
    obtain ⟨started, starts, _, same⟩ := success
    subst same
    unfold start at starts
    split at starts
    next empty =>
      cases starts
      exact .of_nothing rfl rfl rfl rfl fun _ => ⟨by simp [empty], rfl, rfl⟩
    next => cases starts
  case freeze =>
    obtain ⟨⟨type, frozen⟩, freezes, _, same⟩ := success
    subst same
    rw [freeze, bind_eq_ok_iff] at freezes
    obtain ⟨_, _, freezes⟩ := freezes
    cases freezes
    exact .of_nothing rfl rfl rfl rfl fun notFrozen => absurd rfl notFrozen
  case fail =>
    obtain ⟨_, same⟩ := success
    subst same
    unfold fail
    split
    next frozen => exact .of_nothing rfl rfl rfl rfl fun notFrozen => absurd frozen notFrozen
    next notFrozen => exact .of_nothing rfl rfl rfl rfl fun _ => ⟨notFrozen, rfl, rfl⟩
  case declare kind item =>
    obtain ⟨⟨index, declared⟩, declares, answers, same⟩ := success
    subst same
    exact .of_declare declares rfl answers.symm rfl rfl
  case declareImport name item =>
    obtain ⟨⟨index, declared⟩, declares, answers, same⟩ := success
    subst same answers
    exact .of_declareImport declares
  case declareExport name item =>
    obtain ⟨declared, declares, answers, same⟩ := success
    subst same answers
    exact .of_declareExport declares
  case aliasExport target =>
    obtain ⟨⟨index, declared⟩, ⟨item, found, declares⟩, answers, same⟩ := success
    subst same
    exact .of_declare declares (declared?_of_findExport found) answers.symm rfl rfl
  case aliasOuter target =>
    obtain ⟨⟨index, declared⟩, ⟨⟨kind, ancestor, item⟩, found, declares⟩, answers, same⟩ := success
    subst same
    exact .of_declare declares (declared?_of_findOuter found) answers.symm rfl rfl
  all_goals exact absurd rfl asks

/-! ## What a scope holds -/

/-- A scope holds what its deeds have booked: the items of each space in order, each at the index
that it was given, and the names, unless the scope has given them away. No name is booked twice. -/
structure Holds (scope : Scope) (deeds : List Deed) : Prop where
  spaces : ∀ kind, scope.spaces.get kind = (deeds.filterMap (Deed.into kind)).map Prod.fst
  indices : ∀ (kind : ItemKind) (index : Nat) (item : ItemType) (answer : ScopeAnswer),
    (deeds.filterMap (Deed.into kind))[index]? = some (item, answer) → answer = .index index
  imports : scope.state ≠ .frozen → scope.imports = deeds.filterMap Deed.imported?
  exports : scope.state ≠ .frozen → scope.exports = deeds.filterMap Deed.exported?
  importNames : ((deeds.filterMap Deed.imported?).map Prod.fst).Nodup
  exportNames : ((deeds.filterMap Deed.exported?).map Prod.fst).Nodup

theorem Holds.fresh (path : Path) : Scope.Holds { path := path } [] where
  spaces := by
    intro kind
    cases kind <;> rfl
  indices := by simp
  imports := fun _ => rfl
  exports := fun _ => rfl
  importNames := List.nodup_nil
  exportNames := List.nodup_nil

theorem filterMap_snoc {α : Type} (read : Deed → Option α) (deeds : List Deed) (deed : Deed) :
    (deeds ++ [deed]).filterMap read = deeds.filterMap read ++ (read deed).toList := by
  rw [List.filterMap_append, List.filterMap_cons, List.filterMap_nil]
  cases read deed <;> rfl

theorem Holds.step (holds : scope.Holds deeds) (books : scope.Books next deed) :
    next.Holds (deeds ++ [deed]) where
  spaces := by
    intro kind
    rw [books.spaces, holds.spaces, filterMap_snoc, List.map_append]
    cases deed.into kind <;> rfl
  indices := by
    intro kind index item answer found
    have length : (deeds.filterMap (Deed.into kind)).length = scope.length kind := by
      rw [Scope.length, holds.spaces, List.length_map]
    rw [filterMap_snoc] at found
    rcases Nat.lt_or_ge index (deeds.filterMap (Deed.into kind)).length with before | last
    · rw [List.getElem?_append_left before] at found
      exact holds.indices kind index item answer found
    · rw [List.getElem?_append_right last] at found
      cases booked : deed.into kind with
      | none => simp [booked] at found
      | some entry =>
          -- The new entry is the only one behind the old ones.
          obtain ⟨inside, same⟩ := List.getElem?_eq_some_iff.mp found
          simp only [booked, Option.toList_some, List.length_singleton] at inside
          simp only [booked, Option.toList_some, List.getElem_singleton] at same
          subst same
          rw [books.index kind item answer booked, ← length]
          congr 1
          omega
  imports := by
    intro notFrozen
    rw [books.imports notFrozen, holds.imports (books.notFrozen notFrozen), filterMap_snoc]
  exports := by
    intro notFrozen
    rw [books.exports notFrozen, holds.exports (books.notFrozen notFrozen), filterMap_snoc]
  importNames := by
    rw [filterMap_snoc]
    refine Entries.nodup_append_new holds.importNames fun entry named => ?_
    obtain ⟨notFrozen, new⟩ := books.newImport entry named
    exact holds.imports notFrozen ▸ new
  exportNames := by
    rw [filterMap_snoc]
    refine Entries.nodup_append_new holds.exportNames fun entry named => ?_
    obtain ⟨notFrozen, new⟩ := books.newExport entry named
    exact holds.exports notFrozen ▸ new

end Scope

/-! ## Runs -/

namespace Forest

variable {options : Validation.Options} {forest : Forest} {number : Nat} {scope : Scope}
  {past : List Deed}

def deed? (options : Validation.Options) (number : Nat) (forest : Forest) : Op → Option Deed
  | .create _ _ => none
  | .act target action =>
      if target = number then
        match forest.scope? number, (forest.act options number action).2.result with
        | some scope, .ok answer => some ⟨scope, forest.enclosing number, action, answer⟩
        | _, _ => none
      else none

def ledger (options : Validation.Options) (number : Nat) : Forest → List Op → List Deed
  | _, [] => []
  | forest, op :: rest =>
      (forest.deed? options number op).toList ++
        ledger options number (forest.step options op).1 rest

/-- A scope holds what its ledger says; one that is not there has no ledger yet. -/
def Tallies (forest : Forest) (number : Nat) (past : List Deed) : Prop :=
  (forest.scope? number = none ∧ past = []) ∨
    ∃ scope, forest.scope? number = some scope ∧ scope.Holds past

theorem tallies_create (name : Name) (parent : Option Nat) (tallies : forest.Tallies number past) :
    (forest.create name parent).1.Tallies number past := by
  rcases tallies with ⟨absent, nothing⟩ | ⟨scope, present, holds⟩
  · subst nothing
    cases found : (forest.create name parent).1.scope? number with
    | none => exact .inl ⟨found, rfl⟩
    | some scope =>
        refine .inr ⟨scope, found, ?_⟩
        -- A scope that was not there is the one that has just been made.
        have outside : forest.scopes.length ≤ number := by
          simpa [scope?] using absent
        have fresh : scope = { path := .root name } := by
          unfold create at found
          split at found
          · simp only [scope?, List.getElem?_append_right outside, Option.map_eq_some_iff] at found
            obtain ⟨entry, new, same⟩ := found
            rw [← same, List.mem_singleton.mp (List.mem_of_getElem? new)]
          next parent =>
            split at found
            · rw [absent] at found
              cases found
            · simp only [scope?, List.getElem?_append_right outside,
                Option.map_eq_some_iff] at found
              obtain ⟨entry, new, same⟩ := found
              rw [← same, List.mem_singleton.mp (List.mem_of_getElem? new)]
        subst fresh
        exact .fresh _
  · exact .inr ⟨scope, scope?_create name parent present, holds⟩

theorem scope?_act_of_none (options : Validation.Options) (absent : forest.scope? number = none)
    (target : Nat) (action : ScopeAction) :
    (forest.act options target action).1.scope? number = none := by
  have outside : forest.scopes.length ≤ number := by simpa [scope?] using absent
  rw [scope?, List.getElem?_eq_none (by rwa [length_act]), Option.map_none]

/-- One operation keeps the books of every scope. -/
theorem Tallies.step (tallies : forest.Tallies number past) (op : Op) :
    (forest.step options op).1.Tallies number
      (past ++ (forest.deed? options number op).toList) := by
  cases op with
  | create name parent =>
      rw [deed?, Option.toList_none, List.append_nil]
      exact tallies_create name parent tallies
  | act target action =>
      rcases tallies with ⟨absent, nothing⟩ | ⟨scope, present, holds⟩
      · have noDeed : forest.deed? options number (.act target action) = none := by
          simp [deed?, absent]
        rw [noDeed, nothing]
        exact .inl ⟨scope?_act_of_none options absent target action, rfl⟩
      · by_cases here : target = number
        · subst here
          rcases act_cases options forest target action with ⟨fault, failed, same⟩ | performed
          · have noDeed : forest.deed? options target (.act target action) = none := by
              simp [deed?, failed]
            rw [noDeed, Forest.step, same, Option.toList_none, List.append_nil]
            exact .inr ⟨scope, present, holds⟩
          · obtain ⟨acting, link, answer, next, found, success, answers, changed⟩ := performed
            have sameScope : acting = scope := by
              rw [scope?, found] at present
              exact Option.some.inj present
            subst sameScope
            have deed : forest.deed? options target (.act target action) =
                some ⟨acting, forest.enclosing target, action, answer⟩ := by
              simp [deed?, present, answers]
            have inside := (List.getElem?_eq_some_iff.mp found).1
            refine .inr ⟨next, ?_, ?_⟩
            · rw [Forest.step, changed, scope?, List.getElem?_set_self inside]
              rfl
            · rw [deed]
              exact holds.step (Scope.books_of_run success)
        · have noDeed : forest.deed? options number (.act target action) = none := by
            simp [deed?, here]
          rw [noDeed, Option.toList_none, List.append_nil]
          exact .inr ⟨scope, scope?_step_of_ne present (Ne.symm here), holds⟩

theorem Tallies.run (tallies : forest.Tallies number past) (ops : List Op) :
    (forest.run options ops).Tallies number (past ++ ledger options number forest ops) := by
  induction ops generalizing forest past with
  | nil =>
      rw [ledger, List.append_nil]
      exact tallies
  | cons op rest ih =>
      rw [ledger, ← List.append_assoc]
      exact ih (tallies.step op)

structure Accounts (options : Validation.Options) (forest : Forest) (number : Nat) (scope : Scope)
    (deeds : List Deed) : Prop where
  /-- The item declared at a place among those of a space was given this place as its index, and is
  what the index resolves to. -/
  declared : ∀ kind index item answer,
    (deeds.filterMap (Deed.into kind))[index]? = some (item, answer) →
      answer = .index index ∧
        (forest.act options number (.resolve kind index)).2.result = .ok (.item item)
  /-- Nothing else is there. -/
  length : ∀ kind, (forest.act options number (.length kind)).2.result =
    .ok (.length (deeds.filterMap (Deed.into kind)).length)
  /-- Freezing succeeds in a scope that accepts definitions, and hands over the names given. -/
  frozen : ∀ answer, (forest.act options number .freeze).2.result = .ok answer ↔
    scope.state = .accumulating ∧
      answer = .moduleType ⟨deeds.filterMap Deed.imported?, deeds.filterMap Deed.exported?⟩
  importNames : ((deeds.filterMap Deed.imported?).map Prod.fst).Nodup
  exportNames : ((deeds.filterMap Deed.exported?).map Prod.fst).Nodup
  /-- Only an import of the same name stands in the way of an import. -/
  importable : ∀ name item,
    (∃ answer, (forest.act options number (.declareImport name item)).2.result = .ok answer) ↔
      scope.state = .accumulating ∧ name ∉ (deeds.filterMap Deed.imported?).map Prod.fst
  /-- Only an export of the same name stands in the way of an export. -/
  exportable : ∀ name item,
    (∃ answer, (forest.act options number (.declareExport name item)).2.result = .ok answer) ↔
      scope.state = .accumulating ∧ name ∉ (deeds.filterMap Deed.exported?).map Prod.fst

theorem result_act_freeze (present : forest.scope? number = some scope) (answer : ScopeAnswer) :
    (forest.act options number .freeze).2.result = .ok answer ↔
      scope.state = .accumulating ∧ answer = .moduleType ⟨scope.imports, scope.exports⟩ := by
  rw [result_act options present]
  simp only [ScopeAction.run, Traced.result_bind, Traced.result_ofExcept, Scope.freeze]
  cases isOpen : scope.requireAccumulating with
  | error fault =>
      have closed : scope.state ≠ .accumulating := by
        intro accumulating
        have isOk : scope.requireAccumulating = .ok () :=
          Scope.requireAccumulating_eq_ok_iff.mpr accumulating
        rw [isOk] at isOpen
        cases isOpen
      constructor
      · intro success
        cases success
      · intro held
        exact absurd held.1 closed
  | ok done =>
      have accumulating := Scope.requireAccumulating_eq_ok_iff.mp isOpen
      constructor
      · intro success
        cases success
        exact ⟨accumulating, rfl⟩
      · rintro ⟨_, rfl⟩
        rfl

theorem result_act_declareImport (present : forest.scope? number = some scope) (name : Name)
    (item : ItemType) :
    (∃ answer, (forest.act options number (.declareImport name item)).2.result = .ok answer) ↔
      scope.state = .accumulating ∧ name ∉ scope.imports.map Prod.fst := by
  rw [result_act options present]
  simp only [ScopeAction.run, Traced.result_bind, Traced.result_ofExcept]
  constructor
  · rintro ⟨answer, success⟩
    cases declares : scope.declareImport name item with
    | error fault => rw [declares] at success; cases success
    | ok pair =>
        obtain ⟨accumulating, new, _⟩ := Scope.declareImport_eq_ok_iff.mp declares
        exact ⟨accumulating, new⟩
  · rintro ⟨accumulating, new⟩
    rw [Scope.declareImport_eq_ok_iff.mpr ⟨accumulating, new, rfl, rfl⟩]
    exact ⟨_, rfl⟩

theorem result_act_declareExport (present : forest.scope? number = some scope) (name : Name)
    (item : ItemType) :
    (∃ answer, (forest.act options number (.declareExport name item)).2.result = .ok answer) ↔
      scope.state = .accumulating ∧ name ∉ scope.exports.map Prod.fst := by
  rw [result_act options present]
  simp only [ScopeAction.run, Traced.result_bind, Traced.result_ofExcept]
  constructor
  · rintro ⟨answer, success⟩
    cases declares : scope.declareExport name item with
    | error fault => rw [declares] at success; cases success
    | ok next =>
        obtain ⟨accumulating, new, _⟩ := Scope.declareExport_eq_ok_iff.mp declares
        exact ⟨accumulating, new⟩
  · rintro ⟨accumulating, new⟩
    rw [Scope.declareExport_eq_ok_iff.mpr ⟨accumulating, new, rfl⟩]
    exact ⟨_, rfl⟩

theorem result_act_resolve (present : forest.scope? number = some scope) {kind : ItemKind}
    {index : Nat} {item : ItemType} (found : (scope.spaces.get kind)[index]? = some item) :
    (forest.act options number (.resolve kind index)).2.result = .ok (.item item) := by
  rw [result_act options present]
  simp only [ScopeAction.run, Traced.result_bind, Traced.result_ofExcept,
    Scope.resolve_eq_ok_iff.mpr found]
  rfl

theorem result_act_length (present : forest.scope? number = some scope) (kind : ItemKind) :
    (forest.act options number (.length kind)).2.result = .ok (.length (scope.length kind)) := by
  rw [result_act options present]
  rfl

/-- **A scope holds exactly what was declared in it.** After any operations on any scopes, failing
ones included, and for every scope of the forest: the `n`-th item put into a space, whether it was
declared, imported or aliased, was given the index `n` (counted from zero) and resolves there, and
there are no others; freezing the scope returns the names and types of its imports and of its
exports, no name twice, and a name stands only in the way of names of its own sort. -/
theorem ledger_accounts (options : Validation.Options) (ops : List Op) {number : Nat}
    {scope : Scope} (present : (run options {} ops).scope? number = some scope) :
    Accounts options (run options {} ops) number scope (ledger options number {} ops) := by
  have start : Forest.Tallies {} number [] := .inl ⟨rfl, rfl⟩
  have tallies : (run options {} ops).Tallies number (ledger options number {} ops) :=
    start.run ops
  rcases tallies with ⟨absent, _⟩ | ⟨other, found, holds⟩
  · rw [present] at absent
    cases absent
  · obtain rfl : other = scope := Option.some.inj (found.symm.trans present)
    exact {
      declared := by
        intro kind index item answer booked
        refine ⟨holds.indices kind index item answer booked, result_act_resolve present ?_⟩
        rw [holds.spaces, List.getElem?_map, booked]
        rfl
      length := by
        intro kind
        rw [result_act_length present, Scope.length, holds.spaces, List.length_map]
      frozen := by
        intro answer
        rw [result_act_freeze present]
        refine and_congr_right fun accumulating => ?_
        have notFrozen : other.state ≠ .frozen := by simp [accumulating]
        rw [holds.imports notFrozen, holds.exports notFrozen]
      importNames := holds.importNames
      exportNames := holds.exportNames
      importable := by
        intro name item
        rw [result_act_declareImport present]
        refine and_congr_right fun accumulating => ?_
        rw [holds.imports (by simp [accumulating])]
      exportable := by
        intro name item
        rw [result_act_declareExport present]
        refine and_congr_right fun accumulating => ?_
        rw [holds.exports (by simp [accumulating])] }

/-- A scope that declares, imports and aliases in turns, with an import that is refused. -/
def storehouse : List Op :=
  [.create [1] none, .act 0 .start, .act 0 (.declare .type (.inst [])), .create [2] (some 0),
    .act 1 .start, .act 1 (.declareImport [3] (.inst [([4], .func [] [])])),
    .act 1 (.declareImport [3] (.func [] [])), .act 1 (.aliasExport ⟨0, [4], .ofKind .func⟩),
    .act 1 (.aliasOuter ⟨0, 0, .ofKind .type⟩), .act 1 (.declareExport [3] (.func [] [])),
    .act 1 (.declare .func (.func [.i32] []))]

theorem ledger_accounts_storehouse :
    ∃ scope, (run {} {} storehouse).scope? 1 = some scope ∧
      ((run {} {} storehouse).act {} 1 (.resolve .func 0)).2.result = .ok (.item (.func [] [])) ∧
      ((run {} {} storehouse).act {} 1 (.length .func)).2.result = .ok (.length 2) ∧
      ((run {} {} storehouse).act {} 1 .freeze).2.result =
        .ok (.moduleType ⟨[([3], .inst [([4], .func [] [])])], [([3], .func [] [])]⟩) := by
  have isOpen : ((run {} {} storehouse).scope? 1).map Scope.state = some .accumulating := by
    decide +kernel
  obtain ⟨scope, present, accumulating⟩ := Option.map_eq_some_iff.mp isOpen
  have accounts := ledger_accounts {} storehouse present
  have functions : ((ledger {} 1 {} storehouse).filterMap (Deed.into .func)).map Prod.fst =
      [.func [] [], .func [.i32] []] := by decide +kernel
  have imports : (ledger {} 1 {} storehouse).filterMap Deed.imported? =
      [([3], .inst [([4], .func [] [])])] := by decide +kernel
  have exports : (ledger {} 1 {} storehouse).filterMap Deed.exported? = [([3], .func [] [])] := by
    decide +kernel
  have count := congrArg List.length functions
  have first := congrArg (·[0]?) functions
  rw [List.length_map] at count
  simp only [List.getElem?_map] at first
  obtain ⟨⟨_, answer⟩, booked, same⟩ := Option.map_eq_some_iff.mp first
  cases same
  refine ⟨scope, present, (accounts.declared .func 0 _ answer booked).2, ?_, ?_⟩
  · rw [accounts.length, count]
    rfl
  · rw [accounts.frozen, imports, exports]
    exact ⟨accumulating, rfl⟩

end Forest

end Linkage
