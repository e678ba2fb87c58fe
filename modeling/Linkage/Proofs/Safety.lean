import Linkage.Proofs.ForwardPass
import Linkage.Proofs.Judgement
import Linkage.Proofs.Preservation
import Linkage.Proofs.Snapshot

/-!
# Checks do not misuse scopes

The kinds in a definition are codes that may name no kind, and each guard looks at them in its own
way. As long as the references in a module name kinds, no definition misuses a scope, whatever the
codes elsewhere; `ModuleDef.safe_of_refersByKind` says so of every point of a check. What can remain
besides a validation error is a nested module that was never given, and `ComesTo` says when a check
gets there.
-/

set_option autoImplicit false

namespace Linkage

/-! ## Kinds in definitions -/

namespace Definition

def aliasCode? : Definition → Option KindCode
  | .exportAlias target => some target.kind
  | .outerAlias target => some target.kind
  | _ => none

mutual

/-- All references, also those in nested modules, name kinds. Other codes are free. -/
def refersByKind : Definition → Bool
  | .nested _ definitions => allReferByKind definitions
  | definition => definition.references.all fun reference => reference.kind.kind?.isSome

def allReferByKind : List Definition → Bool
  | [] => true
  | definition :: rest => definition.refersByKind && allReferByKind rest

end

theorem refersByKind_of_mem {definition : Definition} {definitions : List Definition}
    (known : allReferByKind definitions = true) (inside : definition ∈ definitions) :
    definition.refersByKind = true := by
  induction definitions with
  | nil => exact absurd inside List.not_mem_nil
  | cons first rest ih =>
      rw [allReferByKind, Bool.and_eq_true] at known
      rcases List.mem_cons.mp inside with same | later
      · exact same ▸ known.1
      · exact ih known.2 later

theorem exists_kind_of_refersByKind {definition : Definition} {reference : ItemRef}
    (known : definition.refersByKind = true) (inside : reference ∈ definition.references) :
    ∃ kind, reference.kind.kind? = some kind := by
  apply Option.isSome_iff_exists.mp
  cases definition with
  | instantiate moduleIndex arguments => exact List.all_eq_true.mp known reference inside
  | tuple exports => exact List.all_eq_true.mp known reference inside
  | exportItem name item => exact List.all_eq_true.mp known reference inside
  | _ => exact absurd inside List.not_mem_nil

end Definition

def ModuleDef.refersByKind (module : ModuleDef) : Bool :=
  Definition.allReferByKind module.definitions

namespace Validation

variable {options : Options} {outer around : List Enclosing} {scope next point : Scope}
  {definition reached : Definition} {definitions : List Definition} {item : ItemType}

/-! ## What a definition declares -/

theorem exists_rule_of_itemOf (found : itemOf options outer scope definition = .ok item) :
    ∃ inner, Rule scope.view (outer.map Enclosing.view) inner definition item := by
  cases definition with
  | nested name definitions =>
      have accepted := found
      rw [itemOf, bind_eq_ok_iff] at accepted
      obtain ⟨inner, _, same⟩ := accepted
      cases same
      exact ⟨inner, .nested⟩
  | _ =>
      refine ⟨⟨[], []⟩, (itemOf_eq_ok_iff ?_).mp found⟩
      intro _ _ isNested
      cases isNested

theorem fits_of_itemOf (kinded : ∀ ancestor ∈ outer, ancestor.scope.Kinded)
    (found : itemOf options outer scope definition = .ok item) {kind : ItemKind}
    (space : definition.space item = some kind) : kind = .type ∨ item.kind = kind := by
  obtain ⟨inner, rule⟩ := exists_rule_of_itemOf found
  refine rule.fits ?_ kind space
  intro view inside
  obtain ⟨ancestor, among, same⟩ := List.mem_map.mp inside
  exact same ▸ Enclosing.view_kinded (kinded ancestor among)

/-- The code in an alias that finds an item is that of the space in which the item is declared. -/
theorem space_of_aliasCode? (found : itemOf options outer scope definition = .ok item)
    {code : KindCode} (aliases : definition.aliasCode? = some code) :
    ∃ kind, code = .ofKind kind ∧ definition.space item = some kind := by
  obtain ⟨inner, rule⟩ := exists_rule_of_itemOf found
  cases rule with
  | exportAlias _ _ kinds =>
      cases aliases
      exact ⟨item.kind, kinds, rfl⟩
  | outerAlias aliased code _ _ =>
      cases aliases
      exact ⟨_, code, KindCode.outerKind?_eq_some_iff.mpr ⟨aliased, code⟩⟩
  | _ => cases aliases

/-! ## Definitions that a check comes to -/

/-- A check comes to a definition: it has accepted all that stand before it, in its module and in
the modules around, and goes no deeper than allowed. -/
inductive ComesTo (options : Options) : List Enclosing → Scope → List Definition →
    List Enclosing → Scope → Definition → Prop where
  | here (outer : List Enclosing) (scope : Scope) (definition : Definition)
      (rest : List Definition) :
      ComesTo options outer scope (definition :: rest) outer scope definition
  | after {outer around : List Enclosing} {scope next point : Scope}
      {definition reached : Definition} {rest : List Definition}
      (accepted : (define options outer scope definition).result = .ok next)
      (later : ComesTo options outer next rest around point reached) :
      ComesTo options outer scope (definition :: rest) around point reached
  | inside {outer around : List Enclosing} {scope point : Scope} {name : Name}
      {reached : Definition} {definitions rest : List Definition}
      (shallow : (scope.seen :: outer).length ≤ options.nesting)
      (deeper : ComesTo options (scope.seen :: outer) (.opened (scope.nestedPath name)) definitions
        around point reached) :
      ComesTo options outer scope (.nested name definitions :: rest) around point reached

namespace ComesTo

theorem visits (comes : ComesTo options outer scope definitions around point reached) :
    Visits options outer scope definitions around point := by
  induction comes with
  | here outer scope definition rest => exact .here outer scope _
  | after accepted _ ih => exact .after accepted ih
  | inside shallow _ ih => exact .inside shallow ih

theorem of_first (comes : ComesTo options outer scope [definition] around point reached)
    (rest : List Definition) :
    ComesTo options outer scope (definition :: rest) around point reached := by
  cases comes with
  | here => exact .here _ _ _ _
  | after _ later => cases later
  | inside shallow deeper => exact .inside shallow deeper

theorem refersByKind (comes : ComesTo options outer scope definitions around point reached)
    (known : Definition.allReferByKind definitions = true) : reached.refersByKind = true := by
  induction comes with
  | here _ _ definition rest => exact Definition.refersByKind_of_mem known List.mem_cons_self
  | after _ _ ih =>
      rw [Definition.allReferByKind, Bool.and_eq_true] at known
      exact ih known.2
  | inside _ _ ih =>
      rw [Definition.allReferByKind, Bool.and_eq_true, Definition.refersByKind] at known
      exact ih known.1

theorem missingModule (comes : ComesTo options outer scope definitions around point .absent) :
    (defineAll options outer scope definitions).result = .error (.missingModule point.name) := by
  generalize same : Definition.absent = reached at comes
  induction comes with
  | here outer scope definition rest =>
      rw [result_defineAll_cons, ← same]
      rfl
  | after accepted _ ih =>
      rw [result_defineAll_cons, accepted]
      exact ih same
  | inside shallow _ ih =>
      rw [result_defineAll_cons, define, Traced.result_bind, result_inScope_of_shallow shallow,
        ih same]
      rfl

end ComesTo

/-! ## Points of a check -/

structure Intact (outer : List Enclosing) (scope : Scope) : Prop where
  accumulating : scope.state = .accumulating
  kept : scope.Kept
  around : ∀ ancestor ∈ outer, ancestor.scope.Kinded

namespace Intact

theorem opened (kinded : ∀ ancestor ∈ outer, ancestor.scope.Kinded) (path : Path) :
    Intact outer (.opened path) := ⟨rfl, .opened path, kinded⟩

theorem inside (intact : Intact outer scope) (path : Path) :
    Intact (scope.seen :: outer) (.opened path) := by
  apply opened
  intro ancestor among
  rcases List.mem_cons.mp among with same | further
  · exact same ▸ intact.kept.kinds
  · exact intact.around ancestor further

theorem of_accepted (intact : Intact outer scope)
    (accepted : (define options outer scope definition).result = .ok next) :
    Intact outer next := by
  rw [result_define_eq, bind_eq_ok_iff] at accepted
  obtain ⟨item, _, recorded⟩ := accepted
  obtain ⟨takes, same⟩ := Scope.record_eq_ok_iff.mp recorded
  rw [same]
  exact ⟨takes.accumulating, intact.kept.extended takes, intact.around⟩

theorem confined_record (intact : Intact outer scope)
    (found : itemOf options outer scope definition = .ok item) :
    Confined scope.name True (scope.record definition item) :=
  Scope.confined_record (fun _ => intact.accumulating) fun _ _ => fits_of_itemOf intact.around found

end Intact

theorem Visits.intact (visits : Visits options outer scope definitions around point)
    (intact : Intact outer scope) : Intact around point := by
  induction visits with
  | here => exact intact
  | after accepted _ ih => exact ih (intact.of_accepted accepted)
  | inside _ _ ih => exact ih (intact.inside _)

def Accounts (options : Options) (outer : List Enclosing) (scope : Scope)
    (definitions : List Definition) (fault : Fault) : Prop :=
  (∃ error, fault = .invalid error) ∨
    ∃ around point, ComesTo options outer scope definitions around point .absent ∧
      fault = .missingModule point.name

def Accounted (options : Options) (definition : Definition) : Prop :=
  ∀ {outer : List Enclosing} {scope : Scope} {fault : Fault}, Intact outer scope →
    definition.refersByKind = true → (define options outer scope definition).result = .error fault →
    Accounts options outer scope [definition] fault

theorem accounts_defineAll (each : ∀ definition ∈ definitions, Accounted options definition)
    (intact : Intact outer scope) (known : Definition.allReferByKind definitions = true)
    {fault : Fault} (failed : (defineAll options outer scope definitions).result = .error fault) :
    Accounts options outer scope definitions fault := by
  induction definitions generalizing scope with
  | nil => cases failed
  | cons definition rest ih =>
      rw [Definition.allReferByKind, Bool.and_eq_true] at known
      rw [result_defineAll_cons] at failed
      cases first : (define options outer scope definition).result with
      | error other =>
          rw [first] at failed
          cases failed
          rcases each definition List.mem_cons_self intact known.1 first with error | missing
          · exact .inl error
          · obtain ⟨around, point, comes, same⟩ := missing
            exact .inr ⟨around, point, comes.of_first rest, same⟩
      | ok next =>
          rw [first] at failed
          have others : ∀ other ∈ rest, Accounted options other :=
            fun other inside => each other (List.mem_cons_of_mem _ inside)
          rcases ih others (intact.of_accepted first) known.2 failed with error | missing
          · exact .inl error
          · obtain ⟨around, point, comes, same⟩ := missing
            exact .inr ⟨around, point, .after first comes, same⟩

theorem accounts_inScope (each : ∀ definition ∈ definitions, Accounted options definition)
    {path : Path} (intact : Intact outer (.opened path))
    (known : Definition.allReferByKind definitions = true) {fault : Fault}
    (failed : (inScope options outer path fun child =>
      defineAll options outer child definitions).result = .error fault) :
    (∃ error, fault = .invalid error) ∨ outer.length ≤ options.nesting ∧
      Accounts options outer (.opened path) definitions fault := by
  rcases inScope_eq_error_iff.mp failed with ⟨_, same⟩ | ⟨shallow, run⟩
  · exact .inl ⟨_, same⟩
  · exact .inr ⟨shallow, accounts_defineAll each intact known run⟩

theorem accounted (options : Options) (definition : Definition) : Accounted options definition := by
  induction definition using Definition.nestedInduction with
  | plain definition notNested =>
      intro outer scope fault intact known failed
      by_cases absent : definition = .absent
      · subst absent
        cases failed
        exact .inr ⟨outer, scope, .here outer scope .absent [], rfl⟩
      · rw [result_define_eq] at failed
        have confined : Confined scope.name True
            (itemOf options outer scope definition >>= scope.record definition) := by
          apply (confined_itemOf notNested (fun _ => absent) (fun _ => intact.kept.kinds)
            fun _ _ => Definition.exists_kind_of_refersByKind known).bind
          intro item found
          exact intact.confined_record found
        exact .inl (confined.judged trivial fault failed)
  | nested name definitions ih =>
      intro outer scope fault intact known failed
      rw [result_define_eq] at failed
      cases found : itemOf options outer scope (.nested name definitions) with
      | error other =>
          rw [found] at failed
          cases failed
          rw [itemOf] at found
          cases inner : (inScope options (scope.seen :: outer) (scope.nestedPath name) fun child =>
              defineAll options (scope.seen :: outer) child definitions).result with
          | error cause =>
              rw [inner] at found
              cases found
              rw [Definition.refersByKind] at known
              rcases accounts_inScope ih (intact.inside _) known inner with error | missing
              · exact .inl error
              · obtain ⟨shallow, error | ⟨around, point, comes, same⟩⟩ := missing
                · exact .inl error
                · exact .inr ⟨around, point, .inside shallow comes, same⟩
          | ok type =>
              rw [inner] at found
              cases found
      | ok item =>
          rw [found] at failed
          exact .inl ((intact.confined_record found).judged trivial fault failed)

/-! ## Safety -/

/-- At a point of a check the scope accepts definitions, the spaces of all scopes hold what they
should, and the entries of instances and modules can be read as such. -/
structure Orderly (around : List Enclosing) (point : Scope) : Prop where
  accumulating : point.state = .accumulating
  kinded : ∀ scope ∈ point :: around.map Enclosing.scope, scope.Kinded
  instances : ∀ index item, point.resolve .inst index = .ok item →
    ∃ exports, point.instanceAt index = .ok exports
  modules : ∀ index item, point.resolve .module index = .ok item →
    ∃ type, point.moduleAt index = .ok type

theorem Intact.orderly (intact : Intact around point) : Orderly around point where
  accumulating := intact.accumulating
  kinded := by
    intro scope inside
    rcases List.mem_cons.mp inside with same | further
    · exact same ▸ intact.kept.kinds
    · obtain ⟨ancestor, among, same⟩ := List.mem_map.mp further
      exact same ▸ intact.around ancestor among
  instances := by
    intro index item found
    obtain ⟨exports, isInstance⟩ := Scope.Kinded.instance_of_resolve intact.kept.kinds found
    exact ⟨exports, bind_eq_ok_iff.mpr ⟨item, found, by simp only [isInstance]⟩⟩
  modules := by
    intro index item found
    obtain ⟨type, isModule⟩ := Scope.Kinded.module_of_resolve intact.kept.kinds found
    exact ⟨type, bind_eq_ok_iff.mpr ⟨item, found, by simp only [isModule]⟩⟩

/-- A definition looks only into spaces that there are, declares an item only in its own space or in
that of types, and is accepted or refused with no misuse. -/
structure Proper (options : Options) (around : List Enclosing) (point : Scope)
    (definition : Definition) : Prop where
  references : ∀ reference ∈ definition.references, ∃ kind, reference.kind.kind? = some kind
  aliases : ∀ item code, itemOf options around point definition = .ok item →
    definition.aliasCode? = some code → ∃ kind, code = .ofKind kind ∧
      definition.space item = some kind
  declares : ∀ item kind, itemOf options around point definition = .ok item →
    definition.space item = some kind → kind = .type ∨ item.kind = kind
  noMisuse : ∀ misuse, (define options around point definition).result ≠ .error (.misuse misuse)

theorem Intact.proper (intact : Intact around point) (known : definition.refersByKind = true) :
    Proper options around point definition where
  references := fun _ => Definition.exists_kind_of_refersByKind known
  aliases := fun _ _ found => space_of_aliasCode? found
  declares := fun _ _ found => fits_of_itemOf intact.around found
  noMisuse := by
    intro misuse failed
    rcases accounted options definition intact known failed with ⟨_, same⟩ | ⟨_, _, _, same⟩
    · cases same
    · cases same

/-- A check in which all points are orderly and all definitions proper. It ends with a type, with an
error, or at a module that was never given, the last exactly if it comes to one. -/
structure Safe (options : Options) (outer : List Enclosing) (path : Path)
    (definitions : List Definition) (outcome : Except Fault ModuleType) : Prop where
  points : ∀ around point, Visits options outer (.opened path) definitions around point →
    Orderly around point
  steps : ∀ around point definition,
    ComesTo options outer (.opened path) definitions around point definition →
    Proper options around point definition
  ends : (∃ type, outcome = .ok type) ∨ (∃ error, outcome = .error (.invalid error)) ∨
    ∃ place, outcome = .error (.missingModule place)
  missing : ∀ place, outcome = .error (.missingModule place) ↔
    outer.length ≤ options.nesting ∧ ∃ around point,
      ComesTo options outer (.opened path) definitions around point .absent ∧ point.name = place

theorem safe_inScope (kinded : ∀ ancestor ∈ outer, ancestor.scope.Kinded)
    (known : Definition.allReferByKind definitions = true) (path : Path) :
    Safe options outer path definitions (inScope options outer path fun scope =>
      defineAll options outer scope definitions).result := by
  have start : Intact outer (.opened path) := .opened kinded path
  have each : ∀ definition ∈ definitions, Accounted options definition :=
    fun definition _ => accounted options definition
  constructor
  case points =>
    intro around point visits
    exact (visits.intact start).orderly
  case steps =>
    intro around point definition comes
    exact (comes.visits.intact start).proper (comes.refersByKind known)
  case ends =>
    cases outcome : (inScope options outer path fun scope =>
        defineAll options outer scope definitions).result with
    | ok type => exact .inl ⟨type, rfl⟩
    | error fault =>
        rcases accounts_inScope each start known outcome with
          ⟨error, same⟩ | ⟨_, ⟨error, same⟩ | ⟨_, point, _, same⟩⟩
        · exact .inr (.inl ⟨error, by rw [same]⟩)
        · exact .inr (.inl ⟨error, by rw [same]⟩)
        · exact .inr (.inr ⟨point.name, by rw [same]⟩)
  case missing =>
    intro place
    constructor
    · intro failed
      rcases accounts_inScope each start known failed with
        ⟨_, same⟩ | ⟨shallow, ⟨_, same⟩ | ⟨around, point, comes, same⟩⟩
      · cases same
      · cases same
      · cases same
        exact ⟨shallow, around, point, comes, rfl⟩
    · intro reached
      obtain ⟨shallow, around, point, comes, same⟩ := reached
      rw [result_inScope_of_shallow shallow, comes.missingModule, same]
      rfl

end Validation

namespace ModuleDef

/-- **Checks do not misuse scopes.** If the references in a module name kinds, its check is safe:
alone, in any scope whose spaces and those of the scopes around keep their kinds, and so in every
scope that operations can lead to. -/
theorem safe_of_refersByKind (options : Validation.Options) (module : ModuleDef)
    (known : module.refersByKind = true) :
    Validation.Safe options [] module.path module.definitions (module.validate options).result ∧
    (∀ (outer : List Enclosing) (parent : Scope), parent.Kinded →
      (∀ ancestor ∈ outer, ancestor.scope.Kinded) →
      Validation.Safe options (parent.seen :: outer) (parent.nestedPath module.name)
        module.definitions (module.validateIn options outer parent).result) ∧
    ∀ (others : Validation.Options) (ops : List Forest.Op) (forest : Forest),
      Forest.run others {} ops = forest → ∀ (number : Nat) (parent : Scope),
      forest.scope? number = some parent →
      Validation.Safe options (parent.seen :: forest.enclosing number)
        (parent.nestedPath module.name) module.definitions
        (module.validateIn options (forest.enclosing number) parent).result := by
  have within : ∀ (outer : List Enclosing) (parent : Scope), parent.Kinded →
      (∀ ancestor ∈ outer, ancestor.scope.Kinded) →
      Validation.Safe options (parent.seen :: outer) (parent.nestedPath module.name)
        module.definitions (module.validateIn options outer parent).result := by
    intro outer parent kinded around
    refine Validation.safe_inScope ?_ known (parent.nestedPath module.name)
    intro ancestor inside
    rcases List.mem_cons.mp inside with same | further
    · exact same ▸ kinded
    · exact around ancestor further
  refine ⟨?_, within, ?_⟩
  · refine Validation.safe_inScope ?_ known module.path
    intro ancestor inside
    exact absurd inside List.not_mem_nil
  · intro others ops forest ran number parent present
    have kinded : forest.Kinded := ran ▸ Forest.kinded_run others ops
    exact within _ parent (kinded.scope? present) (kinded.enclosing number)

/-- A module with a promise of a module in a module, and behind it an alias of no kind. -/
def courier : ModuleDef where
  name := [1]
  definitions :=
    [.typeItem (.complete (.inst [([2], .memory ⟨1, none⟩)])),
      .importItem [3] (.indexed (.ofKind .inst) 0),
      .exportAlias ⟨0, [2], .ofKind .memory⟩,
      .exportItem [4] ⟨.ofKind .memory, 0⟩,
      .nested [5] [.outerAlias ⟨0, 0, .ofKind .type⟩, .absent],
      .outerAlias ⟨0, 0, ⟨9⟩⟩]

def doorstep : Scope := { path := .root [6] }

theorem safe_of_refersByKind_courier :
    (courier.refersByKind = true ∧ (cellar 1).Kinded ∧
      Forest.run {} {} [.create [6] none] = ⟨[(doorstep, none)]⟩) ∧
    Validation.Safe {} [] courier.path courier.definitions
      (.error (.missingModule (Path.nested (.root [1]) [5]).text)) ∧
    Validation.Safe {} [(cellar 1).seen] ((cellar 1).nestedPath [1]) courier.definitions
      (.error (.missingModule (Path.nested (.nested (.root [1]) [1]) [5]).text)) ∧
    Validation.Safe {} [doorstep.seen] (doorstep.nestedPath [1]) courier.definitions
      (.error (.missingModule (Path.nested (.nested (.root [6]) [1]) [5]).text)) := by
  have known : courier.refersByKind = true := by decide
  have kinded : (cellar 1).Kinded := by
    intro kind notType item inside
    cases kind with
    | type => exact absurd rfl notType
    | _ => exact absurd inside List.not_mem_nil
  have made : Forest.run {} {} [.create [6] none] = ⟨[(doorstep, none)]⟩ := rfl
  have around : Forest.enclosing ⟨[(doorstep, none)]⟩ 0 = [] := by
    rw [Forest.enclosing]
    rfl
  have alone : (courier.validate {}).result =
      .error (.missingModule (Path.nested (.root [1]) [5]).text) := by decide +kernel
  have inCellar : (courier.validateIn {} [] (cellar 1)).result =
      .error (.missingModule (Path.nested (.nested (.root [1]) [1]) [5]).text) := by decide +kernel
  have onDoorstep : (courier.validateIn {} [] doorstep).result =
      .error (.missingModule (Path.nested (.nested (.root [6]) [1]) [5]).text) := by decide +kernel
  obtain ⟨safe, safeIn, safeInForest⟩ := safe_of_refersByKind {} courier known
  have safeInCellar := safeIn [] (cellar 1) kinded (by simp)
  have safeOnDoorstep := safeInForest {} _ _ made 0 doorstep rfl
  rw [alone] at safe
  rw [inCellar] at safeInCellar
  rw [around, onDoorstep] at safeOnDoorstep
  exact ⟨⟨known, kinded, made⟩, safe, safeInCellar, safeOnDoorstep⟩

end ModuleDef

end Linkage
