import Linkage.Proofs.Step

/-!
# Only well-formed types

Types are searched for defects only where they are stated in full; they also come into a scope by
index, as entries of a stated type, from an instantiation, out of an instance or from a scope
around. `Rule.sound` says that each of these ways leads from sound types to a sound type, and
`Visits.sound` that a check meets sound types only, if what outer aliases can take from the scopes
around is sound. Then the module type that it ends with is sound, too.
-/

set_option autoImplicit false

namespace Linkage

namespace ItemType

/-- A type occurs in a type, at any depth, in entries that count. -/
inductive OccursIn (inner : ItemType) : ItemType → Prop where
  | refl : OccursIn inner inner
  | ofInstance {exports : InstanceType} {name : Name} {type : ItemType}
      (entry : exports.lookup name = some type) (deeper : OccursIn inner type) :
      OccursIn inner (.inst exports)
  | ofImport {imports exports : InstanceType} {name : Name} {type : ItemType}
      (entry : imports.lookup name = some type) (deeper : OccursIn inner type) :
      OccursIn inner (.module imports exports)
  | ofExport {imports exports : InstanceType} {name : Name} {type : ItemType}
      (entry : exports.lookup name = some type) (deeper : OccursIn inner type) :
      OccursIn inner (.module imports exports)

theorem Sound.of_occursIn {inner type : ItemType} (occurs : OccursIn inner type)
    (sound : type.Sound) : inner.Sound := by
  induction occurs with
  | refl => exact sound
  | ofInstance entry _ ih =>
      cases sound with
      | inst each => exact ih (each _ _ entry)
  | ofImport entry _ ih =>
      cases sound with
      | module eachImport _ => exact ih (eachImport _ _ entry)
  | ofExport entry _ ih =>
      cases sound with
      | module _ eachExport => exact ih (eachExport _ _ entry)

end ItemType

/-! ## Rules -/

def View.Sound (view : View) : Prop :=
  ∀ kind index item, view kind index = some item → item.Sound

/-- What outer aliases can take from a view is sound: its modules and types. -/
def View.Offers (view : View) : Prop :=
  ∀ kind, kind = .module ∨ kind = .type → ∀ index item, view kind index = some item → item.Sound

theorem View.Sound.offers {view : View} (sound : view.Sound) : view.Offers :=
  fun kind _ => sound kind

mutual

theorem Spells.sound {view : View} (shown : view.Sound) : ∀ {type : TypeExpr} {item : ItemType},
    Spells view type item → item.Sound
  | _, _, .complete sound => sound
  | _, _, .indexed declared _ => shown _ _ _ declared
  | _, _, .inst each _ => .inst (each.sound shown)
  | _, _, .module eachImport _ eachExport _ =>
      .module (eachImport.sound shown) (eachExport.sound shown)

theorem SpellsEach.sound {view : View} (shown : view.Sound) :
    ∀ {entries : List (Name × TypeExpr)} {items : InstanceType}, SpellsEach view entries items →
      ∀ name type, items.lookup name = some type → type.Sound
  | _, _, .nil, _, _, found => by simp at found
  | _, _, .cons first later, name, type, found => by
      rw [Entries.lookup_entry] at found
      split at found
      · cases found
        exact first.sound shown
      · exact later.sound shown name type found

end

theorem Names.sound {view : View} {reference : ItemRef} {item : ItemType}
    (named : Names view reference item) (shown : view.Sound) : item.Sound := by
  obtain ⟨kind, _, _, found⟩ := named
  exact shown kind _ _ found

theorem NamesEach.sound {view : View} {references : List (Name × ItemRef)} {items : InstanceType}
    (named : NamesEach view references items) (shown : view.Sound) (name : Name) (type : ItemType)
    (found : items.lookup name = some type) : type.Sound := by
  obtain ⟨reference, _, each⟩ := Entries.Aligned.covers named name type found
  exact each.sound shown

theorem Rule.sound {here : View} {outer : List View} {inner : ModuleType} {definition : Definition}
    {item : ItemType} (rule : Rule here outer inner definition item) (shown : here.Sound)
    (offered : ∀ view ∈ outer, view.Offers) (nested : (ItemType.ofModule inner).Sound) :
    item.Sound := by
  cases rule with
  | typeItem spelt => exact spelt.sound shown
  | importItem spelt => exact spelt.sound shown
  | nested => exact nested
  | instantiate target _ _ _ =>
      cases shown _ _ _ target with
      | module _ eachExport => exact .inst eachExport
  | tuple _ named => exact .inst (named.sound shown)
  | exportAlias source exported _ =>
      cases shown _ _ _ source with
      | inst each => exact each _ _ exported
  | outerAlias aliased _ ancestor visible =>
      exact offered _ (List.mem_of_getElem? ancestor) _ aliased _ _ visible
  | exportItem named => exact named.sound shown

/-! ## Scopes -/

structure Scope.Sound (scope : Scope) : Prop where
  items : ∀ kind, ∀ item ∈ scope.spaces.get kind, item.Sound
  imports : ∀ entry ∈ scope.imports, entry.2.Sound
  exports : ∀ entry ∈ scope.exports, entry.2.Sound

namespace Scope.Sound

variable {scope : Scope}

theorem opened (path : Path) : (Scope.opened path).Sound where
  items := by
    intro kind item inside
    cases kind <;> exact absurd inside List.not_mem_nil
  imports := fun _ inside => absurd inside List.not_mem_nil
  exports := fun _ inside => absurd inside List.not_mem_nil

theorem view (sound : scope.Sound) : scope.view.Sound :=
  fun kind _ _ found => sound.items kind _ (List.mem_of_getElem? found)

theorem extended (sound : scope.Sound) {definition : Definition} {item : ItemType}
    (new : item.Sound) : (scope.extended definition item).Sound where
  items := by
    intro kind other inside
    rw [Scope.get_extended, List.mem_append] at inside
    rcases inside with before | added
    · exact sound.items kind other before
    · split at added
      · exact List.mem_singleton.mp added ▸ new
      · exact absurd added List.not_mem_nil
  imports := by
    intro entry inside
    rcases List.mem_append.mp inside with before | added
    · exact sound.imports entry before
    · cases definition with
      | importItem name type => exact List.mem_singleton.mp added ▸ new
      | _ => exact absurd added List.not_mem_nil
  exports := by
    intro entry inside
    rcases List.mem_append.mp inside with before | added
    · exact sound.exports entry before
    · cases definition with
      | exportItem name reference => exact List.mem_singleton.mp added ▸ new
      | _ => exact absurd added List.not_mem_nil

theorem ofModule (sound : scope.Sound) : (ItemType.ofModule ⟨scope.imports, scope.exports⟩).Sound :=
  .module (fun _ _ found => sound.imports _ (Entries.mem_of_lookup found))
    (fun _ _ found => sound.exports _ (Entries.mem_of_lookup found))

end Scope.Sound

def Enclosing.Offer (outer : List Enclosing) : Prop :=
  ∀ view ∈ outer.map Enclosing.view, view.Offers

theorem Enclosing.offer_nil : Enclosing.Offer [] := by
  intro view inside
  exact absurd inside List.not_mem_nil

theorem Enclosing.Offer.cons {outer : List Enclosing} {scope : Scope}
    (offered : Enclosing.Offer outer) (sound : scope.Sound) :
    Enclosing.Offer (scope.seen :: outer) := by
  intro view inside
  rw [List.map_cons, Scope.view_seen] at inside
  rcases List.mem_cons.mp inside with same | around
  · exact same ▸ sound.view.offers
  · exact offered view around

namespace Validation

variable {options : Options} {outer : List Enclosing} {scope next filled : Scope}
  {definition : Definition} {definitions : List Definition}

def Preserves (options : Options) (definition : Definition) : Prop :=
  ∀ {outer : List Enclosing} {scope next : Scope}, Enclosing.Offer outer → scope.Sound →
    (define options outer scope definition).result = .ok next → next.Sound

theorem sound_of_defineAll (each : ∀ definition ∈ definitions, Preserves options definition)
    (offered : Enclosing.Offer outer) (sound : scope.Sound)
    (success : (defineAll options outer scope definitions).result = .ok filled) : filled.Sound := by
  induction definitions generalizing scope with
  | nil =>
      cases success
      exact sound
  | cons definition rest ih =>
      rw [result_defineAll_cons, bind_eq_ok_iff] at success
      obtain ⟨next, first, later⟩ := success
      have soundNext := each definition List.mem_cons_self offered sound first
      exact ih (fun other inside => each other (List.mem_cons_of_mem _ inside)) soundNext later

theorem sound_of_inScope (each : ∀ definition ∈ definitions, Preserves options definition)
    (offered : Enclosing.Offer outer) {path : Path} {type : ModuleType}
    (success : (inScope options outer path fun scope =>
      defineAll options outer scope definitions).result = .ok type) :
    (ItemType.ofModule type).Sound := by
  obtain ⟨_, filled, run, _, same⟩ := inScope_eq_ok_iff.mp success
  rw [same]
  exact (sound_of_defineAll each offered (.opened path) run).ofModule

theorem sound_of_define {inner : ModuleType} (offered : Enclosing.Offer outer) (sound : scope.Sound)
    (nested : ∀ name definitions, definition = .nested name definitions →
      itemOf options outer scope definition = .ok (.ofModule inner))
    (soundInner : (ItemType.ofModule inner).Sound)
    (success : (define options outer scope definition).result = .ok next) : next.Sound := by
  obtain ⟨item, rule, _, same⟩ := (define_eq_ok_iff nested).mp success
  rw [same]
  exact sound.extended (rule.sound sound.view offered soundInner)

theorem preserves (options : Options) (definition : Definition) : Preserves options definition := by
  induction definition using Definition.nestedInduction with
  | plain definition notNested =>
      intro outer scope next offered sound success
      refine sound_of_define offered sound ?_ (Scope.Sound.opened (.root [])).ofModule success
      intro name definitions isNested
      exact absurd isNested (notNested name definitions)
  | nested name definitions ih =>
      intro outer scope next offered sound success
      have split := success
      rw [result_define_eq, bind_eq_ok_iff] at split
      obtain ⟨item, found, _⟩ := split
      have accepted := found
      rw [itemOf, bind_eq_ok_iff] at accepted
      obtain ⟨inner, accepted, same⟩ := accepted
      refine sound_of_define offered sound ?_ (sound_of_inScope ih (offered.cons sound) accepted)
        success
      intro _ _ _
      rw [found, ← same]
      rfl

/-! ## The points of a check -/

/-- The scopes that a check of definitions goes through, with those around them: the scope it starts
with, the scopes after each definition that is accepted, and those inside nested modules. -/
inductive Visits (options : Options) :
    List Enclosing → Scope → List Definition → List Enclosing → Scope → Prop where
  | here (outer : List Enclosing) (scope : Scope) (definitions : List Definition) :
      Visits options outer scope definitions outer scope
  | after {outer around : List Enclosing} {scope next point : Scope} {definition : Definition}
      {rest : List Definition}
      (accepted : (define options outer scope definition).result = .ok next)
      (later : Visits options outer next rest around point) :
      Visits options outer scope (definition :: rest) around point
  | inside {outer around : List Enclosing} {scope point : Scope} {name : Name}
      {definitions rest : List Definition}
      (shallow : (scope.seen :: outer).length ≤ options.nesting)
      (deeper : Visits options (scope.seen :: outer) (.opened (scope.nestedPath name)) definitions
        around point) :
      Visits options outer scope (.nested name definitions :: rest) around point

/-- The scope that a check ends with is one of its points. -/
theorem Visits.of_defineAll
    (success : (defineAll options outer scope definitions).result = .ok filled) :
    Visits options outer scope definitions outer filled := by
  induction definitions generalizing scope with
  | nil =>
      cases success
      exact .here outer _ []
  | cons definition rest ih =>
      rw [result_defineAll_cons, bind_eq_ok_iff] at success
      obtain ⟨next, first, later⟩ := success
      exact .after first (ih later)

theorem Visits.sound {around : List Enclosing} {point : Scope}
    (visits : Visits options outer scope definitions around point)
    (offered : Enclosing.Offer outer) (sound : scope.Sound) : point.Sound := by
  induction visits with
  | here => exact sound
  | after accepted _ ih => exact ih offered (preserves options _ offered sound accepted)
  | inside _ _ ih => exact ih (offered.cons sound) (.opened _)

structure Clean (options : Options) (outer : List Enclosing) (path : Path)
    (definitions : List Definition) (outcome : Except Fault ModuleType) : Prop where
  held : ∀ around point, Visits options outer (.opened path) definitions around point →
    ∀ kind, ∀ item ∈ point.spaces.get kind, item.isWellFormed = true
  given : ∀ type, outcome = .ok type → ∀ entry ∈ type.imports ++ type.exports,
    ∀ inner, ItemType.OccursIn inner entry.2 → inner.isWellFormed = true

theorem clean_inScope (offered : Enclosing.Offer outer) (path : Path)
    (definitions : List Definition) :
    Clean options outer path definitions (inScope options outer path fun scope =>
      defineAll options outer scope definitions).result where
  held := by
    intro around point visits kind item inside
    exact ItemType.isWellFormed_iff.mpr
      ((visits.sound offered (.opened path)).items kind item inside)
  given := by
    intro type success entry inside inner occurs
    obtain ⟨_, filled, run, _, same⟩ := inScope_eq_ok_iff.mp success
    subst same
    have sound : filled.Sound := (Visits.of_defineAll run).sound offered (.opened path)
    apply ItemType.isWellFormed_iff.mpr
    rcases List.mem_append.mp inside with imported | exported
    · exact (sound.imports entry imported).of_occursIn occurs
    · exact (sound.exports entry exported).of_occursIn occurs

end Validation

namespace ModuleDef

/-- **Only well-formed types flow out of a check.** Every item in any space at any point of the
check of a module is well formed, and so is every type in the module type that it ends with, if the
entries of the scope that it is checked in are, and the modules and types that are visible in the
scopes around that one. -/
theorem clean_of_wellFormed_around (options : Validation.Options) (module : ModuleDef) :
    Validation.Clean options [] module.path module.definitions (module.validate options).result ∧
    ∀ (outer : List Enclosing) (parent : Scope),
      (∀ kind, ∀ item ∈ parent.spaces.get kind, item.isWellFormed = true) →
      (∀ ancestor ∈ outer, ∀ kind, kind = .module ∨ kind = .type →
        ∀ index item, ancestor.view kind index = some item → item.isWellFormed = true) →
      Validation.Clean options (parent.seen :: outer) (parent.nestedPath module.name)
        module.definitions (module.validateIn options outer parent).result := by
  refine ⟨?_, ?_⟩
  · refine Validation.clean_inScope ?_ module.path module.definitions
    intro view inside
    exact absurd inside List.not_mem_nil
  · intro outer parent own visible
    refine Validation.clean_inScope ?_ (parent.nestedPath module.name) module.definitions
    intro view inside kind aliased index item found
    rw [List.map_cons, Scope.view_seen] at inside
    apply ItemType.isWellFormed_iff.mp
    rcases List.mem_cons.mp inside with same | around
    · subst same
      exact own kind item (List.mem_of_getElem? found)
    · obtain ⟨ancestor, among, same⟩ := List.mem_map.mp around
      subst same
      exact visible ancestor among kind aliased index item found

def cellar (pages : Nat) : Scope :=
  { Scope.opened (.root [1]) with spaces := { types := [.memory ⟨pages, none⟩] } }

/-- A module that imports a memory of a type taken from the second scope around it. -/
def digger : ModuleDef where
  definitions :=
    [.outerAlias ⟨1, 0, .ofKind .type⟩, .importItem [2] (.indexed (.ofKind .memory) 0)]

theorem clean_of_wellFormed_around_cellar :
    (digger.validateIn {} [(cellar 1).seen] { path := .root [3] }).result =
      .ok ⟨[([2], .memory ⟨1, none⟩)], []⟩ ∧
    Validation.Clean {} [Scope.seen { path := .root [3] }, (cellar 1).seen]
      (Scope.nestedPath { path := .root [3] } []) digger.definitions
      (.ok ⟨[([2], .memory ⟨1, none⟩)], []⟩) := by
  have result : (digger.validateIn {} [(cellar 1).seen] { path := .root [3] }).result =
      .ok ⟨[([2], .memory ⟨1, none⟩)], []⟩ := by decide +kernel
  have clean := (clean_of_wellFormed_around {} digger).2 [(cellar 1).seen] { path := .root [3] }
  rw [result] at clean
  refine ⟨result, clean ?_ ?_⟩
  · intro kind item inside
    cases kind <;> exact absurd inside List.not_mem_nil
  · intro ancestor inside kind _ index item found
    rw [List.mem_singleton.mp inside, Scope.view_seen] at found
    have member : item ∈ (cellar 1).spaces.get kind := List.mem_of_getElem? found
    cases kind with
    | type =>
        rw [List.mem_singleton.mp member]
        decide
    | _ => exact absurd member List.not_mem_nil

/-- It is not enough that the scope itself holds well-formed types: outer aliases reach past it. -/
theorem not_clean_of_wellFormed_parent :
    ¬ ∀ (options : Validation.Options) (outer : List Enclosing) (parent : Scope)
      (module : ModuleDef),
      (∀ kind, ∀ item ∈ parent.spaces.get kind, item.isWellFormed = true) →
      Validation.Clean options (parent.seen :: outer) (parent.nestedPath module.name)
        module.definitions (module.validateIn options outer parent).result := by
  intro claimed
  have clean := claimed {} [(cellar 70000).seen] { path := .root [3] } digger (by
    intro kind item inside
    cases kind <;> exact absurd inside List.not_mem_nil)
  have result : (digger.validateIn {} [(cellar 70000).seen] { path := .root [3] }).result =
      .ok ⟨[([2], .memory ⟨70000, none⟩)], []⟩ := by decide +kernel
  have wellFormed := clean.given _ result _ List.mem_cons_self _ .refl
  exact absurd wellFormed (by decide)

end ModuleDef

end Linkage
