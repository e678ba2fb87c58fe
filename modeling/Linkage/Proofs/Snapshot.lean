import Mathlib.Data.List.Induction
import Linkage.Proofs.Judgement
import Linkage.Proofs.Narrowing

/-!
# Snapshots of enclosing scopes

In a forest of scopes that goes on changing, an outer alias sees of each enclosing scope exactly the
entries that this scope had when the next inner one was made. `Lineage` reads the enclosing scopes,
as they then were, off the operations of a run; `outerAlias_snapshot` says that the links between
scopes lead to them, and that no later operation makes a difference.
-/

set_option autoImplicit false

namespace Linkage.Forest

def link? (forest : Forest) (number : Nat) : Option ParentLink :=
  (forest.scopes[number]?).bind Prod.snd

def walk (forest : Forest) (number : Nat) : Nat → Option ParentLink
  | 0 => forest.link? number
  | depth + 1 => (forest.link? number).bind fun link => forest.walk link.parent depth

def Binds (forest : Forest) (number : Nat) (target : OuterAlias) (item : ItemType) : Prop :=
  ∃ scope kind ancestor, forest.scope? number = some scope ∧
    scope.findOuter (forest.enclosing number) target = .ok (kind, ancestor, item)

/-- A run makes the scope with a number: by itself, or inside a parent as it is at that moment. -/
inductive Made (options : Validation.Options) (ops : List Op) :
    Nat → Option (Nat × Scope) → Prop where
  | alone {before after : List Op} {name : Name}
      (moment : ops = before ++ .create name none :: after) :
      Made options ops (run options {} before).scopes.length none
  | inside {before after : List Op} {name : Name} {parent : Nat} {snapshot : Scope}
      (moment : ops = before ++ .create name (some parent) :: after)
      (found : (run options {} before).scope? parent = some snapshot) :
      Made options ops (run options {} before).scopes.length (some (parent, snapshot))

/-- The scopes around a scope, from the inside out: the number of each, and the scope as it was when
the run made the next inner one. -/
inductive Lineage (options : Validation.Options) (ops : List Op) :
    Nat → List (Nat × Scope) → Prop where
  | outermost {number : Nat} (made : Made options ops number none) : Lineage options ops number []
  | inside {number parent : Nat} {snapshot : Scope} {chain : List (Nat × Scope)}
      (made : Made options ops number (some (parent, snapshot)))
      (outer : Lineage options ops parent chain) :
      Lineage options ops number ((parent, snapshot) :: chain)

/-! ## Forests only grow -/

def Grows (forest later : Forest) : Prop :=
  ∀ (number : Nat) (scope : Scope) (link : Option ParentLink),
    forest.scopes[number]? = some (scope, link) →
      ∃ grown, later.scopes[number]? = some (grown, link) ∧ scope.Grows grown

variable {options : Validation.Options} {forest next later : Forest} {ops : List Op} {number : Nat}
  {scope : Scope} {origin : Option (Nat × Scope)} {chain : List (Nat × Scope)}

theorem Grows.refl (forest : Forest) : forest.Grows forest := by
  intro number scope link found
  exact ⟨scope, found, .refl scope⟩

theorem Grows.trans (first : forest.Grows next) (second : next.Grows later) :
    forest.Grows later := by
  intro number scope link found
  obtain ⟨middle, foundNext, growsNext⟩ := first number scope link found
  obtain ⟨last, foundLast, growsLast⟩ := second number middle link foundNext
  exact ⟨last, foundLast, growsNext.trans growsLast⟩

/-- New scopes are added behind the others. -/
theorem prefix_create (forest : Forest) (name : Name) (parent : Option Nat) :
    forest.scopes <+: (forest.create name parent).1.scopes := by
  unfold create
  split
  · exact List.prefix_append _ _
  · split
    · exact List.prefix_rfl
    · exact List.prefix_append _ _

/-- An action fails and changes nothing, or puts what it returns in the place of its scope. -/
theorem act_cases (options : Validation.Options) (forest : Forest) (number : Nat)
    (action : ScopeAction) :
    (∃ fault, (forest.act options number action).2.result = .error fault ∧
      (forest.act options number action).1 = forest) ∨
    ∃ scope link answer next, forest.scopes[number]? = some (scope, link) ∧
      (action.run options (forest.enclosing number) scope).result = .ok (answer, next) ∧
      (forest.act options number action).2.result = .ok answer ∧
      (forest.act options number action).1 = ⟨forest.scopes.set number (next, link)⟩ := by
  unfold act
  split
  · exact .inl ⟨_, rfl, rfl⟩
  next scope link found =>
    dsimp only
    split
    next fault failed => exact .inl ⟨fault, rfl, rfl⟩
    next answer next success => exact .inr ⟨scope, link, answer, next, found, success, rfl, rfl⟩

/-- An operation keeps the links, and does to a scope what an action can do. -/
theorem exists_change_step (options : Validation.Options) (op : Op) {link : Option ParentLink}
    (found : forest.scopes[number]? = some (scope, link)) :
    ∃ next, (forest.step options op).1.scopes[number]? = some (next, link) ∧
      scope.Change next := by
  have inside := (List.getElem?_eq_some_iff.mp found).1
  cases op with
  | create name parent =>
      obtain ⟨added, whole⟩ := prefix_create forest name parent
      refine ⟨scope, ?_, .same⟩
      rw [step, ← whole, List.getElem?_append_left inside, found]
  | act target action =>
      rcases act_cases options forest target action with ⟨_, _, unchanged⟩ | performed
      · exact ⟨scope, by rw [step, unchanged, found], .same⟩
      · obtain ⟨acting, actingLink, _, next, foundActing, success, _, changed⟩ := performed
        rw [step, changed]
        by_cases same : target = number
        · subst same
          rw [found] at foundActing
          cases foundActing
          exact ⟨next, List.getElem?_set_self inside, .of_run success⟩
        · exact ⟨scope, by rw [List.getElem?_set_ne same, found], .same⟩

theorem grows_step (options : Validation.Options) (forest : Forest) (op : Op) :
    forest.Grows (forest.step options op).1 := by
  intro number scope link found
  obtain ⟨next, foundNext, change⟩ := exists_change_step options op found
  exact ⟨next, foundNext, .of_change change⟩

theorem grows_run (options : Validation.Options) (forest : Forest) (ops : List Op) :
    forest.Grows (forest.run options ops) := by
  induction ops generalizing forest with
  | nil => exact .refl forest
  | cons op rest ih => exact (grows_step options forest op).trans (ih (forest.step options op).1)

theorem run_append (options : Validation.Options) (forest : Forest) (first second : List Op) :
    forest.run options (first ++ second) = (forest.run options first).run options second :=
  List.foldl_append

/-! ## The making of scopes -/

def linkOf (origin : Nat × Scope) : ParentLink := ⟨origin.1, origin.2.lengths⟩

theorem Made.extend (made : Made options ops number origin) (later : List Op) :
    Made options (ops ++ later) number origin := by
  cases made with
  | @alone before after name moment =>
      have extended : ops ++ later = before ++ .create name none :: (after ++ later) := by
        simp [moment]
      exact .alone extended
  | @inside before after name parent snapshot moment found =>
      have extended : ops ++ later = before ++ .create name (some parent) :: (after ++ later) := by
        simp [moment]
      exact .inside extended found

theorem Lineage.extend (lineage : Lineage options ops number chain) (later : List Op) :
    Lineage options (ops ++ later) number chain := by
  induction lineage with
  | outermost made => exact .outermost (made.extend later)
  | inside made _ ih => exact .inside (made.extend later) ih

/-- A scope that was made is there, with the link that it got then. -/
theorem Made.present (made : Made options ops number origin) :
    ∃ scope, (run options {} ops).scopes[number]? = some (scope, origin.map linkOf) := by
  cases made with
  | @alone before after name moment =>
      have new : ((run options {} before).create name none).1.scopes[(run options {}
          before).scopes.length]? = some ({ path := .root name }, none) := by
        simp [create]
      obtain ⟨grown, found, _⟩ := grows_run options _ after _ _ _ new
      refine ⟨grown, ?_⟩
      rw [moment, run_append]
      exact found
  | @inside before after name parent snapshot moment found =>
      have new : ((run options {} before).create name (some parent)).1.scopes[(run options {}
          before).scopes.length]? =
            some ({ path := .root name }, some (linkOf (parent, snapshot))) := by
        simp [create, found, linkOf]
      obtain ⟨grown, found, _⟩ := grows_run options _ after _ _ _ new
      refine ⟨grown, ?_⟩
      rw [moment, run_append]
      exact found

/-- The parent of a scope has a smaller number and has grown since the scope was made. -/
theorem Made.parent_grows {parent : Nat} {snapshot : Scope}
    (made : Made options ops number (some (parent, snapshot))) :
    parent < number ∧ ∃ ancestor, (run options {} ops).scope? parent = some ancestor ∧
      snapshot.Grows ancestor := by
  cases made with
  | @inside before after name _ _ moment found =>
      obtain ⟨⟨_, link⟩, entry, same⟩ := Option.map_eq_some_iff.mp found
      cases same
      refine ⟨(List.getElem?_eq_some_iff.mp entry).1, ?_⟩
      obtain ⟨ancestor, foundLater, grows⟩ := grows_run options _
        (.create name (some parent) :: after) _ _ _ entry
      refine ⟨ancestor, ?_, grows⟩
      rw [moment, run_append, scope?, foundLater]
      rfl

theorem length_act (options : Validation.Options) (forest : Forest) (number : Nat)
    (action : ScopeAction) :
    (forest.act options number action).1.scopes.length = forest.scopes.length := by
  unfold act
  split
  · rfl
  · dsimp only
    split
    · rfl
    · exact List.length_set

/-- An operation adds at most one scope, and only by making it. -/
theorem made_of_step {before : List Op} {op : Op} {entry : Scope × Option ParentLink}
    (present : ((run options {} before).step options op).1.scopes[number]? = some entry) :
    number < (run options {} before).scopes.length ∨
      ∃ origin, Made options (before ++ [op]) number origin := by
  have inside := (List.getElem?_eq_some_iff.mp present).1
  cases op with
  | act target action =>
      rw [step, length_act] at inside
      exact .inl inside
  | create name parent =>
      by_cases earlier : number < (run options {} before).scopes.length
      · exact .inl earlier
      · refine .inr ?_
        cases parent with
        | none =>
            have newest : number = (run options {} before).scopes.length := by
              simp [step, create] at inside
              omega
            exact ⟨none, newest ▸ .alone rfl⟩
        | some parent =>
            cases found : (run options {} before).scope? parent with
            | none =>
                simp [step, create, found] at inside
                omega
            | some snapshot =>
                have newest : number = (run options {} before).scopes.length := by
                  simp [step, create, found] at inside
                  omega
                exact ⟨some (parent, snapshot), newest ▸ .inside rfl found⟩

/-- Every scope of a run was made by one of its operations. -/
theorem exists_made {entry : Scope × Option ParentLink}
    (present : (run options {} ops).scopes[number]? = some entry) :
    ∃ origin, Made options ops number origin := by
  induction ops using List.reverseRecOn generalizing entry with
  | nil => simp [run] at present
  | append_singleton before op ih =>
      rw [run_append] at present
      rcases made_of_step present with earlier | made
      · obtain ⟨origin, made⟩ := ih (List.getElem?_eq_getElem earlier)
        exact ⟨origin, made.extend [op]⟩
      · exact made

theorem exists_lineage {entry : Scope × Option ParentLink}
    (present : (run options {} ops).scopes[number]? = some entry) :
    ∃ chain, Lineage options ops number chain := by
  induction number using Nat.strongRecOn generalizing entry with
  | ind number ih =>
      obtain ⟨origin, made⟩ := exists_made present
      cases origin with
      | none => exact ⟨[], .outermost made⟩
      | some origin =>
          obtain ⟨parent, snapshot⟩ := origin
          obtain ⟨before, ancestor, found, _⟩ := made.parent_grows
          obtain ⟨parentEntry, parentPresent, _⟩ := Option.map_eq_some_iff.mp found
          obtain ⟨chain, outer⟩ := ih parent before parentPresent
          exact ⟨(parent, snapshot) :: chain, .inside made outer⟩

/-! ## What is seen of enclosing scopes -/

/-- An enclosing scope is the one with the given number, and is seen as it was in the snapshot. -/
structure Shows (forest : Forest) (enclosing : Enclosing) (origin : Nat × Scope) : Prop where
  present : forest.scope? origin.1 = some enclosing.scope
  visible : enclosing.visible = origin.2.lengths
  grows : origin.2.Grows enclosing.scope

theorem Shows.view_eq {enclosing : Enclosing} {origin : Nat × Scope}
    (shows : Shows forest enclosing origin) : enclosing.view = origin.2.view := by
  funext kind index
  rw [Enclosing.view, shows.visible, ← Scope.lookup_length origin.2 kind index]
  exact shows.grows.lookup_eq (Nat.le_refl _) index

theorem enclosing_of_link {link : ParentLink} {parent : Scope}
    (found : forest.scopes[number]? = some (scope, some link))
    (present : forest.scope? link.parent = some parent) (before : link.parent < number) :
    forest.enclosing number = ⟨parent, link.visible⟩ :: forest.enclosing link.parent := by
  rw [enclosing, found]
  simp [present, before]

/-- The enclosing scopes of a scope are those of its lineage, seen as they were then. -/
theorem Lineage.shows (lineage : Lineage options ops number chain) :
    List.Forall₂ (Shows (run options {} ops)) ((run options {} ops).enclosing number) chain := by
  induction lineage with
  | outermost made =>
      obtain ⟨scope, found⟩ := made.present
      rw [enclosing, found]
      exact .nil
  | @inside number parent snapshot chain made _ ih =>
      obtain ⟨scope, found⟩ := made.present
      obtain ⟨before, ancestor, present, grows⟩ := made.parent_grows
      rw [enclosing_of_link found present before]
      exact .cons ⟨present, rfl, grows⟩ ih

theorem Lineage.walk_eq (lineage : Lineage options ops number chain) {depth : Nat}
    {origin : Nat × Scope} (found : chain[depth]? = some origin) :
    (run options {} ops).walk number depth = some (linkOf origin) := by
  induction lineage generalizing depth with
  | outermost made => simp at found
  | @inside number parent snapshot chain made _ ih =>
      obtain ⟨scope, present⟩ := made.present
      have linked : (run options {} ops).link? number = some (linkOf (parent, snapshot)) := by
        rw [link?, present]
        rfl
      cases depth with
      | zero =>
          cases found
          exact linked
      | succ depth =>
          rw [walk, linked]
          exact ih found

theorem views_of_shows {around : List Enclosing}
    (each : List.Forall₂ (Shows forest) around chain) :
    around.map Enclosing.view = chain.map fun origin => origin.2.view := by
  induction each with
  | nil => rfl
  | cons shows _ ih => rw [List.map_cons, List.map_cons, shows.view_eq, ih]

theorem Lineage.present (lineage : Lineage options ops number chain) :
    ∃ scope, (run options {} ops).scope? number = some scope := by
  cases lineage with
  | outermost made =>
      obtain ⟨scope, found⟩ := made.present
      exact ⟨scope, by rw [scope?, found]; rfl⟩
  | inside made _ =>
      obtain ⟨scope, found⟩ := made.present
      exact ⟨scope, by rw [scope?, found]; rfl⟩

/-- An outer alias finds what the snapshot at its depth holds at its index. -/
theorem Lineage.binds_iff (lineage : Lineage options ops number chain) {target : OuterAlias}
    {item : ItemType} :
    (run options {} ops).Binds number target item ↔
      ∃ kind origin, target.kind.outerKind? = some kind ∧ chain[target.depth]? = some origin ∧
        (origin.2.spaces.get kind)[target.index]? = some item := by
  have views := views_of_shows lineage.shows
  constructor
  · intro binds
    obtain ⟨scope, kind, ancestor, _, success⟩ := binds
    obtain ⟨known, view, shown, found⟩ := Scope.findOuter_eq_ok_iff.mp ⟨ancestor, success⟩
    rw [views, List.getElem?_map] at shown
    obtain ⟨origin, reached, same⟩ := Option.map_eq_some_iff.mp shown
    subst same
    exact ⟨kind, origin, known, reached, found⟩
  · intro held
    obtain ⟨kind, origin, known, reached, found⟩ := held
    obtain ⟨scope, present⟩ := lineage.present
    have shown : (((run options {} ops).enclosing number).map Enclosing.view)[target.depth]? =
        some origin.2.view := by
      rw [views, List.getElem?_map, reached]
      rfl
    have finds : ∃ ancestor, scope.findOuter ((run options {} ops).enclosing number) target =
        .ok (kind, ancestor, item) :=
      Scope.findOuter_eq_ok_iff.mpr ⟨known, _, shown, found⟩
    obtain ⟨ancestor, success⟩ := finds
    exact ⟨scope, kind, ancestor, present, success⟩

/-! ## Kinds of items -/

/-- The scopes hold items in the spaces of their kinds. -/
def Kinded (forest : Forest) : Prop := ∀ entry ∈ forest.scopes, entry.1.Kinded

namespace Kinded

theorem step (kinded : forest.Kinded) (options : Validation.Options) (op : Op) :
    (forest.step options op).1.Kinded := by
  have new : ∀ name, Scope.Kinded { path := .root name } := by
    intro name kind _ item inside
    cases kind <;> exact absurd inside List.not_mem_nil
  intro entry inside
  cases op with
  | create name parent =>
      rw [Forest.step] at inside
      unfold create at inside
      split at inside
      · rcases List.mem_append.mp inside with before | added
        · exact kinded entry before
        · exact List.mem_singleton.mp added ▸ new name
      · split at inside
        · exact kinded entry inside
        · rcases List.mem_append.mp inside with before | added
          · exact kinded entry before
          · exact List.mem_singleton.mp added ▸ new name
  | act number action =>
      rw [Forest.step] at inside
      rcases act_cases options forest number action with ⟨_, _, unchanged⟩ | performed
      · exact kinded entry (unchanged ▸ inside)
      · obtain ⟨scope, link, _, next, found, success, _, changed⟩ := performed
        rw [changed] at inside
        rcases List.mem_or_eq_of_mem_set inside with before | same
        · exact kinded entry before
        · rw [same]
          exact Scope.Kinded.of_change (kinded _ (List.mem_of_getElem? found)) (.of_run success)

theorem run (kinded : forest.Kinded) (options : Validation.Options) (ops : List Op) :
    (forest.run options ops).Kinded := by
  induction ops generalizing forest with
  | nil => exact kinded
  | cons op rest ih => exact ih (kinded.step options op)

theorem scope? (kinded : forest.Kinded) (present : forest.scope? number = some scope) :
    scope.Kinded := by
  obtain ⟨entry, found, same⟩ := Option.map_eq_some_iff.mp present
  exact same ▸ kinded entry (List.mem_of_getElem? found)

theorem enclosing (kinded : forest.Kinded) (number : Nat) :
    ∀ ancestor ∈ forest.enclosing number, ancestor.scope.Kinded := by
  fun_induction forest.enclosing number with
  | case1 number scope link found parent present before ih =>
      intro ancestor inside
      rcases List.mem_cons.mp inside with same | further
      · exact same ▸ kinded.scope? present
      · exact ih ancestor further
  | _ =>
      intro ancestor inside
      exact absurd inside List.not_mem_nil

end Kinded

theorem kinded_run (options : Validation.Options) (ops : List Op) :
    (run options {} ops).Kinded := by
  have start : Kinded {} := fun entry inside => absurd inside List.not_mem_nil
  exact start.run options ops

/-! ## The operation of an outer alias -/

theorem misuse_of_declare {kind : ItemKind} {item : ItemType} {fault : Fault}
    (failed : scope.declare kind item = .error fault) : ∃ misuse, fault = .misuse misuse := by
  unfold Scope.declare Scope.requireAccumulating at failed
  split at failed
  · change (if _ then _ else _) = _ at failed
    split at failed
    · cases failed
    · cases failed
      exact ⟨_, rfl⟩
  · cases failed
    exact ⟨_, rfl⟩

theorem result_act (options : Validation.Options) (present : forest.scope? number = some scope)
    (action : ScopeAction) :
    (forest.act options number action).2.result =
      (action.run options (forest.enclosing number) scope).result.map Prod.fst := by
  obtain ⟨⟨_, link⟩, found, same⟩ := Option.map_eq_some_iff.mp present
  cases same
  rw [act, found]
  dsimp only
  split
  next fault failed => rw [failed]; rfl
  next answer next success => rw [success]; rfl

/-- The operation of an outer alias ends in a validation error exactly if it finds nothing. -/
theorem act_aliasOuter_invalid_iff (options : Validation.Options)
    (present : forest.scope? number = some scope) (target : OuterAlias) :
    (∃ error, (forest.act options number (.aliasOuter target)).2.result = .error (.invalid error)) ↔
      ¬ ∃ item, forest.Binds number target item := by
  rw [result_act options present]
  simp only [ScopeAction.run, Scope.aliasOuter, Traced.result_bind, Traced.result_ofExcept]
  cases finds : scope.findOuter (forest.enclosing number) target with
  | error fault =>
      obtain ⟨error, same⟩ := (scope.confined_findOuter _ target).judged trivial fault finds
      have nothing : ¬ ∃ item, forest.Binds number target item := by
        intro binds
        obtain ⟨item, other, kind, ancestor, otherPresent, success⟩ := binds
        rw [present] at otherPresent
        cases otherPresent
        rw [finds] at success
        cases success
      refine ⟨fun _ => nothing, fun _ => ⟨error, ?_⟩⟩
      rw [same]
      rfl
  | ok triple =>
      obtain ⟨kind, ancestor, item⟩ := triple
      have something : ∃ item, forest.Binds number target item :=
        ⟨item, scope, kind, ancestor, present, finds⟩
      refine ⟨?_, fun nothing => absurd something nothing⟩
      intro failed
      obtain ⟨error, failed⟩ := failed
      change Except.map _ ((scope.declare kind item >>= _) >>= _) = _ at failed
      cases declares : scope.declare kind item with
      | error fault =>
          obtain ⟨misuse, same⟩ := misuse_of_declare declares
          rw [declares, same] at failed
          cases failed
      | ok declared =>
          rw [declares] at failed
          cases failed

theorem act_of_run {action : ScopeAction} {answer : ScopeAnswer} {next : Scope}
    (present : forest.scope? number = some scope)
    (success : (action.run options (forest.enclosing number) scope).result = .ok (answer, next)) :
    (forest.act options number action).2.result = .ok answer ∧
      (forest.act options number action).1.scope? number = some next := by
  obtain ⟨⟨_, link⟩, found, same⟩ := Option.map_eq_some_iff.mp present
  cases same
  have inside := (List.getElem?_eq_some_iff.mp found).1
  rw [act, found]
  dsimp only
  rw [success]
  refine ⟨rfl, ?_⟩
  rw [scope?, List.getElem?_set_self inside]
  rfl

/-- An outer alias that finds an item declares it: what stands in the space that it names has the
kind of this space. -/
theorem Kinded.act_aliasOuter (kinded : forest.Kinded) (options : Validation.Options)
    {target : OuterAlias} {item : ItemType} (present : forest.scope? number = some scope)
    (accumulating : scope.state = .accumulating) (binds : forest.Binds number target item) :
    ∃ kind, target.kind = .ofKind kind ∧
      (forest.act options number (.aliasOuter target)).2.result =
        .ok (.index (scope.length kind)) ∧
      (forest.act options number (.aliasOuter target)).1.scope? number =
        some { scope with spaces := scope.spaces.push item kind } := by
  obtain ⟨_, kind, ancestor, again, finds⟩ := binds
  rw [present] at again
  cases again
  obtain ⟨known, view, shown, held⟩ := Scope.findOuter_eq_ok_iff.mp ⟨ancestor, finds⟩
  rw [List.getElem?_map] at shown
  obtain ⟨around, reached, same⟩ := Option.map_eq_some_iff.mp shown
  subst same
  have fits : kind = .type ∨ item.kind = kind :=
    Enclosing.view_kinded (kinded.enclosing number around (List.mem_of_getElem? reached))
      kind target.index item held
  have declared : scope.declare kind item =
      .ok (scope.length kind, { scope with spaces := scope.spaces.push item kind }) :=
    Scope.declare_eq_ok_iff.mpr ⟨accumulating, fits, rfl, rfl⟩
  refine ⟨kind, (KindCode.outerKind?_eq_some_iff.mp known).2, act_of_run present ?_⟩
  rw [ScopeAction.run, Traced.result_bind, Scope.result_aliasOuter, finds]
  change ((scope.declare kind item) >>= _) = _
  rw [declared]
  rfl

structure Snapshots (options : Validation.Options) (ops : List Op) (number : Nat)
    (chain : List (Nat × Scope)) : Prop where
  lineage : Lineage options ops number chain
  depth : ((run options {} ops).enclosing number).length = chain.length
  /-- The links between scopes lead to an enclosing scope, and no more of it is recorded as visible
  than is there. -/
  reaches : ∀ depth parent snapshot, chain[depth]? = some (parent, snapshot) →
    ∃ link ancestor, (run options {} ops).walk number depth = some link ∧ link.parent = parent ∧
      (run options {} ops).scope? parent = some ancestor ∧
      ∀ kind, link.visible kind ≤ ancestor.length kind
  /-- An alias finds exactly what the enclosing scope held when the next inner scope was made. -/
  binds : ∀ depth parent snapshot, chain[depth]? = some (parent, snapshot) →
    ∀ kind, kind = .module ∨ kind = .type → ∀ index item,
      (run options {} ops).Binds number ⟨depth, index, .ofKind kind⟩ item ↔
        (snapshot.spaces.get kind)[index]? = some item
  /-- The operation of an alias is refused exactly if the alias finds nothing. -/
  refuses : ∀ target, (∃ error, ((run options {} ops).act options number
    (.aliasOuter target)).2.result = .error (.invalid error)) ↔
      ¬ ∃ item, (run options {} ops).Binds number target item
  /-- In a scope that accepts definitions, an alias that finds an item puts it behind the others of
  its kind and answers with its index. -/
  declares : ∀ scope target item, (run options {} ops).scope? number = some scope →
    scope.state = .accumulating → (run options {} ops).Binds number target item →
    ∃ kind, target.kind = .ofKind kind ∧
      ((run options {} ops).act options number (.aliasOuter target)).2.result =
        .ok (.index (scope.length kind)) ∧
      ((run options {} ops).act options number (.aliasOuter target)).1.scope? number =
        some { scope with spaces := scope.spaces.push item kind }
  fixed : ∀ later target item, (run options {} (ops ++ later)).Binds number target item ↔
    (run options {} ops).Binds number target item

/-- **Outer aliases see a fixed snapshot.** Every scope of a run has a lineage. The links between
scopes lead along it, an outer alias to a module or type finds an item exactly if the enclosing
scope held it at that index when the next inner scope was made, and no later operation on any scope
changes which aliases find something or what they find. An alias that finds nothing is refused; one
that finds an item declares it, if its own scope still accepts definitions. -/
theorem outerAlias_snapshot (options : Validation.Options) (ops : List Op) {number : Nat}
    {scope : Scope} (present : (run options {} ops).scope? number = some scope) :
    ∃ chain, Snapshots options ops number chain := by
  obtain ⟨entry, entryPresent, _⟩ := Option.map_eq_some_iff.mp present
  obtain ⟨chain, lineage⟩ := exists_lineage entryPresent
  refine ⟨chain, lineage, lineage.shows.length_eq, ?_, ?_,
    act_aliasOuter_invalid_iff options present, fun _ _ _ =>
      (kinded_run options ops).act_aliasOuter options, ?_⟩
  · intro depth parent snapshot reached
    obtain ⟨enclosing, _, shows⟩ := exists_getElem?_of_forall₂ lineage.shows reached
    exact ⟨_, enclosing.scope, lineage.walk_eq reached, rfl, shows.present,
      fun kind => shows.grows.length_le kind⟩
  · intro depth parent snapshot reached kind aliased index item
    have known := KindCode.outerKind?_eq_some_iff.mpr ⟨aliased, rfl⟩
    rw [lineage.binds_iff]
    simp [known, reached]
  · intro later target item
    rw [(lineage.extend later).binds_iff, lineage.binds_iff]

/-- Two scopes that go on growing, and end, around scopes made inside them. -/
def orchard : List Op :=
  [.create [1] none, .act 0 .start, .act 0 (.declare .type (.func [] [])), .create [2] (some 0),
    .act 0 (.declare .type (.inst [])), .act 1 .start, .act 1 (.declare .module (.module [] [])),
    .create [3] (some 1), .act 1 (.declare .module (.module [] [([4], .inst [])])),
    .act 0 .freeze, .act 1 .fail, .act 2 .start, .act 2 (.aliasOuter ⟨1, 0, .ofKind .type⟩)]

/-- The scope at the end of the orchard goes on seeing what there was when the scopes around it were
made, and none of what came later. -/
theorem outerAlias_snapshot_orchard :
    (∃ chain, Snapshots {} orchard 2 chain) ∧
    (∀ later, (run {} {} (orchard ++ later)).Binds 2 ⟨1, 0, .ofKind .type⟩ (.func [] [])) ∧
    (∀ later item, ¬ (run {} {} (orchard ++ later)).Binds 2 ⟨1, 1, .ofKind .type⟩ item) ∧
    ((run {} {} orchard).act {} 2 (.aliasOuter ⟨0, 0, .ofKind .module⟩)).2.result =
      .ok (.index 0) := by
  have isOpen : ((run {} {} orchard).scope? 2).map
      (fun scope => (scope.state, scope.length .module)) = some (.accumulating, 0) := by
    decide +kernel
  obtain ⟨scope, present, same⟩ := Option.map_eq_some_iff.mp isOpen
  obtain ⟨accumulating, empty⟩ := Prod.mk.inj same
  have lineage : Lineage {} orchard 2
      [(1, { path := .root [2], state := .accumulating, spaces := { modules := [.module [] []] } }),
        (0, { path := .root [1], state := .accumulating, spaces := { types := [.func [] []] } })] :=
    .inside (@Made.inside _ _ (orchard.take 7) _ _ _ _ rfl rfl)
      (.inside (@Made.inside _ _ (orchard.take 3) _ _ _ _ rfl rfl)
        (.outermost (@Made.alone _ _ [] _ _ rfl)))
  obtain ⟨chain, snapshots⟩ := outerAlias_snapshot {} orchard present
  refine ⟨⟨chain, snapshots⟩, ?_, ?_, ?_⟩
  · intro later
    exact (snapshots.fixed later _ _).mpr (lineage.binds_iff.mpr ⟨.type, _, rfl, rfl, rfl⟩)
  · intro later item binds
    obtain ⟨kind, origin, known, reached, held⟩ :=
      lineage.binds_iff.mp ((snapshots.fixed later _ _).mp binds)
    cases known
    cases reached
    cases held
  · have binds : (run {} {} orchard).Binds 2 ⟨0, 0, .ofKind .module⟩ (.module [] []) :=
      lineage.binds_iff.mpr ⟨.module, _, rfl, rfl, rfl⟩
    obtain ⟨kind, named, answer, _⟩ := snapshots.declares scope _ _ present accumulating binds
    rw [answer, ← KindCode.ofKind_injective named, empty]

end Linkage.Forest
