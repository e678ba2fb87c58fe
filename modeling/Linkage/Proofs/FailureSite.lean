import Linkage.Proofs.ForwardPass
import Linkage.Proofs.Judgement

/-!
# Where a check fails

A check that fails does so in one place: it goes down through nested modules to a definition that is
refused, or to a module that is nested too deep. `FailsAt` describes the way there. A check fails
with an error if and only if there is such a way (`inScope_eq_invalid_iff`), there is only one
(`FailsAt.site_unique`), and what stands behind it in any of the modules makes no difference
(`FailsAt.of_agree`). The path in the error is that of the innermost module, because every error of
a definition names the scope that it is checked in (`placed_define`).
-/

set_option autoImplicit false

namespace Linkage

/-! ## Errors of one definition -/

namespace Validation

variable {options : Options} {outer : List Enclosing} {scope : Scope} {path : Path}
  {definition : Definition} {definitions inner : List Definition} {fault : Fault}

/-- An error of a definition that holds no module is one of the scope that it is checked in. -/
theorem placed_define (notNested : ∀ name inner, definition ≠ .nested name inner)
    {error : ValidationError}
    (refused : (define options outer scope definition).result = .error (.invalid error)) :
    error.path = scope.name := by
  -- No circumstances are proper here: a misuse is none of the errors in question.
  have confined : Confined scope.name False
      (itemOf options outer scope definition >>= scope.record definition) := by
    apply (confined_itemOf notNested False.elim False.elim False.elim).bind
    intro item _
    exact Scope.confined_record False.elim False.elim
  rw [result_define_eq] at refused
  exact confined.placed error refused

/-- A nested module is refused if and only if its own check fails, and with the same fault. -/
theorem define_nested_eq_error_iff {name : Name} (accumulating : scope.state = .accumulating) :
    (define options outer scope (.nested name inner)).result = .error fault ↔
      (inScope options (scope.seen :: outer) (scope.nestedPath name) fun child =>
        defineAll options (scope.seen :: outer) child inner).result = .error fault := by
  rw [define, Traced.result_bind, bind_eq_error_iff]
  constructor
  · rintro (failed | ⟨type, _, undeclared⟩)
    · exact failed
    · rw [result_addModule] at undeclared
      cases undeclared.symm.trans (Scope.recordIn_own accumulating (.ofModule type))
  · exact .inl

end Validation

/-! ## Sites -/

/-- What a nested module adds to the path of the module around it: its name, or without a name the
number of modules that the module around it has so far. -/
def Path.addition (name : Name) (modules : Nat) : Text :=
  if name = [] then "/module[" ++ Text.ofNat modules ++ "]" else "/" ++ name

theorem Scope.text_nestedPath (scope : Scope) (name : Name) :
    (scope.nestedPath name).text = scope.name ++ Path.addition name (scope.length .module) := by
  rw [nestedPath, Path.text_nested, Path.addition, Scope.name]
  cases name with
  | nil => rfl
  | cons first rest => rfl

namespace Validation

/-- A place in a module tree where a check can fail: the module itself, if it is nested too deep, a
definition of it, or a place in the nested module at a position. -/
inductive Site where
  | tooDeep
  | here (position : Nat)
  | inside (position : Nat) (deeper : Site)
deriving DecidableEq, Repr

/-- The check of a module fails at a site: at every level all definitions before are accepted, and
at the end there is a module with too many modules around it, or a definition that holds no module
and is refused for the cause. The trail is what the nested modules on the way add to the path. -/
inductive FailsAt (options : Options) :
    List Enclosing → Path → List Definition → Site → Text → Cause → Prop where
  | tooDeep {outer : List Enclosing} {path : Path} {definitions : List Definition}
      (deep : options.nesting < outer.length) :
      FailsAt options outer path definitions .tooDeep [] (.nesting outer.length options.nesting)
  | here {outer : List Enclosing} {path : Path} {definitions : List Definition} {position : Nat}
      {point : Scope} {definition : Definition} {cause : Cause}
      (shallow : outer.length ≤ options.nesting)
      (notNested : ∀ name inner, definition ≠ .nested name inner)
      (stops : Stops options outer (.opened path) definitions position point definition
        (.invalid ⟨point.name, cause⟩)) :
      FailsAt options outer path definitions (.here position) [] cause
  | inside {outer : List Enclosing} {path : Path} {definitions inner : List Definition}
      {position : Nat} {point : Scope} {name : Name} {site : Site} {trail : Text} {cause : Cause}
      (shallow : outer.length ≤ options.nesting)
      (before : (defineAll options outer (.opened path) (definitions.take position)).result =
        .ok point)
      (found : definitions[position]? = some (.nested name inner))
      (deeper : FailsAt options (point.seen :: outer) (point.nestedPath name) inner site trail
        cause) :
      FailsAt options outer path definitions (.inside position site)
        (Path.addition name (point.length .module) ++ trail) cause

/-- Definitions that are the same as others up to a site: what stands behind the site, at any level,
is free, and so is all of a module that is nested too deep. -/
def Site.Agree : Site → List Definition → List Definition → Prop
  | .tooDeep, _, _ => True
  | .here position, definitions, others =>
      definitions.take (position + 1) = others.take (position + 1)
  | .inside position site, definitions, others =>
      definitions.take position = others.take position ∧ ∃ name inner changed,
        definitions[position]? = some (.nested name inner) ∧
        others[position]? = some (.nested name changed) ∧ site.Agree inner changed

variable {options : Options} {outer : List Enclosing} {scope : Scope} {path : Path}
  {definitions inner others : List Definition} {site other : Site} {trail : Text} {cause : Cause}

theorem name_of_defineAll {point : Scope}
    (accepted : (defineAll options outer (.opened path) definitions).result = .ok point) :
    point.name = path.text := by
  have same := (collects_of_defineAll rfl accepted).path
  rw [Scope.name, same]
  rfl

/-- A run stops at one position only. -/
theorem Stops.unique {position place : Nat} {point reached : Scope} {definition found : Definition}
    {fault failure : Fault}
    (stops : Stops options outer scope definitions position point definition fault)
    (again : Stops options outer scope definitions place reached found failure) :
    position = place ∧ point = reached ∧ definition = found := by
  have notBefore : ∀ {position place : Nat} {point reached : Scope} {definition found : Definition}
      {fault failure : Fault},
      Stops options outer scope definitions position point definition fault →
      Stops options outer scope definitions place reached found failure →
      ¬ position < place := by
    intro position place point reached definition found fault failure stops again before
    -- The run through all before the later position comes past the earlier one.
    have short : (definitions.take place).take position = definitions.take position := by
      rw [List.take_take, Nat.min_eq_left (Nat.le_of_lt before)]
    have present : (definitions.take place)[position]? = some definition := by
      rw [List.getElem?_take_of_lt before]
      exact stops.found
    have refused : (defineAll options outer scope (definitions.take place)).result = .error fault :=
      Stops.result ⟨short ▸ stops.before, present, stops.refused⟩
    rw [again.before] at refused
    cases refused
  have same : position = place :=
    Nat.le_antisymm (Nat.le_of_not_lt (notBefore again stops))
      (Nat.le_of_not_lt (notBefore stops again))
  subst same
  refine ⟨rfl, ?_, ?_⟩
  · exact Except.ok.inj (stops.before.symm.trans again.before)
  · exact Option.some.inj (stops.found.symm.trans again.found)

namespace FailsAt

/-- A check that fails at a site ends with the error of that site. -/
theorem result (fails : FailsAt options outer path definitions site trail cause) :
    (inScope options outer path fun child =>
      defineAll options outer child definitions).result =
      .error (.invalid ⟨path.text ++ trail, cause⟩) := by
  induction fails with
  | tooDeep deep =>
      rw [result_inScope_of_deep deep, List.append_nil]
  | here shallow _ stops =>
      have run := stops.result
      rw [name_of_defineAll stops.before] at run
      rw [List.append_nil]
      exact inScope_eq_error_iff.mpr (.inr ⟨shallow, run⟩)
  | @inside outer path definitions inner position point name site trail cause shallow before found
      _ ih =>
      have accumulating := (collects_of_defineAll rfl before).accumulating
      have refused := (define_nested_eq_error_iff accumulating).mpr ih
      rw [Scope.text_nestedPath, name_of_defineAll before, List.append_assoc] at refused
      have stops : Stops options outer (.opened path) definitions position point _ _ :=
        ⟨before, found, refused⟩
      exact inScope_eq_error_iff.mpr (.inr ⟨shallow, stops.result⟩)

/-- In a module that is not nested too deep, the way to the site begins where the run stops. -/
theorem stops_of_inside {position : Nat} {point : Scope} {name : Name}
    (before : (defineAll options outer (.opened path) (definitions.take position)).result =
      .ok point)
    (found : definitions[position]? = some (.nested name inner))
    (deeper : FailsAt options (point.seen :: outer) (point.nestedPath name) inner site trail
      cause) :
    ∃ fault, Stops options outer (.opened path) definitions position point (.nested name inner)
      fault := by
  have accumulating := (collects_of_defineAll rfl before).accumulating
  exact ⟨_, before, found, (define_nested_eq_error_iff accumulating).mpr deeper.result⟩

theorem site_unique {otherTrail : Text} {otherCause : Cause}
    (fails : FailsAt options outer path definitions site trail cause)
    (again : FailsAt options outer path definitions other otherTrail otherCause) :
    other = site := by
  induction fails generalizing other otherTrail with
  | tooDeep deep =>
      cases again with
      | tooDeep _ => rfl
      | here shallow _ _ => exact absurd deep (Nat.not_lt_of_le shallow)
      | inside shallow _ _ _ => exact absurd deep (Nat.not_lt_of_le shallow)
  | here shallow notNested stops =>
      cases again with
      | tooDeep deep => exact absurd deep (Nat.not_lt_of_le shallow)
      | here _ _ stopsAgain => rw [(stops.unique stopsAgain).1]
      | inside _ before found deeper =>
          obtain ⟨_, stopsAgain⟩ := stops_of_inside before found deeper
          exact absurd (stops.unique stopsAgain).2.2 (notNested _ _)
  | inside shallow before found deeper ih =>
      obtain ⟨_, stops⟩ := stops_of_inside before found deeper
      cases again with
      | tooDeep deep => exact absurd deep (Nat.not_lt_of_le shallow)
      | here _ notNested stopsAgain =>
          exact absurd (stops.unique stopsAgain).2.2.symm (notNested _ _)
      | inside _ beforeAgain foundAgain deeperAgain =>
          obtain ⟨_, stopsAgain⟩ := stops_of_inside beforeAgain foundAgain deeperAgain
          obtain ⟨samePosition, samePoint, sameModule⟩ := stops.unique stopsAgain
          cases sameModule
          subst samePoint
          rw [ih deeperAgain, samePosition]

/-- What stands behind the site makes no difference. -/
theorem of_agree (fails : FailsAt options outer path definitions site trail cause)
    (agree : site.Agree definitions others) :
    FailsAt options outer path others site trail cause := by
  induction fails generalizing others with
  | tooDeep deep => exact .tooDeep deep
  | @here outer path definitions position point definition cause shallow notNested stops =>
      have same : definitions.take (position + 1) = others.take (position + 1) := agree
      have short : definitions.take position = others.take position := by
        have taken := congrArg (List.take position) same
        rw [List.take_take, List.take_take, Nat.min_eq_left (Nat.le_succ position)] at taken
        exact taken
      have present : others[position]? = some definition := by
        rw [← stops.found, ← List.getElem?_take_of_lt (Nat.lt_succ_self position), ← same,
          List.getElem?_take_of_lt (Nat.lt_succ_self position)]
      exact .here shallow notNested ⟨short ▸ stops.before, present, stops.refused⟩
  | inside shallow before found _ ih =>
      obtain ⟨short, name, inner, changed, present, presentThere, deeper⟩ := agree
      rw [found] at present
      cases present
      exact .inside shallow (short ▸ before) presentThere (ih deeper)

end FailsAt

def Traceable (options : Options) (definitions : List Definition) : Prop :=
  ∀ (outer : List Enclosing) (path : Path) (error : ValidationError),
    (inScope options outer path fun child =>
      defineAll options outer child definitions).result = .error (.invalid error) →
    ∃ site trail, FailsAt options outer path definitions site trail error.cause

theorem traceable_of_nested
    (each : ∀ name inner, Definition.nested name inner ∈ definitions → Traceable options inner) :
    Traceable options definitions := by
  intro outer path error failed
  rcases inScope_eq_error_iff.mp failed with ⟨deep, same⟩ | ⟨shallow, run⟩
  · cases same
    exact ⟨.tooDeep, [], .tooDeep deep⟩
  · obtain ⟨position, point, definition, before, found, refused⟩ := exists_stops run
    by_cases nested : ∃ name inner, definition = .nested name inner
    · obtain ⟨name, inner, same⟩ := nested
      subst same
      have accumulating := (collects_of_defineAll rfl before).accumulating
      obtain ⟨site, trail, deeper⟩ := each name inner (List.mem_of_getElem? found) _ _ error
        ((define_nested_eq_error_iff accumulating).mp refused)
      exact ⟨.inside position site, _, .inside shallow before found deeper⟩
    · have notNested : ∀ name inner, definition ≠ .nested name inner :=
        fun name inner same => nested ⟨name, inner, same⟩
      have place := placed_define notNested refused
      refine ⟨.here position, [], .here shallow notNested ⟨before, found, ?_⟩⟩
      rw [refused, ← place]

theorem traceable (options : Options) (definitions : List Definition) :
    Traceable options definitions := by
  have each : ∀ definition : Definition, ∀ name inner, definition = .nested name inner →
      Traceable options inner := by
    intro definition
    induction definition using Definition.nestedInduction with
    | plain definition notNested =>
        intro name inner same
        exact absurd same (notNested name inner)
    | nested name definitions ih =>
        intro _ _ same
        cases same
        exact traceable_of_nested fun name inner inside => ih _ inside name inner rfl
  exact traceable_of_nested fun name inner _ => each _ name inner rfl

theorem inScope_eq_invalid_iff {error : ValidationError} :
    (inScope options outer path fun child =>
      defineAll options outer child definitions).result = .error (.invalid error) ↔
      ∃ site trail, FailsAt options outer path definitions site trail error.cause ∧
        error.path = path.text ++ trail := by
  constructor
  · intro failed
    obtain ⟨site, trail, fails⟩ := traceable options definitions outer path error failed
    have same := failed.symm.trans fails.result
    simp only [Except.error.injEq, Fault.invalid.injEq] at same
    exact ⟨site, trail, fails, congrArg ValidationError.path same⟩
  · rintro ⟨site, trail, fails, place⟩
    rw [fails.result, ← place]

end Validation

namespace ModuleDef

theorem text_path (module : ModuleDef) :
    module.path.text = if module.name = [] then ("<module>" : Text) else module.name := by
  rw [path, Path.text_root]
  cases module.name with
  | nil => rfl
  | cons first rest => rfl

/-- **Errors are located.** The check of a module fails with an error if and only if there is a site
where it fails for the cause in the error. Then the path in the error is the name of the module
followed by what the nested modules on the way to the site add; the check fails at no other site;
and it fails with the same error whatever stands behind the site, at any level. -/
theorem validate_error_located (options : Validation.Options) (module : ModuleDef)
    (error : ValidationError) :
    (module.validate options).result = .error (.invalid error) ↔
      ∃ site trail,
        Validation.FailsAt options [] module.path module.definitions site trail error.cause ∧
        error.path = (if module.name = [] then ("<module>" : Text) else module.name) ++ trail ∧
        (∀ other otherTrail otherCause,
          Validation.FailsAt options [] module.path module.definitions other otherTrail
            otherCause → other = site) ∧
        ∀ others, site.Agree module.definitions others →
          (ModuleDef.validate options ⟨module.name, others⟩).result = .error (.invalid error) := by
  rw [← text_path]
  constructor
  · intro failed
    obtain ⟨site, trail, fails, place⟩ := Validation.inScope_eq_invalid_iff.mp failed
    refine ⟨site, trail, fails, place, fun _ _ _ again => fails.site_unique again, ?_⟩
    intro others agree
    exact Validation.inScope_eq_invalid_iff.mpr ⟨site, trail, fails.of_agree agree, place⟩
  · rintro ⟨site, trail, fails, place, _, _⟩
    exact Validation.inScope_eq_invalid_iff.mpr ⟨site, trail, fails, place⟩

/-- A module with a module without a name, in which another one exports a global that there is not;
at the end come the given definitions. -/
def attic (last : List Definition) : List Definition :=
  [.nested "box" [],
    .nested [] (.importItem "key" (.complete (.func [] [])) ::
      .nested "chest" [.exportItem "ring" ⟨.ofKind .global, 0⟩] :: last)]

theorem validate_error_located_attic :
    (ModuleDef.validate {} ⟨"house", attic []⟩).result =
      .error (.invalid ⟨"house/module[1]/chest", .unboundIndex .global 0 0⟩) ∧
    (∃ trail, Validation.FailsAt {} [] (.root "house") (attic [])
      (.inside 1 (.inside 1 (.here 0))) trail (.unboundIndex .global 0 0)) ∧
    (ModuleDef.validate {} ⟨"house", attic [.absent] ++ [.absent]⟩).result =
      .error (.invalid ⟨"house/module[1]/chest", .unboundIndex .global 0 0⟩) ∧
    (ModuleDef.validate { nesting := 1 } ⟨"house", attic []⟩).result =
      .error (.invalid ⟨"house/module[1]/chest", .nesting 2 1⟩) := by
  have failed : (ModuleDef.validate {} ⟨"house", attic []⟩).result =
      .error (.invalid ⟨"house/module[1]/chest", .unboundIndex .global 0 0⟩) := by decide +kernel
  obtain ⟨site, trail, fails, _, only, independent⟩ :=
    (validate_error_located {} ⟨"house", attic []⟩ _).mp failed
  have known : Validation.FailsAt {} [] (.root "house") (attic [])
      (.inside 1 (.inside 1 (.here 0))) _ (.unboundIndex .global 0 0) :=
    .inside (by decide) rfl rfl (.inside (by decide) rfl rfl
      (.here (by decide) (by simp) ⟨rfl, rfl, rfl⟩))
  have same : .inside 1 (.inside 1 (.here 0)) = site := only _ _ _ known
  subst same
  refine ⟨failed, ⟨trail, fails⟩, independent _ ?_, by decide +kernel⟩
  exact ⟨rfl, _, _, _, rfl, rfl, rfl, _, _, _, rfl, rfl, rfl⟩

end ModuleDef

end Linkage
