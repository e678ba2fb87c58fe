import Linkage.Proofs.Checking

/-!
# Where two types first differ

A comparison visits the entries of two types in a fixed order: exports before imports, and the
entries of a family in byte order of their names. A path of entries leads from two types to two
types inside them, which change sides at every import. A mismatch is the first one if its path leads
to two types of which its reason holds, and everything that is visited before matches, at every
entry of the path. `mismatch?_eq_some_iff` says that a comparison finds this mismatch and no other.
-/

set_option autoImplicit false

namespace Linkage

namespace ItemType

/-- What is offered and what is wanted where the entries of a family are compared: the exports that
are wanted are those of the upper type, the imports those of the lower one. -/
def sides : ItemType → ItemType → Role → InstanceType × InstanceType
  | .inst lower, .inst upper, .exports => (lower, upper)
  | .module _ lower, .module _ upper, .exports => (lower, upper)
  | .module lower _, .module upper _, .imports => (upper, lower)
  | _, _, _ => ([], [])

/-- A comparison of two types visits an entry: a type is wanted there, and one may be offered. -/
structure Visits (lower upper : ItemType) (step : Step) (offer : Option ItemType)
    (want : ItemType) : Prop where
  offered : (sides lower upper step.role).1.lookup step.name = offer
  wanted : (sides lower upper step.role).2.lookup step.name = some want

def Meets (offer : Option ItemType) (want : ItemType) : Prop :=
  ∃ type, offer = some type ∧ type.Below want

end ItemType

/-- One entry is visited before another: it is an export and the other one an import, or both are of
one family and its name is smaller. -/
def Step.Before (earlier later : Step) : Prop :=
  (earlier.role = .exports ∧ later.role = .imports) ∨
    (earlier.role = later.role ∧ earlier.name < later.name)

namespace ItemType

def MatchedBefore (lower upper : ItemType) (step : Step) : Prop :=
  ∀ earlier offer want, Visits lower upper earlier offer want → earlier.Before step →
    Meets offer want

/-- A path of entries leads from two types to two types inside them. -/
inductive Leads : ItemType → ItemType → List Step → ItemType → ItemType → Prop where
  | here (lower upper : ItemType) : Leads lower upper [] lower upper
  | through {lower upper offer want found expected : ItemType} {step : Step} {path : List Step}
      (visits : Visits lower upper step (some offer) want)
      (further : Leads offer want path found expected) :
      Leads lower upper (step :: path) found expected

end ItemType

def Reason.step? : Reason → Option Step
  | .missing role name => some ⟨role, name⟩
  | _ => none

/-- A reason is true of two types: they have the different kinds that it names, they are the
different core types of one kind that it names, or the entry that it names is wanted and not
offered. -/
def Reason.HoldsOf (lower upper : ItemType) : Reason → Prop
  | .kind found expected => lower.kind = found ∧ upper.kind = expected ∧ found ≠ expected
  | .core found expected =>
      lower = .core found ∧ upper = .core expected ∧ found.kind = expected.kind ∧ found ≠ expected
  | .missing role name => ∃ want, ItemType.Visits lower upper ⟨role, name⟩ none want

structure Mismatch.IsFirst (lower upper : ItemType) (mismatch : Mismatch) : Prop where
  genuine : ∃ found expected, ItemType.Leads lower upper mismatch.path found expected ∧
    mismatch.reason.HoldsOf found expected
  first : ∀ before step after,
    mismatch.path ++ mismatch.reason.step?.toList = before ++ step :: after →
      ∀ found expected, ItemType.Leads lower upper before found expected →
        found.MatchedBefore expected step

/-! ## One entry -/

namespace ItemType

variable {lower upper : ItemType} {mismatch : Mismatch}

def visitMismatch? (step : Step) : Option ItemType → ItemType → Option Mismatch
  | none, _ => some ⟨[], .missing step.role step.name⟩
  | some offer, want => (offer.mismatch? want).map (Mismatch.under step)

theorem visitMismatch?_eq_none_iff {step : Step} {offer : Option ItemType} {want : ItemType} :
    visitMismatch? step offer want = none ↔ Meets offer want := by
  cases offer with
  | none => simp [visitMismatch?, Meets]
  | some type => simp [visitMismatch?, Meets, mismatch?_eq_none_iff]

theorem mismatchAt?_eq (role : Role) (offered : InstanceType) (entry : Name × ItemType) :
    Entries.mismatchAt? role offered mismatch? entry =
      visitMismatch? ⟨role, entry.1⟩ (offered.lookup entry.1) entry.2 := by
  unfold Entries.mismatchAt?
  cases offered.lookup entry.1 <;> rfl

def familyMismatch? (lower upper : ItemType) (role : Role) : Option Mismatch :=
  Entries.mismatch? role (sides lower upper role).1 (sides lower upper role).2 mismatch?

theorem familyMismatch?_eq_none_iff {role : Role} :
    familyMismatch? lower upper role = none ↔
      ∀ name offer want, Visits lower upper ⟨role, name⟩ offer want → Meets offer want := by
  rw [familyMismatch?, Entries.mismatch?_eq_none_iff]
  constructor
  · intro covers name offer want visits
    obtain ⟨type, offered, matched⟩ := covers name want visits.wanted
    exact ⟨type, visits.offered.symm.trans offered, mismatch?_eq_none_iff.mp matched⟩
  · intro each name want wanted
    obtain ⟨type, offered, below⟩ := each name _ want ⟨rfl, wanted⟩
    exact ⟨type, offered, mismatch?_eq_none_iff.mpr below⟩

theorem familyMismatch?_eq_some_iff {role : Role} :
    familyMismatch? lower upper role = some mismatch ↔
      ∃ name offer want, Visits lower upper ⟨role, name⟩ offer want ∧
        visitMismatch? ⟨role, name⟩ offer want = some mismatch ∧
        ∀ earlier offer want, Visits lower upper ⟨role, earlier⟩ offer want → earlier < name →
          Meets offer want := by
  rw [familyMismatch?, Entries.mismatch?, Entries.findSome?_sorted_eq_some_iff]
  simp only [mismatchAt?_eq, visitMismatch?_eq_none_iff]
  constructor
  · rintro ⟨entry, wanted, here, matched⟩
    refine ⟨entry.1, _, entry.2, ⟨rfl, wanted⟩, here, ?_⟩
    intro earlier offer want visits less
    exact visits.offered ▸ matched (earlier, want) visits.wanted less
  · rintro ⟨name, offer, want, visits, here, matched⟩
    refine ⟨(name, want), visits.wanted, ?_, ?_⟩
    · exact visits.offered.symm ▸ here
    · intro earlier wanted less
      exact matched earlier.1 _ earlier.2 ⟨rfl, wanted⟩ less

/-- Exports are compared before imports, so the first mismatch of the two families is that of an
entry before which everything matches. -/
theorem families_eq_some_iff :
    (familyMismatch? lower upper .exports).or (familyMismatch? lower upper .imports) =
        some mismatch ↔
      ∃ step offer want, Visits lower upper step offer want ∧ MatchedBefore lower upper step ∧
        visitMismatch? step offer want = some mismatch := by
  rw [Option.or_eq_some_iff, familyMismatch?_eq_none_iff, familyMismatch?_eq_some_iff,
    familyMismatch?_eq_some_iff]
  constructor
  · rintro (⟨name, offer, want, visits, here, matched⟩ |
      ⟨exported, name, offer, want, visits, here, matched⟩)
    · refine ⟨⟨.exports, name⟩, offer, want, visits, ?_, here⟩
      rintro ⟨role, earlier⟩ offer want visited (⟨_, isImport⟩ | ⟨sameRole, less⟩)
      · cases isImport
      · cases sameRole
        exact matched earlier offer want visited less
    · refine ⟨⟨.imports, name⟩, offer, want, visits, ?_, here⟩
      rintro ⟨role, earlier⟩ offer want visited (⟨isExport, _⟩ | ⟨sameRole, less⟩)
      · cases isExport
        exact exported earlier offer want visited
      · cases sameRole
        exact matched earlier offer want visited less
  · rintro ⟨⟨role, name⟩, offer, want, visits, matched, here⟩
    cases role with
    | exports =>
        refine .inl ⟨name, offer, want, visits, here, ?_⟩
        intro earlier offer want visited less
        exact matched ⟨.exports, earlier⟩ offer want visited (.inr ⟨rfl, less⟩)
    | imports =>
        refine .inr ⟨?_, name, offer, want, visits, here, ?_⟩
        · intro earlier offer want visited
          exact matched ⟨.exports, earlier⟩ offer want visited (.inl ⟨rfl, rfl⟩)
        · intro earlier offer want visited less
          exact matched ⟨.imports, earlier⟩ offer want visited (.inr ⟨rfl, less⟩)

theorem sides_of_kind_ne (different : lower.kind ≠ upper.kind) (role : Role) :
    sides lower upper role = ([], []) := by
  cases lower <;> cases upper <;> cases role <;> first | rfl | exact absurd rfl different

theorem not_visits_of_sides {step : Step} {offer : Option ItemType} {want : ItemType}
    (empty : sides lower upper step.role = ([], [])) : ¬ Visits lower upper step offer want := by
  intro visits
  have wanted := visits.wanted
  rw [empty] at wanted
  cases wanted

/-- Instance types and module types are compared by their families of entries. -/
theorem mismatch?_eq_families (kinds : lower.kind = upper.kind)
    (notCore : ∀ type, lower ≠ .core type) :
    lower.mismatch? upper =
      (familyMismatch? lower upper .exports).or (familyMismatch? lower upper .imports) := by
  cases lower with
  | core type => exact absurd rfl (notCore type)
  | inst exports =>
      cases upper with
      | core type => cases type <;> cases kinds
      | inst others =>
          rw [mismatch?_inst, InstanceType.mismatch?_eq]
          exact (Option.or_none).symm
      | module imports exports => cases kinds
  | module imports exports =>
      cases upper with
      | core type => cases type <;> cases kinds
      | inst others => cases kinds
      | module otherImports otherExports =>
          have same := ModuleType.mismatch?_eq ⟨imports, exports⟩ ⟨otherImports, otherExports⟩
          rw [InstanceType.mismatch?_eq] at same
          exact same

/-- A mismatch of the two types themselves, not of an entry. -/
inductive IsDirect : ItemType → ItemType → Mismatch → Prop where
  | kind {lower upper : ItemType} (different : lower.kind ≠ upper.kind) :
      IsDirect lower upper ⟨[], .kind lower.kind upper.kind⟩
  | core {found expected : CoreType} (kinds : found.kind = expected.kind)
      (different : found ≠ expected) :
      IsDirect (.core found) (.core expected) ⟨[], .core found expected⟩

theorem Visits.notCore {step : Step} {offer : Option ItemType} {want : ItemType}
    (visits : Visits lower upper step offer want) (type : CoreType) : lower ≠ .core type := by
  rintro rfl
  refine not_visits_of_sides ?_ visits
  cases upper <;> cases step.role <;> rfl

/-- The mismatch of two types is their own, or that of an entry before which everything matches. -/
theorem mismatch?_eq_some_cases :
    lower.mismatch? upper = some mismatch ↔
      IsDirect lower upper mismatch ∨
        ∃ step offer want, Visits lower upper step offer want ∧ MatchedBefore lower upper step ∧
          visitMismatch? step offer want = some mismatch := by
  constructor
  · intro found
    by_cases kinds : lower.kind = upper.kind
    · by_cases isCore : ∃ type, lower = .core type
      · obtain ⟨type, rfl⟩ := isCore
        cases upper with
        | core other =>
            have sameKind : type.kind = other.kind := kinds
            rw [mismatch?_core, CoreType.mismatch?, if_neg (not_not.mpr sameKind)] at found
            split at found
            next different =>
              cases found
              exact .inl (.core kinds different)
            next => cases found
        | inst others => cases type <;> cases kinds
        | module imports exports => cases type <;> cases kinds
      · have notCore : ∀ type, lower ≠ .core type := fun type same => isCore ⟨type, same⟩
        rw [mismatch?_eq_families kinds notCore, families_eq_some_iff] at found
        exact .inr found
    · rw [mismatch?_of_kind_ne kinds] at found
      cases found
      exact .inl (.kind kinds)
  · rintro (direct | ⟨step, offer, want, visits, matched, here⟩)
    · cases direct with
      | kind different => exact mismatch?_of_kind_ne different
      | core kinds different =>
          rw [mismatch?_core, CoreType.mismatch?, if_neg (not_not.mpr kinds), if_pos different]
    · have kinds : lower.kind = upper.kind := by
        by_contra different
        exact not_visits_of_sides (sides_of_kind_ne different step.role) visits
      rw [mismatch?_eq_families kinds visits.notCore, families_eq_some_iff]
      exact ⟨step, offer, want, visits, matched, here⟩

/-! ## Paths of entries -/

theorem leads_nil_iff {found expected : ItemType} :
    Leads lower upper [] found expected ↔ found = lower ∧ expected = upper := by
  constructor
  · rintro ⟨⟩
    exact ⟨rfl, rfl⟩
  · rintro ⟨rfl, rfl⟩
    exact .here _ _

theorem leads_cons_iff {step : Step} {path : List Step} {offer want found expected : ItemType}
    (visits : Visits lower upper step (some offer) want) :
    Leads lower upper (step :: path) found expected ↔ Leads offer want path found expected := by
  constructor
  · intro leads
    cases leads with
    | @through _ _ otherOffer otherWant _ _ _ _ others further =>
        have sameOffer := Option.some.inj (visits.offered.symm.trans others.offered)
        have sameWant := Option.some.inj (visits.wanted.symm.trans others.wanted)
        rw [sameOffer, sameWant]
        exact further
  · exact .through visits

theorem isFirst_nil_iff {reason : Reason} :
    Mismatch.IsFirst lower upper ⟨[], reason⟩ ↔
      reason.HoldsOf lower upper ∧ ∀ step, reason.step? = some step →
        MatchedBefore lower upper step := by
  constructor
  · intro isFirst
    obtain ⟨found, expected, leads, holds⟩ := isFirst.genuine
    obtain ⟨rfl, rfl⟩ := leads_nil_iff.mp leads
    refine ⟨holds, ?_⟩
    intro step entry
    exact isFirst.first [] step [] (by simp [entry]) _ _ leads
  · rintro ⟨holds, matched⟩
    refine ⟨⟨lower, upper, .here _ _, holds⟩, ?_⟩
    intro before step after whole found expected leads
    cases entry : reason.step? with
    | none => simp [entry] at whole
    | some missing =>
        simp only [entry, Option.toList_some, List.nil_append] at whole
        cases before with
        | nil =>
            obtain ⟨rfl, rfl⟩ := leads_nil_iff.mp leads
            exact matched step ((List.cons.inj whole).1 ▸ entry)
        | cons head before => simp at whole

theorem isFirst_cons_iff {step : Step} {path : List Step} {reason : Reason} :
    Mismatch.IsFirst lower upper ⟨step :: path, reason⟩ ↔
      ∃ offer want, Visits lower upper step (some offer) want ∧ MatchedBefore lower upper step ∧
        Mismatch.IsFirst offer want ⟨path, reason⟩ := by
  constructor
  · intro isFirst
    obtain ⟨found, expected, leads, holds⟩ := isFirst.genuine
    cases leads with
    | @through _ _ offer want _ _ _ _ visits further =>
        refine ⟨offer, want, visits, isFirst.first [] step _ rfl _ _ (.here _ _), ?_⟩
        refine ⟨⟨found, expected, further, holds⟩, ?_⟩
        intro before later after whole found expected leads
        refine isFirst.first (step :: before) later after ?_ found expected (.through visits leads)
        exact congrArg (step :: ·) whole
  · rintro ⟨offer, want, visits, matched, isFirst⟩
    obtain ⟨found, expected, leads, holds⟩ := isFirst.genuine
    refine ⟨⟨found, expected, .through visits leads, holds⟩, ?_⟩
    intro before later after whole found expected leads
    cases before with
    | nil =>
        obtain ⟨rfl, rfl⟩ := leads_nil_iff.mp leads
        exact (List.cons.inj whole).1 ▸ matched
    | cons head before =>
        obtain ⟨rfl, rest⟩ := List.cons.inj whole
        have further := (leads_cons_iff visits).mp leads
        exact isFirst.first before later after rest found expected further

/-- The mismatch that a comparison finds is the first one. -/
theorem mismatch?_eq_some_iff :
    lower.mismatch? upper = some mismatch ↔ mismatch.IsFirst lower upper := by
  obtain ⟨path, reason⟩ := mismatch
  -- The path is followed from the outside in; only a missing entry is visited without being on it.
  induction path generalizing lower upper with
  | nil =>
      rw [mismatch?_eq_some_cases, isFirst_nil_iff]
      constructor
      · rintro (direct | ⟨step, offer, want, visits, matched, here⟩)
        · cases direct with
          | kind different => exact ⟨⟨rfl, rfl, different⟩, by simp [Reason.step?]⟩
          | core kinds different => exact ⟨⟨rfl, rfl, kinds, different⟩, by simp [Reason.step?]⟩
        · cases offer with
          | none =>
              cases here
              refine ⟨⟨want, visits⟩, ?_⟩
              intro entry same
              exact Option.some.inj same ▸ matched
          | some offer => simp [visitMismatch?, Mismatch.under] at here
      · rintro ⟨holds, matched⟩
        cases reason with
        | kind found expected =>
            obtain ⟨rfl, rfl, different⟩ := holds
            exact .inl (.kind different)
        | core found expected =>
            obtain ⟨rfl, rfl, kinds, different⟩ := holds
            exact .inl (.core kinds different)
        | missing role name =>
            obtain ⟨want, visits⟩ := holds
            exact .inr ⟨⟨role, name⟩, none, want, visits, matched _ rfl, rfl⟩
  | cons step path ih =>
      rw [mismatch?_eq_some_cases, isFirst_cons_iff]
      constructor
      · rintro (direct | ⟨step, offer, want, visits, matched, here⟩)
        · cases direct
        · cases offer with
          | none => cases here
          | some offer =>
              obtain ⟨⟨innerPath, innerReason⟩, inner, same⟩ := Option.map_eq_some_iff.mp here
              cases same
              exact ⟨offer, want, visits, matched, ih.mp inner⟩
      · rintro ⟨offer, want, visits, matched, isFirst⟩
        refine .inr ⟨step, some offer, want, visits, matched, ?_⟩
        exact Option.map_eq_some_iff.mpr ⟨⟨path, reason⟩, ih.mpr isFirst, rfl⟩

end ItemType

/-! ## Texts and histories -/

theorem Reason.text_ne_nil (reason : Reason) : reason.text ≠ [] := by
  have append_ne_nil {first : Text} (rest : Text) (inhabited : first ≠ []) : first ++ rest ≠ [] :=
    List.append_ne_nil_of_left_ne_nil inhabited rest
  cases reason with
  | kind found expected => exact append_ne_nil _ (append_ne_nil _ (append_ne_nil _ (by decide)))
  | core found expected =>
      have worded : found.label ++ (" type " : Text) ≠ [] :=
        List.append_ne_nil_of_right_ne_nil _ (by decide)
      exact append_ne_nil _ (append_ne_nil _ (append_ne_nil _ worded))
  | missing role name => cases role <;> exact append_ne_nil _ (append_ne_nil _ (by decide))

theorem Mismatch.text_ne_nil (mismatch : Mismatch) : mismatch.text ≠ [] :=
  List.append_ne_nil_of_right_ne_nil _ mismatch.reason.text_ne_nil

namespace Checker

theorem ask_eq (shared : List Step → Bool) (comparison : Comparison) (checker : Checker) :
    ask shared comparison checker =
      (((comparison.run shared checker).1, (comparison.run shared checker).2.mismatch),
        (comparison.run shared checker).2) := rfl

/-- What a checker has done before makes no difference. -/
theorem ask_eq_fresh (shared : List Step → Bool) (comparison : Comparison) (checker : Checker) :
    ask shared comparison checker = ask shared comparison {} := by
  rw [ask_eq, ask_eq, Comparison.run_eq, Comparison.run_eq]

/-- The answer and the text are those of the first mismatch. -/
theorem ask_fst (shared : List Step → Bool) (comparison : Comparison) (checker : Checker) :
    (ask shared comparison checker).1 =
      (comparison.found.mismatch? comparison.expected).elim (true, [])
        fun mismatch => (false, mismatch.text) := by
  rw [ask_eq, Comparison.run_eq]
  cases comparison.found.mismatch? comparison.expected <;> rfl

theorem askAll_eq_fresh (requests : List ((List Step → Bool) × Comparison)) (checker : Checker) :
    (askAll requests checker).1 =
      requests.map fun request => (ask request.1 request.2 {}).1 := by
  induction requests generalizing checker with
  | nil => rfl
  | cons request rest ih =>
      have steps : (askAll (request :: rest) checker).1 =
          (ask request.1 request.2 checker).1 ::
            (askAll rest (ask request.1 request.2 checker).2).1 := rfl
      rw [steps, ih, ask_eq_fresh, List.map_cons]

/-- **The mismatch of a checker is that of a fresh one and the first one there is.** In a sequence
of comparisons by one checker, whatever it has done before, each gets the answer and the text that a
fresh checker gives. The text is empty exactly if the types match; and they do not match exactly if
there is a first mismatch, and then the text is its text. -/
theorem askAll_fresh_and_first (checker : Checker)
    (requests : List ((List Step → Bool) × Comparison)) :
    (askAll requests checker).1 = requests.map (fun request => (ask request.1 request.2 {}).1) ∧
    ∀ (shared : List Step → Bool) (comparison : Comparison),
      ((ask shared comparison {}).1.2 = [] ↔ (ask shared comparison {}).1.1 = true) ∧
      ((ask shared comparison {}).1.1 = false ↔ ∃ mismatch : Mismatch,
        mismatch.IsFirst comparison.found comparison.expected ∧
          (ask shared comparison {}).1.2 = mismatch.text) := by
  refine ⟨askAll_eq_fresh requests checker, ?_⟩
  intro shared comparison
  rw [ask_fst]
  simp only [← ItemType.mismatch?_eq_some_iff]
  cases comparison.found.mismatch? comparison.expected with
  | none => simp
  | some mismatch => simp [mismatch.text_ne_nil]

end Checker

end Linkage
