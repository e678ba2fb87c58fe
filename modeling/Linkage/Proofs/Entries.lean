import Mathlib.Data.List.Forall2
import Linkage.Entries

/-!
# Entries read as finite maps

`Covers` compares two finite maps: everything wanted is offered, with related values. The sorted
entries of a map are its values, so a search through them is a statement about `Covers`. Lists whose
entries agree in name, one by one, cover each other; lists without repeated names are determined by
their lookups.
-/

set_option autoImplicit false

namespace Linkage

theorem exists_getElem?_of_forall₂ {α β : Type} {related : α → β → Prop} {first : List α}
    {second : List β} (each : List.Forall₂ related first second) {index : Nat} {value : β}
    (found : second[index]? = some value) :
    ∃ other, first[index]? = some other ∧ related other value := by
  induction each generalizing index with
  | nil => simp at found
  | @cons head value rest others holds _ ih =>
      cases index with
      | zero =>
          cases found
          exact ⟨head, rfl, holds⟩
      | succ index => exact ih found

namespace Entries

variable {α β γ : Type}

theorem mem_sorted_iff {entries : List (Name × α)} {entry : Name × α} :
    entry ∈ sorted entries ↔ entries.lookup entry.1 = some entry.2 := by
  constructor
  · exact lookup_of_mem_sorted
  · intro found
    rw [← lookup_sorted] at found
    exact mem_of_lookup found

/-- What is found first in the sorted entries is found in an entry that counts, and in none of a
smaller name. -/
theorem findSome?_sorted_eq_some_iff {entries : List (Name × α)} {find : Name × α → Option β}
    {result : β} :
    (sorted entries).findSome? find = some result ↔
      ∃ entry, entries.lookup entry.1 = some entry.2 ∧ find entry = some result ∧
        ∀ earlier, entries.lookup earlier.1 = some earlier.2 → earlier.1 < entry.1 →
          find earlier = none := by
  have ordered := pairwise_sorted entries
  constructor
  · intro found
    obtain ⟨before, entry, after, whole, here, nothing⟩ := List.findSome?_eq_some_iff.mp found
    rw [whole, List.pairwise_append, List.pairwise_cons] at ordered
    obtain ⟨_, ⟨larger, _⟩, _⟩ := ordered
    have inside : entry ∈ sorted entries := whole ▸ List.mem_append_right _ List.mem_cons_self
    refine ⟨entry, lookup_of_mem_sorted inside, here, ?_⟩
    intro earlier counts less
    have among := mem_sorted_iff.mpr counts
    rw [whole, List.mem_append, List.mem_cons] at among
    rcases among with first | same | later
    · exact nothing earlier first
    · exact absurd (same ▸ less) (List.lt_irrefl _)
    · exact absurd (List.lt_trans less (larger earlier later)) (List.lt_irrefl _)
  · rintro ⟨entry, counts, here, nothing⟩
    obtain ⟨before, after, whole⟩ := List.append_of_mem (mem_sorted_iff.mpr counts)
    refine List.findSome?_eq_some_iff.mpr ⟨before, entry, after, whole, here, ?_⟩
    intro earlier first
    have inside : earlier ∈ sorted entries := whole ▸ List.mem_append_left _ first
    rw [whole, List.pairwise_append] at ordered
    exact nothing earlier (lookup_of_mem_sorted inside)
      (ordered.2.2 earlier first entry List.mem_cons_self)

theorem has_iff {entries : List (Name × α)} {name : Name} :
    has entries name = true ↔ ∃ value, entries.lookup name = some value := by
  rw [has, Option.isSome_iff_exists]

/-- Where one of two maps has an entry, so has the other if they have the same names. -/
theorem exists_lookup_of_has {entries : List (Name × α)} {others : List (Name × β)} {name : Name}
    {value : α} (named : has entries name = has others name)
    (found : entries.lookup name = some value) : ∃ other, others.lookup name = some other :=
  has_iff.mp (named ▸ has_iff.mpr ⟨value, found⟩)

theorem has_iff_mem {entries : List (Name × α)} {name : Name} :
    has entries name = true ↔ name ∈ entries.map Prod.fst := by
  unfold has
  induction entries with
  | nil => simp
  | cons entry rest ih =>
      rw [lookup_entry, List.map_cons, List.mem_cons]
      by_cases same : name = entry.1
      · simp [same]
      · simp [same, ih]

/-! ## Repeated names -/

theorem firstRepeated_eq_none_iff (seen names : List Name) :
    firstRepeated seen names = none ↔ (∀ name ∈ names, name ∉ seen) ∧ names.Nodup := by
  induction names generalizing seen with
  | nil => simp [firstRepeated]
  | cons name rest ih =>
      rw [firstRepeated]
      by_cases repeated : name ∈ seen
      · simp [repeated]
      · rw [if_neg repeated, ih, List.nodup_cons]
        constructor
        · rintro ⟨fresh, distinct⟩
          refine ⟨?_, ?_, distinct⟩
          · intro other inside
            rcases List.mem_cons.mp inside with first | later
            · exact first ▸ repeated
            · exact fun before => fresh other later (List.mem_cons_of_mem _ before)
          · exact fun inside => fresh name inside List.mem_cons_self
        · rintro ⟨fresh, notLater, distinct⟩
          refine ⟨?_, distinct⟩
          intro other inside before
          rcases List.mem_cons.mp before with first | earlier
          · exact notLater (first ▸ inside)
          · exact fresh other (List.mem_cons_of_mem _ inside) earlier

theorem repeated?_eq_none_iff (entries : List (Name × α)) :
    repeated? entries = none ↔ (entries.map Prod.fst).Nodup := by
  rw [repeated?, firstRepeated_eq_none_iff]
  simp

theorem firstRepeated_eq_some_iff {seen names : List Name} {name : Name} :
    firstRepeated seen names = some name ↔
      ∃ before after, names = before ++ name :: after ∧
        firstRepeated seen before = none ∧ (name ∈ seen ∨ name ∈ before) := by
  induction names generalizing seen with
  | nil => simp [firstRepeated]
  | cons head rest ih =>
      rw [firstRepeated]
      by_cases repeated : head ∈ seen
      · rw [if_pos repeated, Option.some.injEq]
        constructor
        · rintro rfl
          exact ⟨[], rest, rfl, rfl, .inl repeated⟩
        · rintro ⟨before, after, whole, nothing, _⟩
          cases before with
          | nil => exact (List.cons.inj whole).1
          | cons first before =>
              obtain ⟨rfl, _⟩ := List.cons.inj whole
              rw [firstRepeated, if_pos repeated] at nothing
              cases nothing
      · rw [if_neg repeated, ih]
        constructor
        · rintro ⟨before, after, rfl, nothing, again⟩
          refine ⟨head :: before, after, rfl, by rw [firstRepeated, if_neg repeated, nothing], ?_⟩
          rcases again with earlier | here
          · rcases List.mem_cons.mp earlier with same | inSeen
            · exact .inr (same ▸ List.mem_cons_self)
            · exact .inl inSeen
          · exact .inr (List.mem_cons_of_mem _ here)
        · rintro ⟨before, after, whole, nothing, again⟩
          cases before with
          | nil =>
              obtain ⟨rfl, _⟩ := List.cons.inj whole
              exact absurd again (by simp [repeated])
          | cons first before =>
              obtain ⟨rfl, tail⟩ := List.cons.inj whole
              rw [firstRepeated, if_neg repeated] at nothing
              refine ⟨before, after, tail, nothing, ?_⟩
              rcases again with inSeen | here
              · exact .inl (List.mem_cons_of_mem _ inSeen)
              · rcases List.mem_cons.mp here with same | later
                · exact .inl (same ▸ List.mem_cons_self)
                · exact .inr later

/-- The name found to be repeated is that of the first entry whose name occurred earlier. -/
theorem repeated?_eq_some_iff {entries : List (Name × α)} {name : Name} :
    repeated? entries = some name ↔
      ∃ before entry after, entries = before ++ entry :: after ∧
        (before.map Prod.fst).Nodup ∧ entry.1 ∈ before.map Prod.fst ∧ entry.1 = name := by
  rw [repeated?, firstRepeated_eq_some_iff]
  constructor
  · rintro ⟨names, others, whole, nothing, again⟩
    obtain ⟨before, rest, rfl, rfl, tail⟩ := List.map_eq_append_iff.mp whole
    obtain ⟨entry, after, rfl, rfl, rfl⟩ := List.map_eq_cons_iff.mp tail
    refine ⟨before, entry, after, rfl, (repeated?_eq_none_iff before).mp nothing, ?_, rfl⟩
    exact again.resolve_left List.not_mem_nil
  · rintro ⟨before, entry, after, rfl, distinct, again, rfl⟩
    exact ⟨before.map Prod.fst, after.map Prod.fst, by simp,
      (repeated?_eq_none_iff before).mpr distinct, .inr again⟩

theorem notMem_of_nodup {first rest : List (Name × α)} {entry : Name × α}
    (distinct : ((first ++ entry :: rest).map Prod.fst).Nodup) :
    entry.1 ∉ first.map Prod.fst := by
  intro before
  rw [List.map_append, List.nodup_append] at distinct
  exact distinct.2.2 entry.1 before entry.1 (by simp) rfl

/-- Distinct names stay so with a new one. -/
theorem nodup_append_new {entries : List (Name × α)} {added : Option (Name × α)}
    (distinct : (entries.map Prod.fst).Nodup)
    (fresh : ∀ entry, added = some entry → entry.1 ∉ entries.map Prod.fst) :
    ((entries ++ added.toList).map Prod.fst).Nodup := by
  cases added with
  | none => simpa using distinct
  | some entry =>
      rw [Option.toList_some, List.map_append, List.nodup_append]
      refine ⟨distinct, by simp, ?_⟩
      intro name before other here
      rw [List.map_singleton, List.mem_singleton] at here
      intro same
      exact fresh entry rfl (here ▸ same ▸ before)

theorem lookup_of_mem_nodup {entries : List (Name × α)} {entry : Name × α}
    (distinct : (entries.map Prod.fst).Nodup) (inside : entry ∈ entries) :
    entries.lookup entry.1 = some entry.2 := by
  induction entries with
  | nil => simp at inside
  | cons head rest ih =>
      rw [List.map_cons, List.nodup_cons] at distinct
      rw [lookup_entry]
      rcases List.mem_cons.mp inside with first | later
      · rw [if_pos (congrArg Prod.fst first), first]
      · have other : entry.1 ≠ head.1 := fun same =>
          distinct.1 (same ▸ List.mem_map_of_mem later)
        rw [if_neg other, ih distinct.2 later]

theorem lookup_eq_some_iff_mem {entries : List (Name × α)} (distinct : (entries.map Prod.fst).Nodup)
    {name : Name} {value : α} : entries.lookup name = some value ↔ (name, value) ∈ entries :=
  ⟨mem_of_lookup, lookup_of_mem_nodup distinct⟩

theorem lookup_eq_none_iff_names {entries : List (Name × α)} {name : Name} :
    entries.lookup name = none ↔ name ∉ entries.map Prod.fst := by
  rw [← has_iff_mem, has, Bool.not_eq_true, Option.isSome_eq_false_iff, Option.isNone_iff_eq_none]

/-! ## Maps that offer what other maps want -/

/-- Every wanted entry is offered under its name, with a related value. -/
def Covers (related : α → β → Prop) (offered : List (Name × α)) (wanted : List (Name × β)) : Prop :=
  ∀ name want, wanted.lookup name = some want →
    ∃ offer, offered.lookup name = some offer ∧ related offer want

theorem Covers.refl {related : α → α → Prop} {entries : List (Name × α)}
    (reflexive : ∀ entry ∈ entries, related entry.2 entry.2) : Covers related entries entries := by
  intro name want found
  exact ⟨want, found, reflexive _ (mem_of_lookup found)⟩

/-- Covering composes if the values that occur in the middle map do. -/
theorem Covers.trans {first : α → β → Prop} {second : β → γ → Prop} {composed : α → γ → Prop}
    {lower : List (Name × α)} {middle : List (Name × β)} {upper : List (Name × γ)}
    (below : Covers first lower middle) (above : Covers second middle upper)
    (compose : ∀ entry ∈ middle, ∀ offer want, first offer entry.2 → second entry.2 want →
      composed offer want) : Covers composed lower upper := by
  intro name want wanted
  obtain ⟨value, between, valueBelow⟩ := above name want wanted
  obtain ⟨offer, offered, offerBelow⟩ := below name value between
  exact ⟨offer, offered, compose (name, value) (mem_of_lookup between) offer want offerBelow
    valueBelow⟩

theorem Covers.imp {related weaker : α → β → Prop} {offered : List (Name × α)}
    {wanted : List (Name × β)} (covers : Covers related offered wanted)
    (weaken : ∀ offer ∈ offered, ∀ want ∈ wanted, related offer.2 want.2 → weaker offer.2 want.2) :
    Covers weaker offered wanted := by
  intro name want found
  obtain ⟨offer, among, holds⟩ := covers name want found
  exact ⟨offer, among, weaken _ (mem_of_lookup among) _ (mem_of_lookup found) holds⟩

/-- Two lists have the same names in the same order, with related values. -/
def Aligned (related : α → β → Prop) (first : List (Name × α)) (second : List (Name × β)) : Prop :=
  List.Forall₂ (fun entry other => entry.1 = other.1 ∧ related entry.2 other.2) first second

theorem Aligned.names_eq {related : α → β → Prop} {first : List (Name × α)}
    {second : List (Name × β)} (aligned : Aligned related first second) :
    first.map Prod.fst = second.map Prod.fst := by
  induction aligned with
  | nil => rfl
  | cons head _ ih => rw [List.map_cons, List.map_cons, head.1, ih]

theorem Aligned.covers {related : α → β → Prop} {first : List (Name × α)}
    {second : List (Name × β)} (aligned : Aligned related first second) :
    Covers related first second := by
  intro name want found
  induction aligned with
  | nil => simp at found
  | @cons entry other rest others head _ ih =>
      rw [lookup_entry] at found ⊢
      rw [head.1]
      by_cases same : name = other.1
      · rw [if_pos same, Option.some.injEq] at found
        rw [if_pos same]
        exact ⟨entry.2, rfl, found ▸ head.2⟩
      · rw [if_neg same] at found ⊢
        exact ih found

theorem Aligned.swap {related : α → β → Prop} {first : List (Name × α)}
    {second : List (Name × β)} (aligned : Aligned related first second) :
    Aligned (fun other value => related value other) second first := by
  induction aligned with
  | nil => exact .nil
  | cons head _ ih => exact .cons ⟨head.1.symm, head.2⟩ ih

theorem Aligned.append {related : α → β → Prop} {first rest : List (Name × α)}
    {second others : List (Name × β)} (aligned : Aligned related first second)
    (later : Aligned related rest others) :
    Aligned related (first ++ rest) (second ++ others) :=
  List.rel_append aligned later

end Entries

end Linkage
