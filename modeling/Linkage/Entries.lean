import Linkage.Text

/-!
# Named entries

A list of named entries is read as a finite map: the first entry of a name counts and later ones of
the same name are as good as absent. `List.lookup` is the map; `sorted` lists each name once, in
byte order, with the entry that counts. `lookup_sorted` and `pairwise_sorted` say that sorting keeps
the map and orders the names.
-/

set_option autoImplicit false

namespace Linkage.Entries

variable {α β : Type}

/-- Puts an entry at its place in a list sorted by name. An entry of the same name gives way. -/
def place (entry : Name × α) : List (Name × α) → List (Name × α)
  | [] => [entry]
  | head :: rest =>
      if entry.1 < head.1 then entry :: head :: rest
      else if entry.1 = head.1 then entry :: rest
      else head :: place entry rest

def arranged : List (Name × α) → List (Name × α)
  | [] => []
  | entry :: rest => place entry (arranged rest)

def precedes (first second : Name × α) : Bool := decide (first.1 ≤ second.1)

/-- The entries that count, in byte order of their names. Many entries are brought into order before
they are placed, so that each finds its place at the front. -/
def sorted (entries : List (Name × α)) : List (Name × α) :=
  if entries.length ≤ 32 then arranged entries
  else arranged (entries.mergeSort precedes)

def names (entries : List (Name × α)) : List Name := (sorted entries).map Prod.fst

def size (entries : List (Name × α)) : Nat := (sorted entries).length

def has (entries : List (Name × α)) (name : Name) : Bool := (entries.lookup name).isSome

/-- The first name of a list that has occurred earlier in it or is among `seen`. -/
def firstRepeated (seen : List Name) : List Name → Option Name
  | [] => none
  | name :: rest => if name ∈ seen then some name else firstRepeated (name :: seen) rest

def repeated? (entries : List (Name × α)) : Option Name := firstRepeated [] (entries.map Prod.fst)

theorem lookup_entry (entry : Name × α) (entries : List (Name × α)) (name : Name) :
    (entry :: entries).lookup name =
      if name = entry.1 then some entry.2 else entries.lookup name := by
  obtain ⟨key, value⟩ := entry
  by_cases same : name = key
  · rw [if_pos same, List.lookup_cons, beq_iff_eq.mpr same]
  · rw [if_neg same, List.lookup_cons, beq_eq_false_iff_ne.mpr same]

theorem lookup_place (entry : Name × α) (entries : List (Name × α)) (name : Name) :
    (place entry entries).lookup name =
      if name = entry.1 then some entry.2 else entries.lookup name := by
  induction entries with
  | nil => rw [place, lookup_entry]
  | cons head rest ih =>
      simp only [place]
      split
      · rw [lookup_entry]
      · split
        next same =>
          rw [lookup_entry, lookup_entry head, same]
          split <;> rfl
        next different =>
          rw [lookup_entry, lookup_entry head, ih]
          by_cases first : name = head.1
          · have other : name ≠ entry.1 := fun equal => different (equal.symm.trans first)
            rw [if_pos first, if_neg other, if_pos first]
          · rw [if_neg first, if_neg first]

/-- Two entries of different names can be placed in either order. -/
theorem place_comm {first second : Name × α} (different : first.1 ≠ second.1)
    (entries : List (Name × α)) :
    place first (place second entries) = place second (place first entries) := by
  induction entries with
  | nil => grind [place]
  | cons head rest ih => grind [place]

/-- An entry can be placed before those of other names. -/
theorem arranged_append_cons {entry : Name × α} {before : List (Name × α)}
    (different : ∀ other ∈ before, other.1 ≠ entry.1) (after : List (Name × α)) :
    arranged (before ++ entry :: after) = place entry (arranged (before ++ after)) := by
  induction before with
  | nil => rfl
  | cons other rest ih =>
      rw [List.cons_append, arranged, ih fun later inside =>
        different later (List.mem_cons_of_mem _ inside), List.cons_append, arranged,
        place_comm (different other List.mem_cons_self)]

theorem precedes_trans (first second third : Name × α) (before : precedes first second = true)
    (after : precedes second third = true) : precedes first third = true :=
  decide_eq_true (Std.le_trans (of_decide_eq_true before) (of_decide_eq_true after))

theorem precedes_total (first second : Name × α) :
    (precedes first second || precedes second first) = true := by
  rcases (Std.le_total : first.1 ≤ second.1 ∨ second.1 ≤ first.1) with before | after
  · rw [precedes, decide_eq_true before, Bool.true_or]
  · rw [precedes, precedes, decide_eq_true after, Bool.or_true]

theorem arranged_mergeSort (entries : List (Name × α)) :
    arranged (entries.mergeSort precedes) = arranged entries := by
  induction entries with
  | nil => rw [List.mergeSort_nil]
  | cons entry rest ih =>
      obtain ⟨before, after, whole, others, below⟩ :=
        List.mergeSort_cons precedes_trans precedes_total entry rest
      have different : ∀ other ∈ before, other.1 ≠ entry.1 := by
        intro other inside same
        have wrong := below other inside
        rw [precedes, same, decide_eq_true (Std.le_refl _)] at wrong
        exact absurd wrong (by decide)
      rw [whole, arranged_append_cons different, ← others, ih, arranged]

theorem sorted_eq (entries : List (Name × α)) : sorted entries = arranged entries := by
  unfold sorted
  split
  · rfl
  · exact arranged_mergeSort entries

/-- Sorting keeps the map. -/
theorem lookup_sorted (entries : List (Name × α)) (name : Name) :
    (sorted entries).lookup name = entries.lookup name := by
  rw [sorted_eq]
  induction entries with
  | nil => rfl
  | cons entry rest ih =>
      rw [arranged, lookup_place, lookup_entry, ih]

theorem mem_place {entry other : Name × α} {entries : List (Name × α)}
    (inside : other ∈ place entry entries) : other = entry ∨ other ∈ entries := by
  induction entries with
  | nil => simpa [place] using inside
  | cons head rest ih =>
      simp only [place] at inside
      split at inside
      · simpa using inside
      · split at inside
        · rcases List.mem_cons.mp inside with first | later
          · exact Or.inl first
          · exact Or.inr (List.mem_cons_of_mem _ later)
        · rcases List.mem_cons.mp inside with first | later
          · exact Or.inr (first ▸ List.mem_cons_self)
          · exact (ih later).imp_right (List.mem_cons_of_mem _)

theorem mem_of_mem_sorted {entry : Name × α} {entries : List (Name × α)}
    (inside : entry ∈ sorted entries) : entry ∈ entries := by
  rw [sorted_eq] at inside
  induction entries with
  | nil => simp [arranged] at inside
  | cons head rest ih =>
      rcases mem_place inside with first | later
      · exact first ▸ List.mem_cons_self
      · exact List.mem_cons_of_mem _ (ih later)

theorem pairwise_place (entry : Name × α) {entries : List (Name × α)}
    (ordered : entries.Pairwise fun first later => first.1 < later.1) :
    (place entry entries).Pairwise fun first later => first.1 < later.1 := by
  induction entries with
  | nil => simp [place]
  | cons head rest ih =>
      obtain ⟨above, tail⟩ := List.pairwise_cons.mp ordered
      simp only [place]
      split
      next before =>
        refine List.pairwise_cons.mpr ⟨?_, ordered⟩
        intro later inside
        rcases List.mem_cons.mp inside with first | deeper
        · exact first ▸ before
        · exact List.lt_trans before (above later deeper)
      next notBefore =>
        split
        next same =>
          exact List.pairwise_cons.mpr ⟨fun later inside => same ▸ above later inside, tail⟩
        next different =>
          refine List.pairwise_cons.mpr ⟨?_, ih tail⟩
          intro later inside
          rcases mem_place inside with placed | deeper
          · subst placed
            exact Std.lt_of_le_of_ne (Std.not_lt.mp notBefore) (Ne.symm different)
          · exact above later deeper

/-- The sorted entries have strictly growing names, so each name occurs once. -/
theorem pairwise_sorted (entries : List (Name × α)) :
    (sorted entries).Pairwise fun first later => first.1 < later.1 := by
  rw [sorted_eq]
  induction entries with
  | nil => exact List.Pairwise.nil
  | cons entry rest ih => exact pairwise_place entry ih

theorem place_map (change : α → β) (entry : Name × α) (entries : List (Name × α)) :
    place (entry.1, change entry.2) (entries.map fun other => (other.1, change other.2)) =
      (place entry entries).map fun other => (other.1, change other.2) := by
  induction entries with
  | nil => rfl
  | cons head rest ih =>
      simp only [place, List.map_cons]
      split
      · rfl
      · split
        · rfl
        · rw [ih, List.map_cons]

/-- Sorting looks at the names only. -/
theorem sorted_map (change : α → β) (entries : List (Name × α)) :
    sorted (entries.map fun entry => (entry.1, change entry.2)) =
      (sorted entries).map fun entry => (entry.1, change entry.2) := by
  rw [sorted_eq, sorted_eq]
  induction entries with
  | nil => rfl
  | cons entry rest ih => rw [List.map_cons, arranged, ih, place_map, arranged]

theorem lookup_map (change : α → β) (entries : List (Name × α)) (name : Name) :
    (entries.map fun entry => (entry.1, change entry.2)).lookup name =
      (entries.lookup name).map change := by
  induction entries with
  | nil => rfl
  | cons entry rest ih =>
      rw [List.map_cons, lookup_entry, lookup_entry, ih]
      split <;> rfl

theorem mem_of_lookup {entries : List (Name × α)} {name : Name} {value : α}
    (found : entries.lookup name = some value) : (name, value) ∈ entries := by
  induction entries with
  | nil => simp at found
  | cons entry rest ih =>
      rw [lookup_entry] at found
      split at found
      next same =>
        rw [same, ← Option.some.inj found]
        exact List.mem_cons_self
      next => exact List.mem_cons_of_mem _ (ih found)

theorem lookup_of_mem {entries : List (Name × α)} {entry : Name × α}
    (ordered : entries.Pairwise fun first later => first.1 < later.1) (inside : entry ∈ entries) :
    entries.lookup entry.1 = some entry.2 := by
  induction entries with
  | nil => simp at inside
  | cons head rest ih =>
      obtain ⟨above, tail⟩ := List.pairwise_cons.mp ordered
      rw [lookup_entry]
      rcases List.mem_cons.mp inside with first | later
      · rw [if_pos (congrArg Prod.fst first), first]
      · have other : entry.1 ≠ head.1 := fun same =>
          List.lt_irrefl head.1 (same ▸ above entry later)
        rw [if_neg other, ih tail later]

/-- The entries that count are the values of the map. -/
theorem lookup_of_mem_sorted {entries : List (Name × α)} {entry : Name × α}
    (inside : entry ∈ sorted entries) : entries.lookup entry.1 = some entry.2 := by
  rw [← lookup_sorted]
  exact lookup_of_mem (pairwise_sorted entries) inside

end Linkage.Entries
