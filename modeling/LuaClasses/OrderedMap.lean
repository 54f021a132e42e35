/-! Finite maps from names that remember the order in which the names were first given.
A name that is given again keeps its place; one that is erased and given again goes to the end. -/

namespace LuaClasses

/-- A map from names to values, listed in the order in which the names came. -/
structure OrderedMap (α : Type) where
  entries : List (String × α)
  distinct : (entries.map Prod.fst).Nodup

namespace OrderedMap

variable {α β : Type}

def empty : OrderedMap α := ⟨[], List.nodup_nil⟩

instance : EmptyCollection (OrderedMap α) := ⟨empty⟩

instance : Inhabited (OrderedMap α) := ⟨empty⟩

def keys (map : OrderedMap α) : List String := map.entries.map Prod.fst

def values (map : OrderedMap α) : List α := map.entries.map Prod.snd

def isEmpty (map : OrderedMap α) : Bool := map.entries.isEmpty

def size (map : OrderedMap α) : Nat := map.entries.length

def get? (map : OrderedMap α) (key : String) : Option α := map.entries.lookup key

def contains (map : OrderedMap α) (key : String) : Bool := map.keys.contains key

/-- The place of a name among the names, counted from the first one given. -/
def position? (map : OrderedMap α) (key : String) : Option Nat := map.keys.idxOf? key

private theorem keys_replace (entries : List (String × α)) (key : String) (value : α) :
    (entries.map fun entry => if entry.1 = key then (key, value) else entry).map Prod.fst =
      entries.map Prod.fst := by
  induction entries with
  | nil => rfl
  | cons entry rest ih =>
    simp only [List.map_cons, ih]
    split <;> simp_all

private theorem distinct_append (map : OrderedMap α) (key : String) (value : α)
    (fresh : map.contains key = false) :
    ((map.entries ++ [(key, value)]).map Prod.fst).Nodup := by
  have absent : key ∉ map.entries.map Prod.fst := by
    simpa [contains, keys] using fresh
  simp only [List.map_append, List.map_cons, List.map_nil]
  refine List.nodup_append.2 ⟨map.distinct, by simp, ?_⟩
  rintro name member other found rfl
  cases List.mem_singleton.1 found
  exact absent member

/-- Give a name a value. A name that is present keeps its place. -/
def insert (map : OrderedMap α) (key : String) (value : α) : OrderedMap α :=
  if fresh : map.contains key = false then
    ⟨map.entries ++ [(key, value)], distinct_append map key value fresh⟩
  else
    ⟨map.entries.map fun entry => if entry.1 = key then (key, value) else entry, by
      rw [keys_replace]; exact map.distinct⟩

/-- Give a name a value unless it already has one. -/
def insertNew (map : OrderedMap α) (key : String) (value : α) : OrderedMap α :=
  if fresh : map.contains key = false then
    ⟨map.entries ++ [(key, value)], distinct_append map key value fresh⟩
  else map

def erase (map : OrderedMap α) (key : String) : OrderedMap α :=
  ⟨map.entries.filter fun entry => entry.1 ≠ key,
    map.distinct.sublist (List.filter_sublist.map Prod.fst)⟩

/-- The map of a list of pairs: a repeated name keeps its first place and its last value. -/
def ofList (entries : List (String × α)) : OrderedMap α :=
  entries.foldl (fun map entry => map.insert entry.1 entry.2) empty

def mapValues (f : α → β) (map : OrderedMap α) : OrderedMap β :=
  ⟨map.entries.map fun entry => (entry.1, f entry.2), by
    simpa [List.map_map, Function.comp_def] using map.distinct⟩

/-- Keep the names whose value has an image, with that image. -/
def filterMapValues (f : α → Option β) (map : OrderedMap α) : OrderedMap β :=
  ⟨map.entries.filterMap fun entry => (f entry.2).map (entry.1, ·), by
    have kept : ∀ entries : List (String × α),
        ((entries.filterMap fun entry => (f entry.2).map (entry.1, ·)).map Prod.fst).Sublist
          (entries.map Prod.fst) := by
      intro entries
      induction entries with
      | nil => exact .slnil
      | cons entry rest ih =>
        cases found : f entry.2 with
        | none => simpa [List.filterMap_cons, found] using ih.trans (List.sublist_cons_self _ _)
        | some image => simpa [List.filterMap_cons, found] using ih
    exact map.distinct.sublist (kept map.entries)⟩

/-- The map with its names in order. -/
def sorted (map : OrderedMap α) : OrderedMap α :=
  ⟨map.entries.mergeSort fun left right => left.1 ≤ right.1, by
    exact ((List.mergeSort_perm map.entries _).map Prod.fst).nodup_iff.2 map.distinct⟩

theorem ext {first second : OrderedMap α} (same : first.entries = second.entries) :
    first = second := by
  cases first; cases second; simp_all

instance [DecidableEq α] : DecidableEq (OrderedMap α) := fun first second =>
  if same : first.entries = second.entries then .isTrue (ext same)
  else .isFalse (fun equal => same (congrArg entries equal))

@[simp] theorem entries_empty : (empty : OrderedMap α).entries = [] := rfl

theorem mem_keys_iff_contains (map : OrderedMap α) (key : String) :
    key ∈ map.keys ↔ map.contains key = true := by
  simp [contains]

theorem keys_insert (map : OrderedMap α) (key : String) (value : α) :
    (map.insert key value).keys = if map.contains key then map.keys else map.keys ++ [key] := by
  unfold insert
  split
  next fresh => simp [keys, fresh]
  next present =>
    have present : map.contains key = true := by simpa using present
    simp only [keys, present, if_true]
    exact keys_replace map.entries key value

private theorem lookup_replace (entries : List (String × α)) (key name : String) (value : α) :
    (entries.map fun entry => if entry.1 = key then (key, value) else entry).lookup name =
      if name = key then (entries.lookup key).map fun _ => value else entries.lookup name := by
  induction entries with
  | nil => simp
  | cons entry rest ih =>
    obtain ⟨other, held⟩ := entry
    by_cases same : other = key
    · subst same
      by_cases found : name = other
      · subst found
        simp
      · simp only [List.map_cons, if_true, List.lookup_cons, beq_eq_false_iff_ne.2 found, ih, if_neg found]
    · by_cases found : name = other
      · subst found
        simp [same]
      · have absent : (key == other) = false := beq_eq_false_iff_ne.2 (Ne.symm same)
        simp only [List.map_cons, if_neg same, List.lookup_cons, beq_eq_false_iff_ne.2 found, ih, absent]

private theorem lookup_snoc (entries : List (String × α)) (key name : String) (value : α)
    (absent : key ∉ entries.map Prod.fst) :
    (entries ++ [(key, value)]).lookup name = if name = key then some value else entries.lookup name := by
  induction entries with
  | nil =>
    by_cases found : name = key
    · simp [found]
    · simp [found, List.lookup_cons, beq_eq_false_iff_ne.2 found]
  | cons entry rest ih =>
    obtain ⟨other, held⟩ := entry
    simp only [List.map_cons, List.mem_cons, not_or] at absent
    by_cases found : name = other
    · subst found
      simp [Ne.symm absent.1]
    · simp only [List.cons_append, List.lookup_cons, beq_eq_false_iff_ne.2 found, ih absent.2]

theorem contains_eq_isSome_get? (map : OrderedMap α) (key : String) :
    map.contains key = (map.get? key).isSome := by
  unfold contains keys get?
  induction map.entries with
  | nil => rfl
  | cons entry rest ih =>
    obtain ⟨other, held⟩ := entry
    by_cases found : key = other
    · subst found
      simp
    · simp only [List.map_cons, List.contains_cons, List.lookup_cons, beq_eq_false_iff_ne.2 found,
        Bool.false_or, ih]

/-- Giving a name a value changes the value of no other name. -/
theorem get?_insert (map : OrderedMap α) (key name : String) (value : α) :
    (map.insert key value).get? name = if name = key then some value else map.get? name := by
  unfold insert
  split
  next fresh => exact lookup_snoc map.entries key name value (by simpa [contains, keys] using fresh)
  next present =>
    have held : (map.get? key).isSome = true := by
      rw [← contains_eq_isSome_get?]
      simpa using present
    obtain ⟨old, found⟩ := Option.isSome_iff_exists.1 held
    have found : map.entries.lookup key = some old := found
    simp only [get?, lookup_replace, found, Option.map_some]

theorem get?_insertNew (map : OrderedMap α) (key name : String) (value : α) :
    (map.insertNew key value).get? name =
      if name = key then some ((map.get? key).getD value) else map.get? name := by
  unfold insertNew
  split
  next fresh =>
    have absent : map.get? key = none := by
      have unheld := contains_eq_isSome_get? map key
      rw [fresh] at unheld
      exact Option.not_isSome_iff_eq_none.1 (by simp [← unheld])
    rw [absent]
    exact lookup_snoc map.entries key name value (by simpa [contains, keys] using fresh)
  next present =>
    have held : (map.get? key).isSome = true := by
      rw [← contains_eq_isSome_get?]
      simpa using present
    obtain ⟨old, found⟩ := Option.isSome_iff_exists.1 held
    by_cases same : name = key
    · simp [same, found]
    · simp [same]

private theorem lookup_filter (entries : List (String × α)) (key name : String) :
    (entries.filter fun entry => entry.1 ≠ key).lookup name =
      if name = key then none else entries.lookup name := by
  induction entries with
  | nil => simp
  | cons entry rest ih =>
    obtain ⟨other, held⟩ := entry
    by_cases same : other = key
    · subst same
      by_cases found : name = other
      · simpa [found] using ih
      · simp only [ne_eq, not_true_eq_false, decide_false, Bool.false_eq_true, not_false_eq_true,
          List.filter_cons_of_neg, List.lookup_cons, beq_eq_false_iff_ne.2 found, if_neg found] at ih ⊢
        exact ih
    · by_cases found : name = other
      · subst found
        simp [same]
      · simp only [ne_eq, same, not_false_eq_true, decide_true, List.filter_cons_of_pos,
          List.lookup_cons, beq_eq_false_iff_ne.2 found] at ih ⊢
        exact ih

theorem get?_erase (map : OrderedMap α) (key name : String) :
    (map.erase key).get? name = if name = key then none else map.get? name :=
  lookup_filter map.entries key name

end OrderedMap
end LuaClasses
