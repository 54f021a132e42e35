import LuaClasses.OrderedMap

/-! Entries of maps from names, and maps that only take on more names. -/

namespace LuaClasses.OrderedMap

variable {α β : Type}

/-- Every name of the first map has the same value in the second. -/
def Within (first second : OrderedMap α) : Prop :=
  ∀ key value, first.get? key = some value → second.get? key = some value

theorem Within.refl (map : OrderedMap α) : map.Within map := fun _ _ found => found

theorem Within.trans {first second third : OrderedMap α} (one : first.Within second)
    (two : second.Within third) : first.Within third :=
  fun key value found => two key value (one key value found)

theorem within_insertNew (map : OrderedMap α) (key : String) (value : α) :
    map.Within (map.insertNew key value) := by
  intro name held found
  rw [get?_insertNew]
  split
  next same => rw [← same, found, Option.getD_some]
  next => exact found

/-- Giving a name the value it has keeps every value. -/
theorem within_insert (map : OrderedMap α) (key : String) (value : α)
    (agrees : ∀ held, map.get? key = some held → held = value) : map.Within (map.insert key value) := by
  intro name held found
  rw [get?_insert]
  split
  next same => rw [agrees held (same ▸ found)]
  next => exact found

theorem get?_eq_some_iff (map : OrderedMap α) (key : String) (value : α) :
    map.get? key = some value ↔ (key, value) ∈ map.entries := by
  obtain ⟨entries, distinct⟩ := map
  unfold get?
  induction entries with
  | nil => simp
  | cons entry rest ih =>
    obtain ⟨other, held⟩ := entry
    obtain ⟨fresh, apart⟩ := List.nodup_cons.1 (show (other :: rest.map Prod.fst).Nodup from distinct)
    rw [List.lookup_cons]
    by_cases same : key = other
    · subst same
      have absent : (key, value) ∉ rest := fun member => fresh (List.mem_map_of_mem (f := Prod.fst) member)
      simp [absent, eq_comm]
    · have different : (key == other) = false := beq_eq_false_iff_ne.2 same
      simpa only [different, List.mem_cons, Prod.mk.injEq, same, false_and, false_or] using ih apart

theorem mem_entries_of_get? {map : OrderedMap α} {key : String} {value : α}
    (found : map.get? key = some value) :
    (key, value) ∈ map.entries :=
  (get?_eq_some_iff map key value).1 found

theorem mem_insert {map : OrderedMap α} {key : String} {value : α} {entry : String × α}
    (member : entry ∈ (map.insert key value).entries) : entry = (key, value) ∨ entry ∈ map.entries := by
  have found := (get?_eq_some_iff _ entry.1 entry.2).2 member
  rw [get?_insert] at found
  split at found
  next same => exact .inl (Prod.ext same (Option.some.inj found).symm)
  next => exact .inr (mem_entries_of_get? found)

theorem mem_insertNew {map : OrderedMap α} {key : String} {value : α} {entry : String × α}
    (member : entry ∈ (map.insertNew key value).entries) : entry = (key, value) ∨ entry ∈ map.entries := by
  unfold insertNew at member
  split at member
  next => exact (List.mem_append.1 member).symm.imp_left List.mem_singleton.1
  next => exact .inr member

theorem mem_erase {map : OrderedMap α} {key : String} {entry : String × α}
    (member : entry ∈ (map.erase key).entries) : entry ∈ map.entries :=
  (List.mem_filter.1 member).1

/-- A name that is present is not given a new value. -/
theorem mem_values_insert {map : OrderedMap α} {key : String} {value other : α}
    (member : other ∈ (map.insert key value).values) :
    other = value ∨ other ∈ map.values := by
  obtain ⟨entry, listed, rfl⟩ := List.mem_map.1 member
  exact (mem_insert listed).imp (congrArg Prod.snd) List.mem_map_of_mem

theorem mem_values_insertNew {map : OrderedMap α} {key : String} {value other : α}
    (member : other ∈ (map.insertNew key value).values) : other = value ∨ other ∈ map.values := by
  obtain ⟨entry, listed, rfl⟩ := List.mem_map.1 member
  exact (mem_insertNew listed).imp (congrArg Prod.snd) List.mem_map_of_mem

theorem mem_values_erase {map : OrderedMap α} {key : String} {value : α}
    (member : value ∈ (map.erase key).values) :
    value ∈ map.values := by
  obtain ⟨entry, listed, rfl⟩ := List.mem_map.1 member
  exact List.mem_map_of_mem (mem_erase listed)

theorem insertNew_of_contains {map : OrderedMap α} {key : String} (present : map.contains key = true)
    (value : α) :
    map.insertNew key value = map := by
  simp [insertNew, present]

theorem contains_insertNew (map : OrderedMap α) (key : String) (value : α) :
    (map.insertNew key value).contains key = true := by
  rw [contains_eq_isSome_get?, get?_insertNew, if_pos rfl, Option.isSome_some]

theorem contains_insertNew_iff (map : OrderedMap α) (key name : String) (value : α) :
    (map.insertNew key value).contains name = true ↔ map.contains name = true ∨ name = key := by
  rw [contains_eq_isSome_get?, get?_insertNew, contains_eq_isSome_get?]
  by_cases same : name = key <;> simp [same]

theorem contains_insert (map : OrderedMap α) (key : String) (value : α) :
    (map.insert key value).contains key = true := by
  rw [contains_eq_isSome_get?, get?_insert, if_pos rfl, Option.isSome_some]

theorem Within.contains {first second : OrderedMap α} (within : first.Within second) {key : String}
    (present : first.contains key = true) : second.contains key = true := by
  rw [contains_eq_isSome_get?] at present ⊢
  obtain ⟨value, found⟩ := Option.isSome_iff_exists.1 present
  rw [within key value found, Option.isSome_some]

theorem get?_mapValues (f : α → β) (map : OrderedMap α) (key : String) :
    (map.mapValues f).get? key = (map.get? key).map f := by
  obtain ⟨entries, distinct⟩ := map
  simp only [get?, mapValues]
  clear distinct
  induction entries with
  | nil => rfl
  | cons entry rest ih =>
    obtain ⟨other, held⟩ := entry
    by_cases same : key = other
    · subst same; simp
    · simp only [List.map_cons, List.lookup_cons, beq_eq_false_iff_ne.2 same, ih]

theorem values_mapValues (f : α → β) (map : OrderedMap α) : (map.mapValues f).values = map.values.map f := by
  simp only [values, mapValues, List.map_map, Function.comp_def]

theorem contains_mapValues (f : α → β) (map : OrderedMap α) (key : String) :
    (map.mapValues f).contains key = map.contains key := by
  simp only [contains_eq_isSome_get?, get?_mapValues, Option.isSome_map]

theorem entries_insert (map : OrderedMap α) (key : String) (value : α) :
    (map.insert key value).entries =
      if map.contains key = false then map.entries ++ [(key, value)]
      else map.entries.map fun entry => if entry.1 = key then (key, value) else entry := by
  unfold insert
  split <;> rfl

theorem insert_mapValues (f : α → β) (map : OrderedMap α) (key : String) (value : α) :
    (map.mapValues f).insert key (f value) = (map.insert key value).mapValues f := by
  apply ext
  simp only [mapValues, entries_insert, apply_ite (List.map _), List.map_append, List.map_map,
    List.map_cons, List.map_nil]
  rw [show OrderedMap.contains ⟨_, _⟩ key = map.contains key from contains_mapValues f map key]
  congr 1
  refine List.map_congr_left fun entry _ => ?_
  simp only [Function.comp_apply]
  split <;> rfl

theorem erase_mapValues (f : α → β) (map : OrderedMap α) (key : String) :
    (map.mapValues f).erase key = (map.erase key).mapValues f := by
  apply ext
  simp only [erase, mapValues, List.filter_map, Function.comp_def]

theorem get?_filterMapValues (f : α → Option β) (map : OrderedMap α) (key : String) :
    (map.filterMapValues f).get? key = (map.get? key).bind f := by
  ext image
  rw [get?_eq_some_iff, filterMapValues, List.mem_filterMap, Option.bind_eq_some_iff]
  constructor
  · rintro ⟨⟨name, value⟩, member, shown⟩
    obtain ⟨other, given, same⟩ := Option.map_eq_some_iff.1 shown
    cases same
    exact ⟨value, (get?_eq_some_iff map _ value).2 member, given⟩
  · rintro ⟨value, found, given⟩
    exact ⟨(_, value), mem_entries_of_get? found, by rw [given]; rfl⟩

/-- Where every value has an image, no name is dropped. -/
theorem keys_filterMapValues {f : α → Option β} {map : OrderedMap α}
    (total : ∀ {key value}, map.get? key = some value → (f value).isSome = true) :
    (map.filterMapValues f).keys = map.keys := by
  suffices ∀ entries : List (String × α), (∀ entry ∈ entries, (f entry.2).isSome = true) →
      (entries.filterMap fun entry => (f entry.2).map (entry.1, ·)).map Prod.fst = entries.map Prod.fst from
    this map.entries fun entry member => total ((get?_eq_some_iff map entry.1 entry.2).2 member)
  intro entries total
  induction entries with
  | nil => rfl
  | cons entry rest ih =>
    obtain ⟨image, given⟩ := Option.isSome_iff_exists.1 (total entry List.mem_cons_self)
    rw [List.filterMap_cons, given, Option.map_some, List.map_cons, List.map_cons,
      ih fun other member => total other (List.mem_cons_of_mem _ member)]

end LuaClasses.OrderedMap
