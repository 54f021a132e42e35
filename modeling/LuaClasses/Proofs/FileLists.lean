import LuaClasses.CommandLine.Snapshot
import LuaClasses.Proofs.PathParts

/-! The files that arguments ask for. A path leads to the location that its parts give, so paths with the
same parts are of one file. Each file that is asked for is listed, and it is listed once exactly if all
arguments that ask for it spell its path with the same parts: a file below `.` and below one of its
directories is listed for both. -/

namespace LuaClasses.CommandLine
open LuaClasses.CommandLine.Path

/-! ### Locations -/

/-- Where a part of a path leads from a directory. -/
def Location.follow (location : Location) : PathPart → Location
  | .root => []
  | .here => location
  | .up => location.dropLast
  | .name text => location ++ [text]

private theorem Location.step_name (location : Location) {name : String} (proper : IsName name) :
    location.step name = location ++ [name] := by
  rw [step, if_neg (not_or.2 ⟨proper.filled, proper.not_here⟩), if_neg proper.not_up]

private theorem Location.step_filled (location : Location) {segment : String} (filled : segment ≠ "") :
    location.step segment = location.follow (.ofText segment) := by
  by_cases notHere : segment = "."
  · subst notHere
    rfl
  · rw [step, if_neg (not_or.2 ⟨filled, notHere⟩)]
    split
    next up =>
      subst up
      rfl
    next notUp => rw [ofText_name notHere notUp, follow]

private theorem Location.foldl_follow_names (location : Location) (names : List String) :
    (names.map PathPart.name).foldl follow location = location ++ names := by
  induction names generalizing location with
  | nil => exact (List.append_nil location).symm
  | cons name rest ih =>
    rw [List.map_cons, List.foldl_cons, ih, follow, List.append_assoc, List.singleton_append]

private theorem Location.foldl_step (location : Location) (segments : List String) :
    segments.foldl step location = (laterParts segments).foldl follow location := by
  induction segments generalizing location with
  | nil => rfl
  | cons segment rest ih =>
    rw [List.foldl_cons, ih, ← List.singleton_append, laterParts_append, List.foldl_append]
    congr 1
    by_cases blank : segment = "" ∨ segment = "."
    · rw [step, if_pos blank]
      rcases blank with rfl | rfl <;> rfl
    · rw [not_or] at blank
      rw [step_filled location blank.1]
      simp [laterParts, blank.1, blank.2]

namespace Snapshot

variable {snapshot : Snapshot} {path : String} {location next : Location}

private theorem enter_ok {segment : String} (entered : snapshot.enter location segment = .ok next) :
    next = location.step segment := by
  rw [enter] at entered
  split at entered
  next => cases entered
  next => cases entered
  next => exact (Except.ok.inj entered).symm

private theorem enter_directory (directory : snapshot.entry? location = some .directory) (segment : String) :
    snapshot.enter location segment = .ok (location.step segment) := by
  rw [enter, directory]

private theorem foldlM_enter_cons {segment : String} {rest : List String}
    (led : (segment :: rest).foldlM snapshot.enter location = .ok next) :
    ∃ middle, snapshot.enter location segment = .ok middle ∧
      rest.foldlM snapshot.enter middle = .ok next := by
  rw [List.foldlM_cons] at led
  cases entered : snapshot.enter location segment with
  | error problem => rw [entered] at led; cases led
  | ok middle => exact ⟨middle, rfl, by rwa [entered] at led⟩

private theorem foldlM_enter_append {front back : List String}
    (led : (front ++ back).foldlM snapshot.enter location = .ok next) :
    ∃ middle, front.foldlM snapshot.enter location = .ok middle ∧
      back.foldlM snapshot.enter middle = .ok next := by
  rw [List.foldlM_append] at led
  cases reached : front.foldlM snapshot.enter location with
  | error problem => rw [reached] at led; cases led
  | ok middle => exact ⟨middle, rfl, by rwa [reached] at led⟩

private theorem foldlM_enter_ok {segments : List String}
    (led : segments.foldlM snapshot.enter location = .ok next) :
    next = segments.foldl Location.step location := by
  induction segments generalizing location with
  | nil => exact (Except.ok.inj led).symm
  | cons segment rest ih =>
    obtain ⟨middle, entered, led⟩ := foldlM_enter_cons led
    rw [ih led, enter_ok entered, List.foldl_cons]

private theorem filled_of_locate (located : snapshot.locate path = .ok location) : path ≠ "" := by
  rintro rfl
  cases located

private theorem locate_filled (filled : path ≠ "") :
    snapshot.locate path = (segments path).foldlM snapshot.enter (Location.origin snapshot.working path) := by
  rw [locate, if_neg (by rwa [String.isEmpty_iff])]

/-- A path that leads somewhere leads where its parts do. -/
theorem eq_of_locate (located : snapshot.locate path = .ok location) :
    location = (parts path).foldl Location.follow snapshot.working := by
  have filled := filled_of_locate located
  rw [locate_filled filled] at located
  obtain ⟨first, others, split⟩ := List.exists_cons_of_ne_nil (segments_ne_nil path)
  rw [foldlM_enter_ok located, split, parts_of_segments filled split, List.foldl_cons,
    List.foldl_cons, Location.foldl_step]
  congr 1
  rw [Location.origin, split, firstPart]
  by_cases blank : first = ""
  · subst blank
    rfl
  · rw [if_neg (by simpa using blank), if_neg blank, Location.step_filled _ blank]

private theorem eq_of_parts_eq {other : String} {place : Location}
    (located : snapshot.locate path = .ok location) (found : snapshot.locate other = .ok place)
    (same : parts path = parts other) : location = place := by
  rw [eq_of_locate located, eq_of_locate found, same]

private theorem origin_child (working : Location) {name : String} (filled : path ≠ "")
    (unbroken : '/' ∉ name.toList) :
    Location.origin working (child path name) = Location.origin working path := by
  obtain ⟨first, others, front, whole⟩ := segments_child filled unbroken
  rw [Location.origin, Location.origin, whole]
  rcases front with same | same <;> rw [same] <;> rfl

/-- The path of an entry leads on from its directory. -/
theorem locate_child {name : String} (located : snapshot.locate path = .ok location)
    (directory : snapshot.entry? location = some .directory) (proper : IsName name) :
    snapshot.locate (child path name) = .ok (location ++ [name]) := by
  have filled := filled_of_locate located
  obtain ⟨first, others, front, whole⟩ := segments_child filled proper.unbroken
  have led : (first :: others).foldlM snapshot.enter (Location.origin snapshot.working path) =
      .ok location := by
    rw [locate_filled filled] at located
    rcases front with same | same
    · rwa [same] at located
    · rw [same, ← List.cons_append] at located
      obtain ⟨middle, led, slash⟩ := foldlM_enter_append located
      rwa [foldlM_enter_ok slash]
  rw [locate_filled (child_ne_empty filled proper), origin_child _ filled proper.unbroken,
    whole, ← List.cons_append,
    List.foldlM_append, led]
  exact (bind_pure _).trans ((enter_directory directory name).trans
    (congrArg Except.ok (location.step_name proper)))

/-! ### Files -/

/-- Whether the locations of files are made of names, and no file lies below another one. -/
structure Sound (snapshot : Snapshot) : Prop where
  names : ∀ file ∈ snapshot.files, ∀ name ∈ file.1, IsName name
  leaves : ∀ file ∈ snapshot.files, ∀ other ∈ snapshot.files, file.1 <+: other.1 → file.1 = other.1

instance (snapshot : Snapshot) : Decidable snapshot.Sound :=
  decidable_of_iff ((∀ file ∈ snapshot.files, ∀ name ∈ file.1, IsName name) ∧
      ∀ file ∈ snapshot.files, ∀ other ∈ snapshot.files, file.1 <+: other.1 → file.1 = other.1)
    ⟨fun ⟨names, leaves⟩ => ⟨names, leaves⟩, fun sound => ⟨sound.names, sound.leaves⟩⟩

/-- The locations of the files. -/
def places (snapshot : Snapshot) : List Location := snapshot.files.map Prod.fst

theorem mem_places : location ∈ snapshot.places ↔ ∃ content, (location, content) ∈ snapshot.files := by
  rw [places, List.mem_map]
  exact ⟨fun ⟨file, listed, same⟩ => ⟨file.2, same ▸ listed⟩,
    fun ⟨content, listed⟩ => ⟨(location, content), listed, rfl⟩⟩

theorem entry?_file_iff :
    (∃ content, snapshot.entry? location = some (.file content)) ↔ location ∈ snapshot.places := by
  rw [mem_places, entry?]
  constructor
  · rintro ⟨content, held⟩
    split at held
    next other found =>
      obtain ⟨front, back, split, _⟩ := List.lookup_eq_some_iff.1 found
      exact ⟨other, split ▸ List.mem_append_right front List.mem_cons_self⟩
    next =>
      split at held
      next => cases Option.some.inj held
      next => cases held
  · rintro ⟨content, listed⟩
    cases found : List.lookup location snapshot.files with
    | some other => exact ⟨other, rfl⟩
    | none =>
      have apart := List.lookup_eq_none_iff.1 found _ listed
      simp at apart

theorem isFile_iff :
    snapshot.isFile path ↔ ∃ place, snapshot.locate path = .ok place ∧ place ∈ snapshot.places := by
  simp only [← entry?_file_iff]
  rw [isFile, at?]
  cases located : snapshot.locate path with
  | error problem => simp
  | ok place =>
    cases held : snapshot.entry? place with
    | none => simp [held]
    | some entry => cases entry <;> simp [held]

theorem mem_below {names : Location} {content : ByteArray} :
    (names, content) ∈ snapshot.below location ↔ names ≠ [] ∧
    (location ++ names, content) ∈ snapshot.files := by
  rw [below, List.mem_filterMap]
  constructor
  · rintro ⟨⟨place, held⟩, listed, below⟩
    dsimp only at below
    split at below
    next inside =>
      rw [Bool.and_eq_true, List.isPrefixOf_iff_prefix, decide_eq_true_iff] at inside
      obtain ⟨⟨rest, rfl⟩, longer⟩ := inside
      rw [List.drop_left] at below
      cases below
      exact ⟨fun none => longer (by rw [none, List.append_nil]), listed⟩
    next => cases below
  · rintro ⟨filled, listed⟩
    have longer : (location ++ names).length ≠ location.length := by
      have := List.length_pos_iff.2 filled
      rw [List.length_append]
      omega
    have inside : (location.isPrefixOf (location ++ names) &&
        decide ((location ++ names).length ≠ location.length)) = true := by
      rw [Bool.and_eq_true, List.isPrefixOf_iff_prefix]
      exact ⟨List.prefix_append location names, decide_eq_true longer⟩
    refine ⟨_, listed, ?_⟩
    dsimp only
    rw [if_pos inside, List.drop_left]

variable {names : Location}

theorem Sound.isName (sound : snapshot.Sound) (listed : location ++ names ∈ snapshot.places) :
    ∀ name ∈ names, IsName name := by
  obtain ⟨content, listed⟩ := mem_places.1 listed
  exact fun name member => sound.names _ listed name (List.mem_append_right location member)

/-- What a file lies below is no file. -/
theorem Sound.not_mem_places (sound : snapshot.Sound) (listed : location ++ names ∈ snapshot.places)
    (filled : names ≠ []) :
    location ∉ snapshot.places := by
  intro file
  obtain ⟨content, listed⟩ := mem_places.1 listed
  obtain ⟨other, file⟩ := mem_places.1 file
  exact filled (List.self_eq_append_right.1
    (sound.leaves _ file _ listed (List.prefix_append location names)))

/-- What a file lies below is a directory. -/
theorem Sound.directory (sound : snapshot.Sound) (listed : location ++ names ∈ snapshot.places)
    (filled : names ≠ []) :
    snapshot.entry? location = some .directory := by
  have free : List.lookup location snapshot.files = none := by
    rw [List.lookup_eq_none_iff]
    intro file member
    by_contra same
    rw [Bool.not_eq_true, bne_eq_false_iff_eq] at same
    exact sound.not_mem_places listed filled (same ▸ List.mem_map_of_mem member)
  have holds : (snapshot.below location).isEmpty = false := by
    obtain ⟨content, listed⟩ := mem_places.1 listed
    rw [List.isEmpty_eq_false_iff]
    exact List.ne_nil_of_mem (mem_below.2 ⟨filled, listed⟩)
  rw [ entry?, free]
  simp [holds]

/-- The path that is written for a file below a path leads to the file. -/
theorem Sound.locate_names (sound : snapshot.Sound) (located : snapshot.locate path = .ok location)
    (listed : location ++ names ∈ snapshot.places) :
    snapshot.locate (names.foldl child path) = .ok (location ++ names) := by
  induction names generalizing path location with
  | nil => rwa [List.append_nil]
  | cons name rest ih =>
    have proper := sound.isName listed name List.mem_cons_self
    have along := locate_child located (sound.directory listed (List.cons_ne_nil name rest)) proper
    rw [List.append_cons] at listed ⊢
    exact ih along listed

/-! ### What arguments ask for -/

/-- Whether a file that lies so below an argument is one that the argument asks for: the file that the
argument itself leads to, or one with the extension of Lua files. -/
def Wanted (names : Location) : Prop := names = [] ∨ hasExtension (names.getLastD "") "lua"

/-- Whether an argument asks for the file at a location. -/
def AsksFor (snapshot : Snapshot) (argument : String) (place : Location) : Prop :=
  place ∈ snapshot.places ∧ ∃ location names, snapshot.locate argument = .ok location ∧
    place = location ++ names ∧ Wanted names

/-- The parts of the path under which an argument lists the file at a location. -/
def spelling (snapshot : Snapshot) (argument : String) (place : Location) : List PathPart :=
  match snapshot.locate argument with
  | .ok location => parts argument ++ (place.drop location.length).map .name
  | .error _ => []

/-- The paths that an argument lists. -/
def listed (snapshot : Snapshot) (argument : String) : List String :=
  if snapshot.isFile argument then [argument]
  else (snapshot.walk argument).filter fun found => hasExtension ((segments found).getLastD "") "lua"

private theorem luaFiles_eq (arguments : List String) :
    snapshot.luaFiles arguments = arrange (arguments.flatMap snapshot.listed) :=
  rfl

private theorem getLastD_segments_foldl_child (filled : path ≠ "") (proper : ∀ name ∈ names, IsName name)
    (deeper : names ≠ []) :
    (segments (names.foldl child path)).getLastD "" = names.getLastD "" := by
  induction names generalizing path with
  | nil => exact absurd rfl deeper
  | cons name rest ih =>
    obtain ⟨first, rest_proper⟩ := List.forall_mem_cons.1 proper
    rw [List.foldl_cons]
    cases rest with
    | nil => exact getLastD_segments_child filled first.unbroken
    | cons second more => exact ih (child_ne_empty filled first) rest_proper (List.cons_ne_nil _ _)

theorem Sound.mem_listed (sound : snapshot.Sound) {argument found : String} :
    found ∈ snapshot.listed argument ↔ ∃ location names, snapshot.locate argument = .ok location ∧
      location ++ names ∈ snapshot.places ∧ Wanted names ∧ found = names.foldl child argument := by
  rw [listed]
  split
  next file =>
    obtain ⟨place, located, held⟩ := isFile_iff.1 file
    rw [List.mem_singleton]
    constructor
    · rintro rfl
      exact ⟨place, [], located, (List.append_nil place).symm ▸ held, .inl rfl, rfl⟩
    · rintro ⟨location, names, led, below, _, rfl⟩
      cases led.symm.trans located
      by_contra apart
      have filled : names ≠ [] := by
        rintro rfl
        exact apart rfl
      exact sound.not_mem_places below filled held
  next other =>
    rw [List.mem_filter, walk]
    constructor
    · rintro ⟨walked, extension⟩
      split at walked
      next => cases walked
      next location located =>
        obtain ⟨⟨names, content⟩, below, rfl⟩ := List.mem_map.1 walked
        obtain ⟨filled, held⟩ := mem_below.1 below
        have held := mem_places.2 ⟨content, held⟩
        rw [getLastD_segments_foldl_child (filled_of_locate located) (sound.isName held) filled] at extension
        exact ⟨location, names, located, held, .inr extension, rfl⟩
    · rintro ⟨location, names, located, held, wanted, rfl⟩
      have filled : names ≠ [] := by
        rintro rfl
        exact other (isFile_iff.2 ⟨location, located, List.append_nil location ▸ held⟩)
      rw [located, getLastD_segments_foldl_child (filled_of_locate located) (sound.isName held) filled]
      obtain ⟨content, file⟩ := mem_places.1 held
      exact ⟨List.mem_map.2 ⟨(names, content), mem_below.2 ⟨filled, file⟩, rfl⟩, wanted.resolve_left filled⟩

private theorem spelling_of_locate {argument : String} (located : snapshot.locate argument = .ok location) :
    snapshot.spelling argument (location ++ names) = parts argument ++ names.map .name := by
  rw [spelling, located]
  dsimp only
  rw [List.drop_left]

/-- Each path that an argument lists leads to a file that the argument asks for. -/
theorem Sound.of_mem_listed (sound : snapshot.Sound) {argument found : String}
    (member : found ∈ snapshot.listed argument) :
    ∃ place, snapshot.AsksFor argument place ∧ snapshot.locate found = .ok place ∧
      parts found = snapshot.spelling argument place := by
  obtain ⟨location, names, located, held, wanted, rfl⟩ := sound.mem_listed.1 member
  refine ⟨location ++ names, ⟨held, location, names, located, rfl, wanted⟩,
    sound.locate_names located held, ?_⟩
  rw [spelling_of_locate located, parts_foldl_child (filled_of_locate located) (sound.isName held)]

/-- An argument lists each file that it asks for. -/
theorem Sound.exists_listed (sound : snapshot.Sound) {argument : String} {place : Location}
    (asked : snapshot.AsksFor argument place) :
    ∃ found ∈ snapshot.listed argument, snapshot.locate found = .ok place ∧ parts found =
      snapshot.spelling argument place := by
  obtain ⟨held, location, names, located, rfl, wanted⟩ := asked
  refine ⟨names.foldl child argument, sound.mem_listed.2 ⟨location, names, located, held, wanted, rfl⟩,
    sound.locate_names located held, ?_⟩
  rw [spelling_of_locate located, parts_foldl_child (filled_of_locate located) (sound.isName held)]

variable {arguments : List String}

theorem Sound.of_mem_luaFiles (sound : snapshot.Sound) {found : String}
    (member : found ∈ snapshot.luaFiles arguments) :
    ∃ argument ∈ arguments, ∃ place, snapshot.AsksFor argument place ∧ snapshot.locate found = .ok place ∧
      parts found = snapshot.spelling argument place := by
  obtain ⟨argument, given, listed⟩ := List.mem_flatMap.1 (mem_of_mem_arrange member)
  exact ⟨argument, given, sound.of_mem_listed listed⟩

private theorem Sound.exists_luaFiles (sound : snapshot.Sound) {argument : String}
    (given : argument ∈ arguments) {place : Location} (asked : snapshot.AsksFor argument place) :
    ∃ found ∈ snapshot.luaFiles arguments, snapshot.locate found = .ok place ∧
      parts found = snapshot.spelling argument place := by
  obtain ⟨found, listed, located, spelled⟩ := sound.exists_listed asked
  obtain ⟨kept, member, same⟩ := exists_mem_arrange (List.mem_flatMap.2 ⟨argument, given, listed⟩)
  obtain ⟨_, _, _, _, leads, _⟩ := sound.of_mem_luaFiles member
  exact ⟨kept, member, leads.trans (congrArg Except.ok (eq_of_parts_eq leads located same)),
    same.trans spelled⟩

/-- Whether all arguments that ask for a file spell its path with the same parts. -/
def SpeltAlike (snapshot : Snapshot) (arguments : List String) : Prop :=
  ∀ one ∈ arguments, ∀ other ∈ arguments, ∀ place, snapshot.AsksFor one place → snapshot.AsksFor other place →
    snapshot.spelling one place = snapshot.spelling other place

/-- Whether a file that an argument asks for is listed under exactly one path. -/
def ListedOnce (snapshot : Snapshot) (arguments : List String) : Prop :=
  ∀ argument ∈ arguments, ∀ place, snapshot.AsksFor argument place →
    ∃! found, found ∈ snapshot.luaFiles arguments ∧ snapshot.locate found = .ok place

theorem Sound.listedOnce_iff (sound : snapshot.Sound) :
    snapshot.ListedOnce arguments ↔ snapshot.SpeltAlike arguments := by
  constructor
  · intro once one given other also place asked asked'
    obtain ⟨left, leftMember, leftLeads, leftSpelled⟩ := sound.exists_luaFiles given asked
    obtain ⟨right, rightMember, rightLeads, rightSpelled⟩ := sound.exists_luaFiles also asked'
    rw [← leftSpelled, ← rightSpelled,
      (once one given place asked).unique ⟨leftMember, leftLeads⟩ ⟨rightMember, rightLeads⟩]
  · intro alike argument given place asked
    obtain ⟨found, member, leads, spelled⟩ := sound.exists_luaFiles given asked
    refine ⟨found, ⟨member, leads⟩, fun other ⟨listed, leads'⟩ => ?_⟩
    obtain ⟨source, given', place', asked', located, spelled'⟩ := sound.of_mem_luaFiles listed
    cases located.symm.trans leads'
    refine List.inj_on_of_nodup_map (nodup_map_parts_arrange _) listed member ?_
    rw [spelled', spelled, alike source given' argument given place asked' asked]

/-- The list of files is in order and has no path twice. Its paths lead to files that are asked for, and
each such file is listed; it is listed once exactly if the arguments that ask for it spell its path
alike. The list depends neither on the order nor on the repetition of the arguments, up to slashes that
do not count. -/
theorem lists_once_iff (sound : snapshot.Sound) (arguments : List String) :
    (snapshot.luaFiles arguments).Pairwise Before ∧
      (∀ found ∈ snapshot.luaFiles arguments, ∃ place, snapshot.locate found = .ok place ∧
        ∃ argument ∈ arguments, snapshot.AsksFor argument place) ∧
      (∀ argument ∈ arguments, ∀ place, snapshot.AsksFor argument place →
        ∃ found ∈ snapshot.luaFiles arguments, snapshot.locate found = .ok place) ∧
      (snapshot.ListedOnce arguments ↔ snapshot.SpeltAlike arguments) ∧
      ∀ others, (∀ argument, argument ∈ arguments ↔ argument ∈ others) →
        (snapshot.luaFiles arguments).map parts = (snapshot.luaFiles others).map parts := by
  refine ⟨pairwise_arrange _, fun found member => ?_, fun argument given place asked =>
    ?_, sound.listedOnce_iff,
    fun others same => map_parts_arrange fun spelling => ?_⟩
  · obtain ⟨argument, given, place, asked, leads, _⟩ := sound.of_mem_luaFiles member
    exact ⟨place, leads, argument, given, asked⟩
  · obtain ⟨found, member, leads, _⟩ := sound.exists_luaFiles given asked
    exact ⟨found, member, leads⟩
  · simp only [List.mem_map, List.mem_flatMap, same]

/-- Arguments that begin alike, say at the working directory or at the root, and go on with names only
spell each path alike. -/
theorem speltAlike_of_names (start : List PathPart)
    (plain : ∀ argument ∈ arguments, ∃ names : List String, parts argument = start ++ names.map .name) :
    snapshot.SpeltAlike arguments := by
  have spelled {argument : String} (given : argument ∈ arguments) {place : Location}
    (asked : snapshot.AsksFor argument place) :
      snapshot.spelling argument place =
        start ++ (place.drop (start.foldl Location.follow snapshot.working).length).map .name := by
    obtain ⟨_, location, below, located, rfl, _⟩ := asked
    obtain ⟨names, same⟩ := plain argument given
    rw [spelling_of_locate located, same, eq_of_locate located, same, List.foldl_append,
      Location.foldl_follow_names,
      List.append_assoc, List.append_assoc, List.drop_left, List.map_append]
  intro one given other also place asked asked'
  rw [spelled given asked, spelled also asked']

/-- A directory with a Lua file in it and one below, and another file. -/
def nestedFiles : Snapshot :=
  .ofFiles [("media/a.lua", .empty), ("media/client/b.lua", .empty), ("media/notes.txt", .empty)]

/-- Overlapping arguments, one of them given twice and one with a slash too many, list each file once. -/
theorem nested_listed_once :
    nestedFiles.Sound ∧ nestedFiles.ListedOnce ["media/client", "media", "media//a.lua", "media"] := by
  have sound : nestedFiles.Sound := by decide +kernel
  refine ⟨sound, (lists_once_iff sound _).2.2.2.1.2 (speltAlike_of_names [] ?_)⟩
  simp only [List.forall_mem_cons, List.nil_append]
  exact ⟨⟨["media", "client"], by decide +kernel⟩, ⟨["media"], by decide +kernel⟩,
    ⟨["media", "a.lua"], by decide +kernel⟩,
    ⟨["media"], by decide +kernel⟩, nofun⟩

/-- A single Lua file. -/
def lonelyFile : Snapshot := .ofFiles [("a.lua", .empty)]

/-- A file that is named with a point before it and without is listed for both. -/
theorem pointed_listed_twice :
    lonelyFile.Sound ∧ lonelyFile.luaFiles ["./a.lua", "a.lua"] = ["./a.lua", "a.lua"] ∧
    lonelyFile.locate "./a.lua" = .ok ["here", "a.lua"] ∧ lonelyFile.locate "a.lua" = .ok ["here", "a.lua"] ∧
    ¬lonelyFile.ListedOnce ["./a.lua", "a.lua"] := by
  have pointed : lonelyFile.locate "./a.lua" = .ok ["here", "a.lua"] := by decide +kernel
  have bare : lonelyFile.locate "a.lua" = .ok ["here", "a.lua"] := by decide +kernel
  have held : ["here", "a.lua"] ∈ lonelyFile.places := by decide +kernel
  have list : lonelyFile.luaFiles ["./a.lua", "a.lua"] = ["./a.lua", "a.lua"] := by
    rw [luaFiles_eq, arrange_of_ordered] <;> decide +kernel
  refine ⟨by decide +kernel, list, pointed, bare, fun once => ?_⟩
  have members : ∀ path ∈ ["./a.lua", "a.lua"], path ∈ lonelyFile.luaFiles ["./a.lua", "a.lua"] := by
    intro path member
    rwa [list]
  have only := once "a.lua" (by decide) _ ⟨held, _, [], bare, rfl, .inl rfl⟩
  have same := only.unique ⟨members "./a.lua" (by decide), pointed⟩ ⟨members "a.lua" (by decide), bare⟩
  exact absurd same (by decide)

end Snapshot
end LuaClasses.CommandLine
