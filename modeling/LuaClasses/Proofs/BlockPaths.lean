import LuaClasses.Proofs.ShapeSweep
import Mathlib.Data.List.Infix

/-! The paths of the blocks of a body. A block is named after its kind and the number of blocks of that
kind before it, and stands in the scope in which it is written. So no two blocks of a body have the same
path. -/

namespace LuaClasses

theorem eq_of_append_mark {α : Type} {mark : α} {first second one two : List α} (left : mark ∉ one)
    (right : mark ∉ two) (same : first ++ mark :: one = second ++ mark :: two) :
    first = second ∧ one = two := by
  rcases List.append_eq_append_iff.1 same with ⟨more, rfl, rest⟩ | ⟨more, rfl, rest⟩
  all_goals
    cases more with
    | nil => exact ⟨by simp, by simp_all⟩
    | cons head more =>
      obtain ⟨rfl, rfl⟩ := List.cons.inj rest
      simp at left right

namespace DottedName

/-- Whether a path is another one or goes on from it after a dot. -/
def Within (outer inner : String) : Prop := outer.toList ++ ['.'] <+: inner.toList ++ ['.']

variable {parent outer middle inner one two name : String}

theorem Within.refl (path : String) : Within path path := List.prefix_rfl

theorem Within.trans (first : Within outer middle) (second : Within middle inner) : Within outer inner :=
  List.IsPrefix.trans first second

theorem within_child (parent name : String) : Within parent (child parent name) := by
  rw [Within, toList_child]
  exact ⟨name.toList ++ ['.'], by simp⟩

theorem not_within_parent (parent name : String) : ¬Within (child parent name) parent := by
  intro within
  have shorter := List.IsPrefix.length_le within
  rw [toList_child] at shorter
  simp only [List.length_append, List.length_cons, List.length_nil] at shorter
  omega

/-- What lies within two children of a scope lies within the same. -/
theorem Within.name_unique (left : '.' ∉ one.toList) (right : '.' ∉ two.toList)
    (first : Within (child parent one) inner) (second : Within (child parent two) inner) :
    one = two := by
  -- A name with a dot behind it begins another such name only if that is the same.
  have begins : ∀ {first second : List Char}, '.' ∉ second → first ++ ['.'] <+: second ++
      ['.'] → first = second := by
    rintro first second plain ⟨rest, same⟩
    cases rest using List.reverseRecOn with
    | nil => simpa using same
    | append_singleton rest last =>
      rw [← List.append_assoc] at same
      have inner := (List.append_inj' same rfl).1
      rw [← inner] at plain
      simp at plain
  apply String.toList_injective
  have cut : ∀ name : String, (child parent name).toList ++ ['.'] = (parent.toList ++ ['.']) ++
      (name.toList ++ ['.']) := by
    intro name
    rw [toList_child]
    simp
  rw [Within, cut] at first second
  rcases List.prefix_or_prefix_of_prefix first second with one | two
  · exact begins right ((List.prefix_append_right_inj _).1 one)
  · exact (begins left ((List.prefix_append_right_inj _).1 two)).symm

/-- Paths that all are different and lie within children of a scope, whose names are some of many. -/
structure Nests (path : String) (names : String → Prop) (paths : List String) : Prop where
  distinct : paths.Nodup
  below : ∀ inner ∈ paths, ∃ name, names name ∧ '.' ∉ name.toList ∧ Within (child path name) inner

namespace Nests

variable {path : String} {names others : String → Prop} {first second : List String}

theorem nil : Nests path names [] := ⟨List.nodup_nil, nofun⟩

theorem mono (nests : Nests path names first) (weaker : ∀ name, names name → others name) :
    Nests path others first :=
  ⟨nests.distinct, fun inner member => (nests.below inner member).imp fun name held =>
    ⟨weaker name held.1, held.2⟩⟩

theorem append (one : Nests path names first) (two : Nests path names second)
    (apart : ∀ left ∈ first, ∀ right ∈ second, left ≠ right) : Nests path names (first ++ second) where
  distinct := List.nodup_append.2 ⟨one.distinct, two.distinct, apart⟩
  below := fun inner member => (List.mem_append.1 member).elim (one.below inner) (two.below inner)

/-- Paths within different children are different. -/
theorem ne (one : Nests path names first) (two : Nests path others second)
    (apart : ∀ name, names name → ¬others name) :
    ∀ left ∈ first, ∀ right ∈ second, left ≠ right := by
  rintro inner left _ right rfl
  obtain ⟨name, named, plain, within⟩ := one.below inner left
  obtain ⟨other, called, dotless, there⟩ := two.below inner right
  obtain rfl := Within.name_unique plain dotless within there
  exact apart name named called

/-- A child of a scope comes before all that lies within it. -/
theorem child (nests : Nests (child path name) names first) (plain : '.' ∉ name.toList) :
    Nests path (· = name) (DottedName.child path name :: first) := by
  have inside : ∀ inner ∈ first, Within (DottedName.child path name) inner ∧
      inner ≠ DottedName.child path name := by
    intro inner member
    obtain ⟨other, _, _, within⟩ := nests.below inner member
    refine ⟨(within_child _ other).trans within, ?_⟩
    rintro rfl
    exact not_within_parent _ other within
  refine ⟨List.nodup_cons.2 ⟨fun member => (inside _ member).2 rfl, nests.distinct⟩,
    fun inner member => ⟨name, rfl, plain, ?_⟩⟩
  rcases List.mem_cons.1 member with rfl | later
  · exact .refl _
  · exact (inside inner later).1

end Nests
end DottedName

namespace Discovery
open DottedName

/-! ### The names of blocks -/

private theorem toList_blockName (kind : BlockKind) (index : Nat) :
    (blockName kind index).toList = kind.stem.toList ++ '_' :: Nat.toDigits 10 index := by
  simp [blockName, Nat.repr]

/-- Blocks of one name are of one kind and at one place. -/
theorem blockName_inj {kind other : BlockKind} {index place : Nat}
    (same : blockName kind index = blockName other place) :
    kind = other ∧ index = place := by
  have chars := congrArg String.toList same
  rw [toList_blockName, toList_blockName] at chars
  obtain ⟨stems, digits⟩ := eq_of_append_mark Nat.underscore_not_in_toDigits
    Nat.underscore_not_in_toDigits chars
  refine ⟨?_, ?_⟩
  · revert stems
    cases kind <;> cases other <;> decide
  · have read := congrArg (Nat.ofDigitChars 10 · 0) digits
    simpa [Nat.ofDigitChars_toDigits] using read

/-- Whether a name is spelled like that of a block. -/
def NamesBlock (name : String) : Prop := ∃ kind index, name = blockName kind index

theorem underscore_of_namesBlock {name : String} (block : NamesBlock name) : '_' ∈ name.toList := by
  obtain ⟨kind, index, rfl⟩ := block
  rw [toList_blockName]
  simp

/-! ### The blocks of a body -/

mutual
/-- The kinds of the blocks that stand in statements, at any depth but not in functions, in the order in
which they begin. -/
def blockKinds : List Stmt → List BlockKind
  | [] => []
  | stmt :: rest => stmtBlockKinds stmt ++ blockKinds rest

def stmtBlockKinds : Stmt → List BlockKind
  | ⟨kind, _⟩ => kindBlockKinds kind

def kindBlockKinds : StmtKind → List BlockKind
  | .if_ clauses => .if_ :: clausesBlockKinds clauses
  | .while_ _ body => .while_ :: blockKinds body
  | .repeat_ body _ => .repeat_ :: blockKinds body
  | .do_ body => .do_ :: blockKinds body
  | .forNumeric _ _ _ _ body => .forNumeric :: blockKinds body
  | .forGeneric _ _ body => .forGeneric :: blockKinds body
  | _ => []

def clausesBlockKinds : List IfClause → List BlockKind
  | [] => []
  | clause :: rest => clauseBlockKinds clause ++ clausesBlockKinds rest

def clauseBlockKinds : IfClause → List BlockKind
  | ⟨_, body⟩ => .ifClause :: blockKinds body
end

/-- A block with the path of its scope. -/
structure BlockPlace where
  path : String
  kind : BlockKind
  deriving DecidableEq

/-- The block that a step enters. -/
def Site.block? : Site → Option BlockPlace
  | ⟨scope, .block kind index, _⟩ => some ⟨DottedName.child scope (blockName kind index), kind⟩
  | _ => none

/-- The blocks that steps enter, in their order. -/
def blocksOf (sites : List Site) : List BlockPlace := sites.filterMap Site.block?

private theorem blocksOf_append (first second : List Site) :
    blocksOf (first ++ second) = blocksOf first ++ blocksOf second :=
  List.filterMap_append

private theorem blocksOf_block (scope : String) (kind : BlockKind) (index : Nat) (range : Range)
    (rest : List Site) :
    blocksOf (⟨scope, .block kind index, range⟩ :: rest) =
      ⟨DottedName.child scope (blockName kind index), kind⟩ :: blocksOf rest := rfl

/-- Steps that enter no block. -/
theorem blocksOf_eq_nil {sites : List Site} (bare : ∀ site ∈ sites, site.block? = none) :
    blocksOf sites = [] :=
  List.filterMap_eq_nil_iff.2 bare

private theorem blocksOf_locals {α : Type} (items : List α) (scope : String) (range : Range)
    (name : α → String) (value : α → Option Expr) :
    blocksOf (items.map fun item => ⟨scope, .local_ (name item) (value item), range⟩) = [] := by
  refine blocksOf_eq_nil fun site member => ?_
  obtain ⟨_, _, rfl⟩ := List.mem_map.1 member
  rfl

private theorem blocksOf_targets {α : Type} (items : List α) (scope : String) (range : Range)
    (target : α → Expr) (value : α → Option Expr) :
    blocksOf (items.map fun item => ⟨scope, .target (target item) (value item), range⟩) = [] := by
  refine blocksOf_eq_nil fun site member => ?_
  obtain ⟨_, _, rfl⟩ := List.mem_map.1 member
  rfl

mutual
/-- The steps of statements enter the blocks that stand in them. -/
theorem kinds_sites (stmts : List Stmt) (scope : String) (earlier : List BlockKind) :
    (blocksOf (sites stmts scope earlier)).map BlockPlace.kind = blockKinds stmts :=
  match stmts with
  | [] => rfl
  | stmt :: rest => by
    rw [sites, blocksOf_append, List.map_append, blockKinds, kinds_stmtSites, kinds_sites]

theorem kinds_stmtSites (stmt : Stmt) (scope : String) (earlier : List BlockKind) :
    (blocksOf (stmtSites stmt scope earlier)).map BlockPlace.kind = stmtBlockKinds stmt :=
  match stmt with
  | ⟨kind, range⟩ => by rw [stmtSites, stmtBlockKinds, kinds_kindSites]

theorem kinds_kindSites (kind : StmtKind) (range : Range) (scope : String) (earlier : List BlockKind) :
    (blocksOf (kindSites kind range scope earlier)).map BlockPlace.kind = kindBlockKinds kind :=
  match kind with
  | .local_ names values => by rw [kindSites, blocksOf_locals]; rfl
  | .assign targets values => by rw [kindSites, blocksOf_targets]; rfl
  | .if_ clauses => by rw [kindSites, blocksOf_block, List.map_cons, kinds_clausesSites, kindBlockKinds]
  | .while_ _ body | .repeat_ body _ | .do_ body => by
    rw [kindSites, blocksOf_block, List.map_cons, kinds_sites, kindBlockKinds]
  | .forNumeric var _ _ _ body => by
    rw [kindSites, blocksOf_block, List.map_cons, kindBlockKinds]
    exact congrArg _ (kinds_sites body _ [])
  | .forGeneric names _ body => by
    rw [kindSites, blocksOf_block, blocksOf_append, blocksOf_locals, List.nil_append, List.map_cons,
      kinds_sites, kindBlockKinds]
  | .return_ _ | .call _ | .function _ _ _ | .break_ | .goto _ | .label _ => rfl

theorem kinds_clausesSites (clauses : List IfClause) (range : Range) (scope : String) (index : Nat) :
    (blocksOf (clausesSites clauses range scope index)).map BlockPlace.kind = clausesBlockKinds clauses :=
  match clauses with
  | [] => rfl
  | clause :: rest => by
    rw [clausesSites, blocksOf_append, List.map_append, clausesBlockKinds,
      kinds_clauseSites, kinds_clausesSites]

theorem kinds_clauseSites (clause : IfClause) (range : Range) (scope : String) (index : Nat) :
    (blocksOf (clauseSites clause range scope index)).map BlockPlace.kind = clauseBlockKinds clause :=
  match clause with
  | ⟨_, body⟩ => by rw [clauseSites, blocksOf_block, List.map_cons, kinds_sites, clauseBlockKinds]
end

private theorem flat_stmtSites (stmt : Stmt) (scope : String) (earlier : List BlockKind)
    (flat : blockKind? stmt.kind = none) :
    blocksOf (stmtSites stmt scope earlier) = [] := by
  rw [← List.map_eq_nil_iff, kinds_stmtSites]
  obtain ⟨kind, range⟩ := stmt
  cases kind <;> first | rfl | cases flat

/-! ### Their paths -/

/-- The names of the blocks that may come after some others. -/
def FurtherBlock (earlier : List BlockKind) (name : String) : Prop :=
  ∃ kind index, earlier.count kind ≤ index ∧ name = blockName kind index

/-- The names of the clauses from one place on. -/
def FurtherClause (first : Nat) (name : String) : Prop :=
  ∃ index, first ≤ index ∧ name = blockName .ifClause index

def blockPaths (sites : List Site) : List String := (blocksOf sites).map BlockPlace.path

private theorem blockPaths_append (first second : List Site) :
    blockPaths (first ++ second) = blockPaths first ++ blockPaths second := by
  rw [blockPaths, blocksOf_append, List.map_append]
  rfl

/-- The blocks within a block come after it. -/
theorem nests_block {scope : String} {kind : BlockKind} {index : Nat} {range : Range} {inner : List Site}
    {names : String → Prop}
    (nests : Nests (DottedName.child scope (blockName kind index)) names (blockPaths inner)) :
    Nests scope (· = blockName kind index) (blockPaths (⟨scope, .block kind index, range⟩ :: inner)) :=
  nests.child (plain_blockName kind index).1

private theorem furtherBlock_next {kind : BlockKind} {earlier : List BlockKind} {name : String}
    (further : FurtherBlock (kind :: earlier) name) :
    FurtherBlock earlier name ∧ name ≠ blockName kind (earlier.count kind) := by
  obtain ⟨other, index, least, rfl⟩ := further
  have known : earlier.count other ≤ (kind :: earlier).count other := List.count_le_count_cons
  refine ⟨⟨other, index, Nat.le_trans known least, rfl⟩, fun same => ?_⟩
  obtain ⟨rfl, rfl⟩ := blockName_inj same
  rw [List.count_cons_self] at least
  omega

mutual
/-- The blocks in statements lie within further children of the scope, each within one of its own. -/
theorem nests_sites (stmts : List Stmt) (scope : String) (earlier : List BlockKind) :
    Nests scope (FurtherBlock earlier) (blockPaths (sites stmts scope earlier)) :=
  match stmts with
  | [] => .nil
  | stmt :: rest => by
    have later := nests_sites rest scope ((blockKind? stmt.kind).toList ++ earlier)
    rw [sites, blockPaths_append]
    cases opens : blockKind? stmt.kind with
    | none =>
      rw [opens] at later
      rw [blockPaths, flat_stmtSites stmt scope earlier opens]
      exact later
    | some kind =>
      rw [opens] at later
      have first := nests_stmtSites stmt scope earlier opens
      refine .append (first.mono fun name named => ⟨kind, _, Nat.le_refl _, named⟩)
        (later.mono fun name further => (furtherBlock_next further).1)
        (first.ne later fun name named further => ?_)
      exact (furtherBlock_next further).2 named

theorem nests_stmtSites (stmt : Stmt) (scope : String) (earlier : List BlockKind) {kind : BlockKind}
    (opens : blockKind? stmt.kind = some kind) :
    Nests scope (· = blockName kind (earlier.count kind)) (blockPaths (stmtSites stmt scope earlier)) :=
  match stmt with
  | ⟨kind, range⟩ => nests_kindSites kind range scope earlier opens

theorem nests_kindSites (kind : StmtKind) (range : Range) (scope : String) (earlier : List BlockKind)
    {block : BlockKind} (opens : blockKind? kind = some block) :
    Nests scope (· = blockName block (earlier.count block))
      (blockPaths (kindSites kind range scope earlier)) :=
  match kind with
  | .if_ clauses => by cases opens; exact nests_block (nests_clausesSites clauses range _ 0)
  | .while_ _ body | .repeat_ body _ | .do_ body => by cases opens; exact nests_block (nests_sites body _ [])
  | .forNumeric var _ _ _ body => by cases opens; exact nests_block (nests_sites body _ [])
  | .forGeneric names _ body => by
    cases opens
    refine nests_block (?_ : Nests _ (FurtherBlock []) _)
    rw [blockPaths_append, blockPaths, blocksOf_locals]
    exact nests_sites body _ []
  | .local_ _ _ | .assign _ _ | .return_ _ | .call _ | .function _ _ _ | .break_ | .goto _ | .label _ =>
    by cases opens

theorem nests_clausesSites (clauses : List IfClause) (range : Range) (scope : String) (index : Nat) :
    Nests scope (FurtherClause index) (blockPaths (clausesSites clauses range scope index)) :=
  match clauses with
  | [] => .nil
  | clause :: rest => by
    have first := nests_clauseSites clause range scope index
    have later := nests_clausesSites rest range scope (index + 1)
    rw [clausesSites, blockPaths_append]
    refine .append (first.mono fun name named => ⟨index, Nat.le_refl _, named⟩)
      (later.mono ?_) (first.ne later ?_)
    · rintro name ⟨place, least, rfl⟩
      exact ⟨place, Nat.le_of_succ_le least, rfl⟩
    · rintro name rfl ⟨place, least, same⟩
      have := (blockName_inj same).2
      omega

theorem nests_clauseSites (clause : IfClause) (range : Range) (scope : String) (index : Nat) :
    Nests scope (· = blockName .ifClause index) (blockPaths (clauseSites clause range scope index)) :=
  match clause with
  | ⟨_, body⟩ => nests_block (nests_sites body _ [])
end

end Discovery
end LuaClasses
