import LuaClasses.Proofs.AlikeEnds
import LuaClasses.Report

/-! Reports read off a chart. What a report says of a class stands at the path of the class and at the
paths that it tells of, so trees with one chart are reported on alike, whatever the numbers of their
scopes. -/

namespace LuaClasses
open ScopeTree

private theorem OrderedMap.filterMapValues_mapValues {α β γ : Type} (f : α → β) {g : β → Option γ}
    {h : α → Option γ} {map : OrderedMap α} (same : ∀ value ∈ map.values, h value = g (f value)) :
    map.filterMapValues h = (map.mapValues f).filterMapValues g := by
  refine OrderedMap.ext ?_
  simp only [filterMapValues, mapValues, List.filterMap_map]
  refine List.filterMap_congr fun entry member => ?_
  rw [Function.comp_apply, same entry.2 (List.mem_map_of_mem member)]

/-- A variable as a parameter with the types that it has gathered. -/
def Look.param? (look : Look) : Option Param :=
  match look.shape with
  | .variable name => some ⟨name, look.types.render⟩
  | _ => none

namespace ClassReport

section Chart

variable (chart : String → Option Look)

def chartParams (paths : List String) (vararg : Bool) : List Param :=
  (paths.filterMap fun path => (chart path).bind Look.param?) ++ if vararg then [⟨"...", "..."⟩] else []

def chartTypes (members : OrderedMap String) : OrderedMap String :=
  members.filterMapValues fun path => ((chart path).bind Look.param?).map Param.type

def chartSignatures (members : OrderedMap String) : OrderedMap (List Signature) :=
  members.filterMapValues fun path => (chart path).bind fun look =>
    match look.shape with
    | .function params vararg => some [⟨chartParams chart params vararg, look.types.render⟩]
    | _ => none

/-- The report on the class at a path, if there is one. -/
def ofChart? (path : String) : Option ClassReport :=
  (chart path).bind fun look =>
    match look.shape with
    | .class_ held => some {
        name := held.name
        superclass := held.superclass
        constructor :=
          match (chart held.constructor).map Look.shape with
          | some (.constructor params vararg _) => chartParams chart params vararg
          | _ => []
        fields := chartTypes chart held.fields
        values := chartTypes chart held.values
        methods := chartSignatures chart held.methods
        functions := chartSignatures chart held.functions }
    | _ => none

end Chart

variable {tree : ScopeTree} (sound : tree.Sound)
include sound

private theorem param?_chart {id : ScopeId} (inside : id.index < tree.size) :
    (tree.chart (tree.raw id)).bind Look.param? = (tree.variableAt? id).map fun var =>
    ⟨var.name, var.types.render⟩ := by
  rw [chart_raw sound.shaped inside, variableAt?]
  cases tree.entity? id with
  | none => rfl
  | some entity =>
    obtain ⟨references, kind⟩ := entity
    cases kind <;> rfl

private theorem params_chart {ids : List ScopeId} (inside : ∀ id ∈ ids, id.index < tree.size)
    (vararg : Bool) :
    params tree ids vararg = chartParams tree.chart (ids.map tree.raw) vararg := by
  rw [params, chartParams, List.filterMap_map]
  refine congrArg (· ++ _) (List.filterMap_congr fun id member => ?_)
  exact (param?_chart sound (inside id member)).symm

private theorem valueTypes_chart {members : Members} (inside : ∀ id ∈ members.values, id.index < tree.size) :
    valueTypes tree members = chartTypes tree.chart (members.mapValues tree.raw) := by
  refine OrderedMap.filterMapValues_mapValues tree.raw fun id member => ?_
  rw [param?_chart sound (inside id member), Option.map_map]
  rfl

private theorem signatures_chart {members : Members} (inside : ∀ id ∈ members.values, id.index < tree.size) :
    signatures tree members = chartSignatures tree.chart (members.mapValues tree.raw) := by
  refine OrderedMap.filterMapValues_mapValues tree.raw fun id member => ?_
  rw [chart_raw sound.shaped (inside id member)]
  cases held : tree.entity? id with
  | none => rfl
  | some entity =>
    have moored := sound.moored held
    obtain ⟨references, kind⟩ := entity
    cases kind with
    | function function =>
      have params : params tree function.params function.vararg = chartParams tree.chart
          (function.params.map tree.raw) function.vararg :=
        params_chart sound (fun param listed => moored param (List.mem_append_right _ listed)) _
      rw [Option.bind_some, Option.map_some, Option.bind_some, Entity.asFunction?, Option.map_some, params]
      rfl
    | _ => rfl

private theorem constructor_chart {id : ScopeId} (inside : id.index < tree.size) :
    (match (tree.entity? id).bind Entity.asConstructor? with
      | some constructor => params tree constructor.params constructor.vararg
      | none => []) =
    match (tree.chart (tree.raw id)).map Look.shape with
      | some (.constructor params vararg _) => chartParams tree.chart params vararg
      | _ => [] := by
  rw [chart_raw sound.shaped inside]
  cases held : tree.entity? id with
  | none => rfl
  | some entity =>
    have moored := sound.moored held
    obtain ⟨references, kind⟩ := entity
    cases kind with
    | constructor constructor =>
      exact params_chart sound (fun param listed => moored param (List.mem_append_right _ listed)) _
    | _ => rfl

/-- A chart tells the reports of a tree. -/
theorem ofScope?_chart {id : ScopeId} (inside : id.index < tree.size) :
    ofScope? tree id = ofChart? tree.chart (tree.raw id) := by
  rw [ofScope?, ofChart?, chart_raw sound.shaped inside, classAt?]
  cases held : tree.entity? id with
  | none => rfl
  | some entity =>
    have moored := sound.moored held
    obtain ⟨references, kind⟩ := entity
    cases kind with
    | class_ owner =>
      have stored : ∀ scope ∈ (EntityKind.class_ owner).scopes, scope.index < tree.size :=
        fun scope listed => moored scope (List.mem_append_right _ listed)
      simp only [EntityKind.scopes, List.mem_cons, List.mem_append] at stored
      simp only [Option.bind_some, Option.map_some, Entity.asClass?, Entity.look,
        EntityKind.shape, Class.look]
      rw [Option.some_inj, ClassReport.mk.injEq]
      exact ⟨rfl, rfl, constructor_chart sound (stored _ (by simp)), valueTypes_chart sound
        fun id member => stored id (by simp [member]),
        valueTypes_chart sound fun id member => stored id (by simp [member]),
        signatures_chart sound fun id member => stored id (by simp [member]),
        signatures_chart sound fun id member => stored id (by simp [member])⟩
    | _ => rfl

end ClassReport

/-- Trees that have come to be what they are alike toward have one chart. -/
theorem Alike.chart_eq {top : String} {first second : ScopeTree}
    (alike : Alike (.toward top first second) first second) :
    first.chart = second.chart := by
  funext path
  have looks := alike.looks path trivial
  have left : first.typesAt path = ((first.chart path).map Look.types).getD .empty := rfl
  have right : second.typesAt path = ((second.chart path).map Look.types).getD .empty := rfl
  simp only [Likeness.toward, left, right] at looks
  generalize first.chart path = look, second.chart path = like at looks ⊢
  cases looks with
  | none => rfl
  | @some look like bounded =>
    have types : look.types = like.types := TypeSet.ext fun type => ⟨bounded.left type, bounded.right type⟩
    exact congrArg some (Look.mk.injEq .. ▸ ⟨bounded.references, types, bounded.shape⟩)

end LuaClasses
