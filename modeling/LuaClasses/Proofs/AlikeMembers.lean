import LuaClasses.Proofs.AlikeEnds
import LuaClasses.Proofs.EntryFormed
import LuaClasses.Proofs.MemberSteps
import LuaClasses.Proofs.ShapeEntry

/-! The entry of members in alike states. Some paths may be out of sight, and at some others what stands
there may differ in what neither evidence nor a reader tells apart. What places functions and values does
the same in both, whatever is to come of the trees. -/

namespace LuaClasses
open DottedName ScopeTree Discovery

/-- Looks that are the same, or differ in a way that is allowed. -/
structure Look.Close (top : String) (rough : Look → Look → Prop) (look like : Look) : Prop where
  left : look.Labelled top
  right : like.Labelled top
  same : look = like ∨ rough look like

/-- Differences that neither evidence nor a reader tells. -/
structure Tame (rough : String → Look → Look → Prop) : Prop where
  tag : ∀ {path look like}, rough path look like → look.shape.tag = like.shape.tag
  gathers : ∀ {path look like}, rough path look like → look.shape.gathers = false
  mapClass : ∀ {path look like g}, ClassLook.Steady g → rough path look like →
    rough path (look.mapClass g) (like.mapClass g)
  take : ∀ {path look like} lead, rough path look like → rough path (look.take lead) (like.take lead)

/-- Trees that are the same at the paths that are seen, but for some differences. -/
def Likeness.close (top : String) (seen known : String → Prop) (rough : String → Look → Look → Prop) :
    Likeness where
  seen := seen
  known name := ¬Within top name ∧ known name
  agrees path := Look.Close top (rough path)
  future _ _ := True

theorem Shape.gathers_of_tag {one two : Shape} (same : one.tag = two.tag) : one.gathers = two.gathers := by
  cases one <;> cases two <;> first | rfl | cases same

private theorem Look.gather_of_not_gathers {look : Look} (bare : look.shape.gathers = false)
    (types : TypeSet) : look.gather types = look := by
  rw [Look.gather, bare]
  rfl

theorem ScopeTree.Agree.symm {visible : String → Prop} {first second : ScopeTree}
    (agree : Agree visible first second) :
    Agree visible second first :=
  ⟨agree.right, agree.left, agree.top.symm, fun path seen => (agree.tags path seen).symm, agree.around⟩

/-- Evidence that tells the same brings the same types, if the scopes that it may lead to offer the same. -/
theorem Discovery.Testify.typesFor {likeness : Likeness} {first second : ScopeTree} {id other : ScopeId}
    {evidence like : Evidence}
    (same : Testify likeness.seen likeness.known first second evidence like)
    (alike : Alike likeness first second)
    (twins : Twins first second id other)
    (offers : ∀ {origin source}, Twins first second origin source → likeness.seen (first.raw origin) →
      referenceTypes first origin = referenceTypes second source) :
    evidence.typesFor first id = like.typesFor second other := by
  have types := same.types
  obtain ⟨_, reference⟩ := evidence
  obtain ⟨_, counterpart⟩ := like
  rw [Evidence.typesFor, Evidence.typesFor, Evidence.referenceOf, Evidence.referenceOf]
  cases same.references with
  | none => exact types
  | unresolved => exact types
  | @resolved one two targets seen =>
    have self := Twins.ids alike.left.shaped targets twins alike.right.shaped
    dsimp only at types ⊢
    simp only [Option.filter_some, Reference.target?, ne_eq, Option.some.injEq]
    by_cases own : one = id
    · simp [own, self.1 own, types]
    · simp [own, mt self.2 own, Reference.target?, types, offers targets seen]

section Close

variable {top : String} {seen known : String → Prop} {rough : String → Look → Look → Prop} (tame : Tame rough)
  (around : ∀ {path name}, seen (child path name) → seen path) {first second : ScopeTree}

theorem Look.Close.tag (tame : Tame rough) {path : String} {look like : Look}
    (close : Look.Close top (rough path) look like) :
    look.shape.tag = like.shape.tag :=
  close.same.elim (fun same => same ▸ rfl) tame.tag

section Offers

variable (alike : Alike (.close top seen known rough) first second) {id other : ScopeId}
include tame around alike

/-- Scopes of the same path that is seen offer the same. -/
theorem Alike.offers_iff (twins : Twins first second id other) (visible : seen (first.raw id))
    {type : LuaType} :
    Offers first id type ↔ Offers second other type := by
  have agree := alike.agree_of_tags around fun close => close.tag tame
  have looks := alike.looks_at twins visible
  -- What has gathered types differs in nothing.
  have gathered : ∀ {entity like : Entity} {types : TypeSet}, Look.Close top (rough (first.raw id))
    (entity.look first.raw) (like.look second.raw) →
      entity.gathered? = some types → entity.gathered = like.gathered := by
    intro entity like types close gathers
    have gathering : (entity.look first.raw).shape.gathers = true := by
      rw [Entity.gathers_shape, gathers]; rfl
    refine close.same.elim (congrArg Look.types) fun differ => ?_
    cases gathering.symm.trans (tame.gathers differ)
  constructor
  · intro offers
    rcases agree.symm.offers twins.symm (twins.path ▸ visible) offers with ⟨entity, held, member⟩ | same
    · rw [held] at looks
      cases reached : second.entity? other with
      | none => rw [reached] at looks; cases looks
      | some like =>
        rw [reached] at looks
        cases looks with
        | some close =>
          obtain ⟨types, gathers, _⟩ := Entity.mem_gathered.1 member
          rw [gathered close gathers] at member
          obtain ⟨types, gathers, listed⟩ := Entity.mem_gathered.1 member
          exact .gathered reached gathers listed
    · exact same
  · intro offers
    rcases agree.offers twins visible offers with ⟨like, reached, member⟩ | same
    · rw [reached] at looks
      cases held : first.entity? id with
      | none => rw [held] at looks; cases looks
      | some entity =>
        rw [held] at looks
        cases looks with
        | some close =>
          obtain ⟨types, gathers, listed⟩ := Entity.mem_gathered.1 member
          have gathering : entity.gathered?.isSome = true := by
            rw [← Entity.gathers_shape first.raw, Shape.gathers_of_tag (close.tag tame),
              Entity.gathers_shape, gathers]
            rfl
          obtain ⟨own, gathering⟩ := Option.isSome_iff_exists.1 gathering
          rw [← gathered close gathering] at member
          obtain ⟨types, gathers, listed⟩ := Entity.mem_gathered.1 member
          exact .gathered held gathers listed
    · exact same

end Offers

include tame around

theorem Likeness.lasting_close : (Likeness.close top seen known rough).Lasting where
  around := around
  tag := fun close => close.tag tame
  fresh := fun _ _ => ⟨nofun, nofun, .inl rfl⟩
  mapClass := fun steady close => ⟨close.left, close.right,
    close.same.imp (congrArg (Look.mapClass _)) (tame.mapClass steady)⟩
  absorb := by
    intro first second one two evidence other entity like alike twins visible same held reached _
    have looks := alike.looks_at twins visible
    rw [held, reached] at looks
    cases looks with
    | some close =>
      have leads := same.leads alike twins
      have types := same.typesFor alike twins fun targets seen => TypeSet.ext fun type => by
        rw [mem_referenceTypes, mem_referenceTypes]
        exact alike.offers_iff tame around targets seen
      have named : ∀ lead, (evidence.referenceOf one).map (Reference.lead first.raw) = some lead →
          ∀ target origin, lead = .unresolved target origin → ¬Within top target := by
        intro lead given target origin unresolved
        obtain ⟨reference, taken, rfl⟩ := Option.map_eq_some_iff.1 given
        cases reference with
        | resolved => cases unresolved
        | unresolved name scope =>
          cases unresolved
          exact (same.known (Option.filter_eq_some_iff.1 taken).1).1
      have labelled : ∀ {look : Look}, look.Labelled top →
          ((look.gather (evidence.typesFor first one)).take
            ((evidence.referenceOf one).map (Reference.lead first.raw))).Labelled top := by
        intro look labelled
        cases given : (evidence.referenceOf one).map (Reference.lead first.raw) with
        | none => exact labelled.gather _
        | some lead => exact (labelled.gather _).take (named lead given)
      rw [Entity.look_absorb, Entity.look_absorb, ← leads, ← types]
      refine ⟨labelled close.left, labelled close.right,
        close.same.imp (fun same => by rw [same]) fun differ => ?_⟩
      have bare := tame.gathers differ
      rw [Look.gather_of_not_gathers bare,
        Look.gather_of_not_gathers ((Shape.gathers_of_tag (tame.tag differ)).symm.trans bare)]
      exact tame.take _ differ

end Close

/-! ### The entry of members -/

/-- Enter a function among the members of a class, told by paths. -/
def ClassLook.enterFunction (indexer : Indexer) (name path : String) (held : ClassLook) : ClassLook :=
  match indexer with
  | .dot => { held with
      functions := (held.functions.erase name).insert name path
      methods := held.methods.erase name
      values := held.values.erase name }
  | .colon => { held with
      functions := held.functions.erase name
      methods := (held.methods.erase name).insert name path
      values := held.values.erase name }

private theorem ClassLook.steady_enterFunction (indexer : Indexer) (name path : String) :
    Steady (enterFunction indexer name path) := by
  rintro ⟨_, _, _, _, _, _, _⟩ ⟨_, _, _, _, _, _, _⟩ same
  cases same
  cases indexer <;> rfl

private theorem Class.look_enterFunction (raw : ScopeId → String) (held : Class) (indexer : Indexer)
    (name : String) (id : ScopeId) :
    (Class.enterFunction held indexer name id).look raw = (held.look raw).enterFunction
    indexer name (raw id) := by
  cases indexer <;>
    simp only [Class.enterFunction, Class.look, ClassLook.enterFunction, OrderedMap.erase_mapValues,
      OrderedMap.insert_mapValues]

theorem Class.scopes_enterFunction (held : Class) (indexer : Indexer) (name : String) (id : ScopeId) :
    ∀ entry ∈ (EntityKind.class_ (Class.enterFunction held indexer name id)).scopes,
      entry = id ∨ entry ∈ (EntityKind.class_ held).scopes := by
  intro entry inside
  have inserted : ∀ {map : Members}, entry ∈ ((map.erase name).insert name id).values →
      entry = id ∨ entry ∈ map.values :=
    fun listed => (OrderedMap.mem_values_insert listed).imp_right OrderedMap.mem_values_erase
  have erased : ∀ {map : Members}, entry ∈ (map.erase name).values → entry ∈ map.values :=
    OrderedMap.mem_values_erase
  cases indexer <;> simp only [Class.enterFunction, EntityKind.scopes, List.mem_cons,
    List.mem_append] at inside ⊢ <;> grind

private theorem Entity.look_function (raw : ScopeId → String) (held : Function) :
    (Entity.new (.function held)).look raw =
    ⟨.empty, held.returns, .function (held.params.map raw) held.vararg⟩ := rfl

namespace Alike

/-- Parameters in alike trees, into which the trees before lead. -/
structure Declares (likeness : Likeness) (first second later last : ScopeTree)
    (ids others : List ScopeId) : Prop where
  alike : Alike likeness later last
  onward : first.Keeps later
  further : second.Keeps last
  left : ∀ id ∈ ids, id.index < later.size
  right : ∀ id ∈ others, id.index < last.size
  paths : ids.map later.raw = others.map last.raw

variable {likeness : Likeness} (lasting : likeness.Lasting) {first second : ScopeTree} {one two : ScopeId}

include lasting in
theorem declareParams (alike : Alike likeness first second) (twins : Twins first second one two)
    {names : List String} (plain : ∀ name ∈ names, '.' ∉ name.toList) :
    Declares likeness first second (Discovery.declareParams one names first).1
      (Discovery.declareParams two names second).1
      (Discovery.declareParams one names first).2 (Discovery.declareParams two names second).2 := by
  induction names generalizing first second with
  | nil => exact ⟨alike, fun _ _ found => found, fun _ _ found => found, nofun, nofun, rfl⟩
  | cons name rest ih =>
    have made := alike.finds_internChild (plain name List.mem_cons_self) twins .value .value
    rw [Discovery.declareParams, Discovery.declareParams]
    dsimp only
    generalize first.internChild one name .value = below, second.internChild two name
      .value = beside at made ⊢
    have placed := made.alike.placeVariable lasting made.twins name none none
    have left := (sameShape_setEntity below.1 below.2 (.new (.variable (.new name none)))).keeps
    have right := (sameShape_setEntity beside.1 beside.2 (.new (.variable (.new name none)))).keeps
    have outer := alike.onward twins (made.onward.trans left) (made.further.trans right)
    have others := ih placed outer fun other member => plain other (List.mem_cons_of_mem _ member)
    have param := placed.onward (made.alike.onward made.twins left right) others.onward others.further
    refine ⟨others.alike, made.onward.trans (left.trans others.onward),
      made.further.trans (right.trans others.further), ?_, ?_, ?_⟩
    · exact List.forall_mem_cons.2 ⟨param.left, others.left⟩
    · exact List.forall_mem_cons.2 ⟨param.right, others.right⟩
    · rw [List.map_cons, List.map_cons, others.paths, param.path]

end Alike

section Close

variable {top : String} {seen known : String → Prop} {rough : String → Look → Look → Prop}

namespace Alike

section Trees

variable {first second : ScopeTree} {one two : ScopeId}
  (alike : Alike (.close top seen known rough) first second)
  (twins : Twins first second one two)
include alike twins

/-- What is placed anew without references is the same in both trees. -/
theorem placeSame {kind other : EntityKind} (left : ∀ scope ∈ kind.scopes, scope.index < first.size)
    (right : ∀ scope ∈ other.scopes, scope.index < second.size)
    (same : (Entity.new kind).look first.raw = (Entity.new other).look second.raw) :
    Alike (.close top seen known rough) (first.setEntity one (.new kind))
      (second.setEntity two (.new other)) := by
  refine alike.setEntity twins left right fun _ => ⟨nofun, ?_, .inl same⟩
  rw [← same]
  exact nofun

variable (tame : Tame rough) (around : ∀ {path name}, seen (child path name) → seen path)
include tame around

theorem placeFunction {body : FunctionBody} (plain : ∀ name ∈ body.params, '.' ∉ name.toList)
    (name : String) (kind : FunctionKind) :
    Alike (.close top seen known rough) (Discovery.placeFunction first one name kind body)
      (Discovery.placeFunction second two name kind body) ∧
      first.Keeps (Discovery.placeFunction first one name kind body) ∧
        second.Keeps (Discovery.placeFunction second two name kind body) := by
  have params := alike.declareParams (Likeness.lasting_close tame around) twins plain
  have there := alike.onward twins params.onward params.further
  refine ⟨params.alike.placeSame there params.left params.right ?_,
    params.onward.trans (sameShape_setEntity _ _ _).keeps,
    params.further.trans (sameShape_setEntity _ _ _).keeps⟩
  rw [Entity.look_function, Entity.look_function, params.paths]

/-- A function is listed among the members of a class. -/
theorem listFunction {id other : ScopeId} (members : Twins first second id other) (indexer : Indexer)
    (name : String) :
    Alike (.close top seen known rough) (first.modifyClass one fun held =>
      Class.enterFunction held indexer name id)
      (second.modifyClass two fun held => Class.enterFunction held indexer name other) := by
  have right : ∀ held : Class, (Class.enterFunction held indexer name other).look second.raw =
      (held.look second.raw).enterFunction indexer name (first.raw id) := fun held => by
    rw [members.path]
    exact Class.look_enterFunction second.raw held indexer name other
  have lasting : (Likeness.close top seen known rough).Lasting := Likeness.lasting_close tame around
  exact alike.modifyClass twins members (fun held => Class.look_enterFunction first.raw
    held indexer name id) right
    (fun held => Class.scopes_enterFunction held indexer name id)
    (fun held => Class.scopes_enterFunction held indexer name other)
    fun _ => lasting.mapClass (ClassLook.steady_enterFunction indexer name (first.raw id))

end Trees
end Alike
end Close

/-! ### Values -/

/-- Around a scope of the top level is the top level only. -/
theorem ScopeTree.WellShaped.levels_top {tree : ScopeTree} (shaped : tree.WellShaped) {id : ScopeId}
    (inside : id.index < tree.size) {name : String} (plain : '.' ∉ name.toList)
    (hangs : tree.raw id = child (tree.raw root) name) :
    tree.levels id = [tree.raw id, tree.raw root] := by
  have first : root.index < tree.size := Nat.lt_of_le_of_lt (Nat.zero_le _) inside
  rcases shaped.parent_cases inside with ⟨rfl, _⟩ | ⟨parent, last, above, older, dotless, raw, _⟩
  · exact absurd hangs (shaped.raw_root_ne_child first name)
  · obtain rfl := shaped.raw_inj (Nat.lt_trans older inside) first
      (child_inj dotless plain (raw.symm.trans hangs)).1
    rcases shaped.parent_cases first with ⟨_, alone⟩ | ⟨_, _, _, below, _⟩
    · rw [levels, ancestors_of_older above older, ancestors_of_top alone, List.map_cons, List.map_singleton]
    · cases below

namespace Alike

variable {likeness : Likeness} (lasting : likeness.Lasting) {first second : ScopeTree} {one two : ScopeId}
  (alike : Alike likeness first second) (twins : Twins first second one two)
include lasting alike twins

theorem placeValue {id other : ScopeId} (members : Twins first second id other)
    (visible : likeness.seen (first.raw id)) (name : String) (range : Range) :
    Alike likeness (Discovery.placeValue one name range first id)
      (Discovery.placeValue two name range second other) ∧
      first.Keeps (Discovery.placeValue one name range first id) ∧
        second.Keeps (Discovery.placeValue two name range second other) := by
  unfold Discovery.placeValue
  rw [alike.hasEntity lasting members visible]
  split
  next => exact ⟨alike, fun _ _ found => found, fun _ _ found => found⟩
  next =>
    have placed := alike.placeVariable lasting members name (some range) (some range)
    have left := (sameShape_setEntity first id (.new (.variable (.new name (some range))))).keeps
    have right := (sameShape_setEntity second other (.new (.variable (.new name (some range))))).keeps
    have inner := alike.onward members left right
    have adds : ∀ id, ∀ held : Class, ∀ entry ∈ (EntityKind.class_ { held with values := held.values.insert name id }).scopes,
        entry = id ∨ entry ∈ (EntityKind.class_ held).scopes := by
      intro id held entry inside
      have values : entry ∈ (held.values.insert name id).values → _ := OrderedMap.mem_values_insert
      simp only [EntityKind.scopes, List.mem_cons, List.mem_append] at inside ⊢
      tauto
    have looks : ∀ (raw : ScopeId → String) id (held : Class),
      ({ held with values := held.values.insert name id } : Class).look raw =
        { held.look raw with values := (held.look raw).values.insert name (raw id) } := fun raw id held => by
      simp only [Class.look, OrderedMap.insert_mapValues]
    let path := (first.setEntity id (.new (.variable (.new name (some range))))).raw id
    refine ⟨placed.modifyClass (alike.onward twins left right) inner
      (h := fun held => { held with values := held.values.insert name path })
        (looks _ id) (fun held => ?_) (adds id) (adds other) fun _ agrees => ?_,
      left.trans (sameShape_modifyEntity _ _ _).keeps, right.trans (sameShape_modifyEntity _ _ _).keeps⟩
    · simp only [path, inner.path]
      exact looks _ other held
    · exact lasting.mapClass (ClassLook.steady_enterValue fun values => values.insert name path) agrees

/-- What is read from a scope of the top level. -/
theorem readersAt {name : String} (plain : '.' ∉ name.toList)
    (hangs : first.raw one = child (first.raw root) name)
    (visible : ∀ path, likeness.known path → likeness.seen (child (first.raw one) path) ∧
      likeness.seen (child (first.raw root) path))
    :
    Readers likeness.seen likeness.known [] first second (.at_ one) (.at_ two) where
  agree := alike.agree lasting
  scope := twins
  selfAlias := rfl
  instances := fun given => absurd rfl given
  seen := by
    intro path named level around
    obtain ⟨own, outer⟩ := visible path named
    rw [Frame.at_, alike.left.shaped.levels_top twins.left plain hangs] at around
    rcases List.mem_cons.1 around with rfl | beyond
    · exact own
    · rw [List.mem_singleton.1 beyond]
      exact outer

theorem applyValue {id other : ScopeId} (members : Twins first second id other)
    (shown : likeness.seen (first.raw id)) {name : String} (plain : '.' ∉ name.toList)
    (hangs : first.raw one = child (first.raw root) name)
    (visible : ∀ path, likeness.known path → likeness.seen (child (first.raw one) path) ∧
      likeness.seen (child (first.raw root) path))
    (config : DiscoveryConfig) {value : Option Expr}
    (told : ∀ expr ∈ value, ∀ target ∈ expr.targets config [], likeness.known target)
    (future : ∀ later last, likeness.future later last) :
    Alike likeness (Discovery.applyValue config one value first id)
      (Discovery.applyValue config two value second other) := by
  unfold Discovery.applyValue
  have sameKind := alike.variableAt? lasting members shown
  by_cases isVariable : (second.variableAt? other).isSome = true
  · rw [if_pos isVariable, if_pos (sameKind.trans isVariable)]
    cases value with
    | none => exact alike
    | some value =>
      have readers := alike.readersAt lasting twins plain hangs visible
      exact alike.applyEvidence lasting members shown (readers.classify config (told value rfl)) (future _ _)
  · rw [if_neg isVariable, if_neg (sameKind ▸ isVariable)]
    exact alike

/-- A value of a class is given in both trees. -/
theorem defineValue {ownerName name : String} (dotless : '.' ∉ ownerName.toList)
    (plain : '.' ∉ name.toList) (hangs : first.raw one = child (first.raw root) ownerName)
    (shown : likeness.seen (child (first.raw one) name))
    (visible : ∀ path, likeness.known path → likeness.seen (child (first.raw one) path) ∧
      likeness.seen (child (first.raw root) path))
    (config : DiscoveryConfig) {value : Option Expr}
    (told : ∀ expr ∈ value, ∀ target ∈ expr.targets config [], likeness.known target)
    (future : ∀ later last, likeness.future later last) (range : Range) :
    Alike likeness (Discovery.defineValue config one name value range first)
      (Discovery.defineValue config two name value range second) := by
  have made := alike.finds_internChild plain twins .value .value
  rw [defineValue_eq, defineValue_eq]
  dsimp only
  generalize first.internChild one name .value = below, second.internChild two name .value = beside at made ⊢
  obtain ⟨placed, onward, further⟩ := made.alike.placeValue lasting
    (alike.onward twins made.onward made.further) made.twins
    (made.path ▸ shown) name range
  have here := made.onward.trans onward
  have inside : root.index < first.size := Nat.lt_of_le_of_lt (Nat.zero_le _) twins.left
  have outer := here.raw_shaped alike.left.shaped twins.left
  have top := here.raw_shaped alike.left.shaped inside
  have member := made.alike.onward made.twins onward further
  have path : (Discovery.placeValue one name range below.1 below.2).raw below.2 =
      child (first.raw one) name :=
    (onward.raw_shaped made.alike.left.shaped made.twins.left).trans made.path
  refine placed.applyValue lasting (alike.onward twins here (made.further.trans further)) member
    (path ▸ shown) dotless ?_ ?_ config told future
  · rw [outer, top]
    exact hangs
  · rw [outer, top]
    exact visible

end Alike

/-! ### States -/

namespace Discovery.AlikeStates

variable {gone : List Diagnostic} {likeness : Likeness} {first second : State} {id other : ScopeId}

theorem vacate (lasting : likeness.Lasting) (alike : AlikeStates gone likeness first second)
    (twins : Twins first.tree second.tree id other) (visible : likeness.seen (first.tree.raw id))
    (message : String) (range : Range) :
    AlikeStates gone likeness (first.vacate id message range) (second.vacate other message range) := by
  unfold State.vacate
  rw [alike.trees.hasEntity lasting twins visible]
  split
  next => exact (alike.warn _ _ _).withTree (alike.trees.clearDescendants twins)
  next => exact alike

variable {top : String} {seen known : String → Prop} {rough : String → Look → Look → Prop} (tame : Tame rough)
  (around : ∀ {path name}, seen (child path name) → seen path)
include tame around

/-- A function of a class is defined in both states. -/
theorem defineFunction (alike : AlikeStates gone (.close top seen known rough) first second)
    (twins : Twins first.tree second.tree id other) {name : String} (plain : '.' ∉ name.toList)
    (shown : seen (child (first.tree.raw id) name)) (indexer : Indexer) {body : FunctionBody}
    (params : ∀ name ∈ body.params, '.' ∉ name.toList) (range : Range) :
    AlikeStates gone (.close top seen known rough) (Discovery.defineFunction id name indexer body range first)
      (Discovery.defineFunction other name indexer body range second) := by
  have lasting : (Likeness.close top seen known rough).Lasting := Likeness.lasting_close tame around
  have made := alike.trees.finds_internChild plain twins .function .function
  rw [defineFunction_eq, defineFunction_eq]
  dsimp only
  generalize first.tree.internChild id name .function = below, second.tree.internChild other name
    .function = beside at made ⊢
  have outer := alike.trees.onward twins made.onward made.further
  have message : redefined beside.1 other indexer name = redefined below.1 id indexer name := by
    have visible : seen (below.1.raw id) := by
      rw [made.onward.raw_shaped alike.trees.left.shaped twins.left]
      exact around shown
    have tags := (made.alike.agree lasting).tag? outer visible
    have names : (below.1.classAt? id).map Class.name = (beside.1.classAt? other).map Class.name := by
      rw [classAt?, classAt?]
      cases held : below.1.entity? id with
      | none =>
        rw [held, Option.map_none, eq_comm, Option.map_eq_none_iff] at tags
        rw [tags]
      | some entity =>
        rw [held, Option.map_some, eq_comm, Option.map_eq_some_iff] at tags
        obtain ⟨like, reached, same⟩ := tags
        rw [reached]
        exact (Entity.kinds_of_tag same.symm).2.2.2
    rw [redefined, redefined, names]
  rw [message]
  have states : AlikeStates gone (.close top seen known rough) (first.withTree below.1)
    (second.withTree beside.1) := alike.withTree made.alike
  have vacated := states.vacate lasting made.twins (made.path ▸ shown)
    (redefined below.1 id indexer name) range
  have left := (sameShape_vacate (first.withTree below.1) below.2
    (redefined below.1 id indexer name) range).keeps
  have right := (sameShape_vacate (second.withTree beside.1) beside.2
    (redefined below.1 id indexer name) range).keeps
  generalize (first.withTree below.1).vacate below.2 (redefined below.1 id indexer name) range = former,
    (second.withTree beside.1).vacate beside.2 (redefined below.1 id indexer name) range =
    latter at vacated left right ⊢
  have member := made.alike.onward made.twins left right
  obtain ⟨placed, onward, further⟩ := vacated.trees.placeFunction member tame around params name
    (FunctionKind.ofIndexer indexer)
  refine ⟨?_, vacated.problems⟩
  exact placed.listFunction (made.alike.onward outer (left.trans onward) (right.trans further)) tame around
    (vacated.trees.onward member onward further) indexer name

end Discovery.AlikeStates

end LuaClasses
