import ObjectQuery.Proofs.Model.Implementors
import ObjectQuery.Proofs.Resolution.Agreement
import ObjectQuery.Proofs.Resolved.Recorded
/-!
# Where the paths of a statement start

Whatever is visible at some place of a well-scoped statement is a source of the statement. So every path
of the statement starts from one of its sources and follows the attributes of that source, no matter in
which expression, condition or sub-query the path stands.

If no two sources have the same name, a path that starts with the name of the root starts from the root.
It begins with an attribute that all entities have that the root stands for.
-/
namespace ObjectQuery.Resolved

variable {catalog : Catalog} {visible sources : List FromNode}

/-- If the expression is a path, it starts from one of the sources. -/
def Expr.StartsAmong (catalog : Catalog) (sources : List FromNode) : Expr → Prop
  | .path reference => ∃ node ∈ sources, reference.StartsFrom catalog node
  | _ => True

/-- An expression that starts among sources starts among more of them. -/
theorem Expr.StartsAmong.mono {expr : Expr} (starts : expr.StartsAmong catalog visible)
    (fewer : visible ⊆ sources) : expr.StartsAmong catalog sources := by
  cases expr with
  | path reference =>
    obtain ⟨node, seen, begins⟩ := starts
    exact ⟨node, fewer seen, begins⟩
  | _ => trivial

mutual

/-- The paths of an expression in scope start among the visible sources. -/
theorem Expr.startsAmong : ∀ expr : Expr, expr.IsScoped catalog visible →
    ∀ node ∈ expr.nodes, node.StartsAmong catalog visible
  | .path ⟨source, sourceType, init, ⟨label, declared, index, after⟩, type⟩, within => by
    obtain ⟨starts, inner, last⟩ := within
    simp only [Expr.nodes, List.forall_mem_cons, List.forall_mem_append]
    exact ⟨starts, segmentsStartAmong init inner, indexStartsAmong index last⟩
  | .element label type, _ => by simp [Expr.nodes, Expr.StartsAmong]
  | .literal value, _ => by simp [Expr.nodes, Expr.StartsAmong]
  | .parameter bound, _ => by simp [Expr.nodes, Expr.StartsAmong]
  | .arithmetic op left right type, within => by
    simp only [Expr.nodes, List.forall_mem_cons, List.forall_mem_append]
    exact ⟨trivial, left.startsAmong within.1, right.startsAmong within.2⟩
  | .negate operand, within => by
    simp only [Expr.nodes, List.forall_mem_cons]
    exact ⟨trivial, operand.startsAmong within⟩
  | .call function distinct argument type, within => by
    simp only [Expr.nodes, List.forall_mem_cons]
    exact ⟨trivial, indexStartsAmong argument within⟩

/-- The paths of an index in scope start among the visible sources. -/
theorem indexStartsAmong : ∀ index : Option Expr, IndexScoped catalog visible index →
    ∀ node ∈ indexNodes index, node.StartsAmong catalog visible
  | none, _ => by simp [indexNodes]
  | some index, within => index.startsAmong within

/-- The paths inside a path in scope start among the visible sources. -/
theorem segmentsStartAmong : ∀ segments : List (Segment Expr),
    SegmentsScoped catalog visible segments →
      ∀ node ∈ segmentNodes segments, node.StartsAmong catalog visible
  | [], _ => by simp [segmentNodes]
  | ⟨_, _, index, _⟩ :: rest, within => by
    simp only [segmentNodes, List.forall_mem_append]
    exact ⟨indexStartsAmong index within.1, segmentsStartAmong rest within.2⟩

end

/-- The paths of an expression start among whatever holds the visible sources. -/
theorem Expr.startsAmong_of_subset {expr : Expr} (within : expr.IsScoped catalog visible)
    (fewer : visible ⊆ sources) : ∀ node ∈ expr.nodes, node.StartsAmong catalog sources :=
  fun node listed => (expr.startsAmong within node listed).mono fewer

mutual

/-- The paths of a predicate start among its sources and those around it. -/
theorem Predicate.startsAmong {visible : List FromNode} (fewer : visible ⊆ sources) :
    ∀ predicate : Predicate, predicate.IsScoped catalog visible → predicate.sources ⊆ sources →
      ∀ node ∈ predicate.nodes, node.StartsAmong catalog sources
  | .and left right, within, among | .or left right, within, among => by
    simp only [Predicate.sources, List.append_subset] at among
    simp only [Predicate.nodes, List.forall_mem_append]
    exact ⟨left.startsAmong fewer within.1 among.1, right.startsAmong fewer within.2 among.2⟩
  | .not operand, within, among => operand.startsAmong fewer within among
  | .compare _ left right, within, _ => by
    simp only [Predicate.nodes, List.forall_mem_append]
    exact ⟨Expr.startsAmong_of_subset within.1 fewer, Expr.startsAmong_of_subset within.2 fewer⟩
  | .inList test values _, within, _ => by
    simp only [Predicate.nodes, List.forall_mem_append, List.forall_mem_flatMap]
    exact ⟨Expr.startsAmong_of_subset within.1 fewer, fun value listed =>
      Expr.startsAmong_of_subset (within.2 value listed) fewer⟩
  | .inQuery test query _, within, among => by
    simp only [Predicate.nodes, List.forall_mem_append]
    exact ⟨Expr.startsAmong_of_subset within.1 fewer, queryStartsAmong fewer query within.2 among⟩
  | .memberOf element collection _, within, _ => by
    simp only [Predicate.nodes, List.forall_mem_append]
    exact ⟨Expr.startsAmong_of_subset within.1 fewer, Expr.startsAmong_of_subset within.2 fewer⟩
  | .isNull operand _, within, _ => Expr.startsAmong_of_subset within fewer
  | .like operand pattern _, within, _ => by
    simp only [Predicate.nodes, List.forall_mem_append]
    exact ⟨Expr.startsAmong_of_subset within.1 fewer, Expr.startsAmong_of_subset within.2 fewer⟩
  | .between operand low high _, within, _ => by
    simp only [Predicate.nodes, List.forall_mem_append]
    exact ⟨⟨Expr.startsAmong_of_subset within.1 fewer, Expr.startsAmong_of_subset within.2.1 fewer⟩,
      Expr.startsAmong_of_subset within.2.2 fewer⟩

/-- The paths of a query start among its sources and those around it. -/
theorem queryStartsAmong {outside : List FromNode} (fewer : outside ⊆ sources) :
    ∀ query : Query Predicate, QueryScoped catalog outside query → querySources query ⊆ sources →
      ∀ node ∈ queryNodes query, node.StartsAmong catalog sources
  | ⟨spaces, distinct, selections, filter⟩, within, among => by
    obtain ⟨selected, joined, filtered⟩ := within
    -- Inside a query its own sources are visible as well, and these are sources of the statement.
    have inside : (Query.mk spaces distinct selections filter).elements ++ outside ⊆ sources :=
      List.append_subset.mpr ⟨List.Subset.trans (elements_subset _) among, fewer⟩
    rw [querySources, List.append_subset] at among
    simp only [queryNodes, List.forall_mem_append, List.forall_mem_flatMap]
    exact ⟨⟨fun selection listed => Expr.startsAmong_of_subset (selected selection listed) inside,
      spacesStartAmong inside spaces joined among.1⟩, filterStartsAmong inside filter filtered among.2⟩

/-- The paths of spaces start among their sources and those around them. -/
theorem spacesStartAmong {visible : List FromNode} (fewer : visible ⊆ sources) :
    ∀ spaces : List (FromSpace Predicate), SpacesScoped catalog visible spaces →
      spaceSources spaces ⊆ sources → ∀ node ∈ spaceNodes spaces, node.StartsAmong catalog sources
  | [], _, _ => by simp [spaceNodes]
  | ⟨_, joins⟩ :: rest, within, among => by
    simp only [spaceSources, List.cons_subset, List.append_subset] at among
    simp only [spaceNodes, List.forall_mem_append]
    exact ⟨joinsStartAmong fewer joins within.1 among.2.1,
      spacesStartAmong fewer rest within.2 among.2.2⟩

/-- The paths of joins start among their sources and those around them. -/
theorem joinsStartAmong {visible : List FromNode} (fewer : visible ⊆ sources) :
    ∀ joins : List (Join Predicate), JoinsScoped catalog visible joins →
      joinSources joins ⊆ sources → ∀ node ∈ joinNodes joins, node.StartsAmong catalog sources
  | [], _, _ => by simp [joinNodes]
  | ⟨_, _, _, predicate⟩ :: rest, within, among => by
    simp only [joinSources, List.cons_subset, List.append_subset] at among
    simp only [joinNodes, List.forall_mem_append]
    exact ⟨filterStartsAmong fewer predicate within.1 among.2.1,
      joinsStartAmong fewer rest within.2 among.2.2⟩

/-- The paths of a filter start among its sources and those around it. -/
theorem filterStartsAmong {visible : List FromNode} (fewer : visible ⊆ sources) :
    ∀ filter : Option Predicate, FilterScoped catalog visible filter →
      filterSources filter ⊆ sources → ∀ node ∈ filterNodes filter, node.StartsAmong catalog sources
  | none, _, _ => by simp [filterNodes]
  | some predicate, within, among => predicate.startsAmong fewer within among

end

/-- Every path of a well-scoped statement starts from a source of the statement. -/
theorem Statement.startsAmong (statement : Statement) (within : statement.IsScoped catalog) :
    ∀ expr ∈ statement.nodes, expr.StartsAmong catalog statement.sources := by
  cases statement with
  | select query order =>
    simp only [Statement.nodes, List.forall_mem_append, List.forall_mem_flatMap]
    exact ⟨queryStartsAmong (List.nil_subset _) query within.1 (List.Subset.refl _),
      fun key listed => Expr.startsAmong_of_subset (within.2 key listed) (elements_subset query)⟩
  | update target assignments filter =>
    have fewer : [target] ⊆ (Statement.update target assignments filter).sources :=
      List.cons_subset_cons _ (List.nil_subset _)
    simp only [Statement.nodes, List.forall_mem_append, List.forall_mem_flatMap]
    exact ⟨fun assignment listed => Expr.startsAmong_of_subset (within.1 assignment listed).2 fewer,
      filterStartsAmong fewer filter within.2 (List.subset_cons_self _ _)⟩
  | delete target filter =>
    exact filterStartsAmong (List.cons_subset_cons _ (List.nil_subset _)) filter within
      (List.subset_cons_self _ _)

/-! ## Paths from the root -/

variable {statement : Statement}

/-- The root of a statement is one of its sources. -/
theorem Statement.root_mem_sources {statement : Statement} {node : FromNode}
    (rooted : statement.root? = some node) : node ∈ statement.sources := by
  cases statement with
  | select query order =>
    obtain ⟨_ | ⟨⟨root, joins⟩, rest⟩, distinct, selections, filter⟩ := query
    · cases rooted
    · obtain rfl := Option.some.inj rooted
      exact List.mem_append_left _ List.mem_cons_self
  | update target assignments filter =>
    obtain rfl := Option.some.inj rooted
    exact List.mem_cons_self
  | delete target filter =>
    obtain rfl := Option.some.inj rooted
    exact List.mem_cons_self

/-- The first attribute of a path is one of the source that it starts from. -/
theorem Reference.StartsFrom.first {node : FromNode} {reference : Reference Expr}
    (starts : reference.StartsFrom catalog node) :
    node.entity.attribute? reference.first.label = some reference.first.declared := by
  obtain ⟨source, sourceType, _ | ⟨first, rest⟩, last, type⟩ := reference <;> exact starts.segments.1

/-- A path from a source begins in an entity that has all that can be used of the source. -/
theorem Reference.StartsFrom.beginsIn {node : FromNode} {reference : Reference Expr}
    {entity : EntityType} (starts : reference.StartsFrom catalog node)
    (shared : node.entity.IsSharedBy entity) : reference.BeginsIn entity := by
  have typed : reference.first.IsTyped := by
    obtain ⟨source, sourceType, _ | ⟨first, rest⟩, last, type⟩ := reference <;>
      exact starts.segments.2.1
  refine ⟨shared starts.first, fun plain => ?_, starts.type⟩
  rw [Option.isNone_iff_eq_none] at plain
  simpa [Segment.IsTyped, plain] using typed

/-- What a statement assigns to starts at its target. -/
theorem Statement.target_startsFrom (within : statement.IsScoped catalog) {node : FromNode}
    (rooted : statement.root? = some node) {assignment : Assignment}
    (listed : assignment ∈ statement.assignments) :
    assignment.target.StartsFrom catalog node := by
  cases statement with
  | select query order => cases listed
  | delete target filter => cases listed
  | update target assignments filter =>
    obtain rfl := Option.some.inj rooted
    obtain ⟨⟨other, seen, starts⟩, _⟩ := (within.1 assignment listed).1
    obtain rfl := List.mem_singleton.mp seen
    exact starts

/-- Each entity that the root stands for has the attributes with which paths from the root begin, if it
has all that can be used of the root and no other source has the name of the root. -/
theorem Statement.sharesRoot (within : statement.IsScoped catalog)
    (distinct : (statement.sources.map (·.label)).Nodup)
    (shared : ∀ node ∈ statement.sources, ∀ name implementors,
      node.entity = .polymorphic name implementors →
        ∀ entity ∈ implementors, node.entity.IsSharedBy entity) : statement.SharesRoot := by
  intro node name implementors rooted several entity listed
  have own := Statement.root_mem_sources rooted
  have offers := shared node own name implementors several entity listed
  constructor
  · intro expr found
    have starts := statement.startsAmong within expr found
    cases expr with
    | path reference =>
      intro named
      obtain ⟨other, among, starts⟩ := starts
      have same : other = node :=
        List.inj_on_of_nodup_map distinct among own (starts.source.symm.trans named)
      exact (same ▸ starts).beginsIn offers
    | _ => trivial
  · intro assignment assigned
    exact (Statement.target_startsFrom within rooted assigned).beginsIn offers

end ObjectQuery.Resolved
