import ObjectQuery.Proofs.Resolved.Grounded
/-!
# Where paths lead

A trail is a source and the names of to-one associations that lead on from it. Every path goes along
trails, up to its first index; the last name of a path is not gone through, unless the path is one of
the items that a statement selects and stands for a whole entity.

The condition of a join may use a source that comes later in the same from-clause. `ahead` lists the
sources that are used in this way.
-/
namespace ObjectQuery.Resolved

/-- A source and the associations that lead on from it. -/
structure Trail where
  root : String
  path : List String
  deriving DecidableEq, Repr

namespace Trail

/-- The trail of the source alone. -/
def start (root : String) : Trail := ⟨root, []⟩

/-- The trail with one more association. -/
def extend (trail : Trail) (label : String) : Trail := ⟨trail.root, trail.path ++ [label]⟩

/-- The names joined by dots. -/
def name (trail : Trail) : String :=
  trail.path.foldl (fun owner label => owner ++ "." ++ label) trail.root

/-- The trail and those that lead on from it, association by association. -/
def steps (trail : Trail) : List String → List Trail
  | [] => [trail]
  | label :: rest => trail :: (trail.extend label).steps rest

/-- A trail that has gone nowhere is named by its root. -/
@[simp] theorem name_start {root : String} : (start root).name = root := rfl

/-- A trail starts at its root. -/
@[simp] theorem root_start {root : String} : (start root).root = root := rfl

/-- A further step leaves the root of a trail alone. -/
@[simp] theorem root_extend {trail : Trail} {label : String} :
    (trail.extend label).root = trail.root := rfl

/-- A further step adds its label behind a dot. -/
@[simp] theorem name_extend {trail : Trail} {label : String} :
    (trail.extend label).name = trail.name ++ "." ++ label := by
  simp [name, extend]

/-- A trail that is followed further is one of its own steps. -/
theorem mem_steps {trail : Trail} {labels : List String} : trail ∈ trail.steps labels := by
  cases labels <;> simp [steps]

/-- All trails that lead on from a trail have the same source. -/
theorem root_of_mem_steps {labels : List String} : ∀ {trail other : Trail},
    other ∈ trail.steps labels → other.root = trail.root := by
  induction labels with
  | nil =>
    intro trail other member
    rw [List.mem_singleton.mp member]
  | cons label rest ih =>
    intro trail other member
    rcases List.mem_cons.mp member with rfl | further
    · rfl
    · exact (ih further).trans root_extend

end Trail

/-- The names of the segments before the first index. -/
def direct : List (Segment Expr) → List String
  | [] => []
  | ⟨label, _, none, _⟩ :: rest => label :: direct rest
  | ⟨_, _, some _, _⟩ :: _ => []

/-- The trails of an expression itself, apart from those of its parts. -/
def Expr.ownTrails : Expr → List Trail
  | .path reference => (Trail.start reference.source).steps (direct reference.init)
  | .element label _ => [.start label]
  | _ => []

/-- The trails of expressions. -/
def trailsOf (nodes : List Expr) : List Trail := nodes.flatMap Expr.ownTrails

/-- The trails of an expression and of everything inside it. -/
def Expr.trails (expr : Expr) : List Trail := trailsOf expr.nodes

/-- The trails of an item of the select list of a statement, where a path to an entity is gone through
to its end. -/
def Selection.trails (selection : Selection) : List Trail :=
  match selection.expr with
  | .path reference => (Expr.path reference).trails ++
      if reference.type.entity?.isSome then (Trail.start reference.source).steps
        (direct reference.segments) else []
  | other => other.trails

/-- The trails of a join along a path, whose last name is not gone through. -/
def originTrails : FromOrigin → List Trail
  | .root | .entityJoin => []
  | .pathJoin owner path _ => (Trail.start owner).steps path.dropLast

mutual

/-- The trails of a predicate, those of the queries in it included. -/
def Predicate.trails : Predicate → List Trail
  | .and left right | .or left right => left.trails ++ right.trails
  | .not operand => operand.trails
  | .compare _ left right => left.trails ++ right.trails
  | .inList test values _ => test.trails ++ values.flatMap Expr.trails
  | .inQuery test query _ => test.trails ++ queryTrails query
  | .memberOf element collection _ => element.trails ++ (Expr.path collection).trails
  | .isNull operand _ => operand.trails
  | .like operand pattern _ => operand.trails ++ pattern.trails
  | .between operand low high _ => operand.trails ++ low.trails ++ high.trails

/-- The trails of a query. -/
def queryTrails : Query Predicate → List Trail
  | ⟨spaces, _, selections, filter⟩ =>
    spaceTrails spaces ++ (selections.flatMap fun selection => selection.expr.trails) ++
      filterTrails filter

/-- The trails of the items of a from-clause. -/
def spaceTrails : List (FromSpace Predicate) → List Trail
  | [] => []
  | ⟨_, joins⟩ :: rest => joinTrails joins ++ spaceTrails rest

/-- The trails of joins. -/
def joinTrails : List (Join Predicate) → List Trail
  | [] => []
  | ⟨_, _, target, predicate⟩ :: rest =>
    originTrails target.origin ++ filterTrails predicate ++ joinTrails rest

/-- The trails of a condition that may be absent. -/
def filterTrails : Option Predicate → List Trail
  | none => []
  | some predicate => predicate.trails

end

/-- The trails of a statement. -/
def Statement.trails : Statement → List Trail
  | .select query order => queryTrails query ++ query.selections.flatMap Selection.trails ++
      order.flatMap fun key => key.expr.trails
  | .update _ assignments filter =>
    (assignments.flatMap fun assignment => assignment.value.trails) ++ filterTrails filter
  | .delete _ filter => filterTrails filter

/-- The names of the sources of joins. -/
def targetLabels (joins : List (Join Predicate)) : List String := joins.map (·.target.label)

/-- The names of the sources of an item of a from-clause, the root first. -/
def FromSpace.labels (space : FromSpace Predicate) : List String :=
  space.root.label :: targetLabels space.joins

mutual

/-- The sources that are used before they are joined, in the queries of a predicate. -/
def Predicate.ahead : Predicate → List String
  | .and left right | .or left right => left.ahead ++ right.ahead
  | .not operand => operand.ahead
  | .inQuery _ query _ => queryAhead query
  | _ => []

/-- The same for a query. -/
def queryAhead : Query Predicate → List String
  | ⟨spaces, _, _, filter⟩ => spacesAhead spaces ++ filterAhead filter

/-- The same for the items of a from-clause: in a join, the sources of all later items are still to
come. -/
def spacesAhead : List (FromSpace Predicate) → List String
  | [] => []
  | ⟨_, joins⟩ :: rest => joinsAhead (rest.flatMap FromSpace.labels) joins ++ spacesAhead rest

/-- The same for joins, given the sources of later items. -/
def joinsAhead (later : List String) : List (Join Predicate) → List String
  | [] => []
  | ⟨_, _, _, predicate⟩ :: rest =>
    ((filterTrails predicate).map (·.root)).filter
        (fun root => (targetLabels rest ++ later).contains root) ++
      filterAhead predicate ++ joinsAhead later rest

/-- The same for a condition that may be absent. -/
def filterAhead : Option Predicate → List String
  | none => []
  | some predicate => predicate.ahead

end

/-- The sources that are used in the condition of a join before they are joined themselves, anywhere
in a statement. -/
def Statement.ahead : Statement → List String
  | .select query _ => queryAhead query
  | .update _ _ filter | .delete _ filter => filterAhead filter

mutual

/-- The from-clauses in a predicate, each with the first sources of its items. -/
def Predicate.layouts : Predicate → List (List String)
  | .and left right | .or left right => left.layouts ++ right.layouts
  | .not operand => operand.layouts
  | .inQuery _ query _ => queryLayouts query
  | _ => []

/-- The from-clauses of a query. -/
def queryLayouts : Query Predicate → List (List String)
  | ⟨spaces, _, _, filter⟩ =>
    spaces.map (·.root.label) :: (spaceLayouts spaces ++ filterLayouts filter)

/-- The from-clauses in the items of a from-clause. -/
def spaceLayouts : List (FromSpace Predicate) → List (List String)
  | [] => []
  | ⟨_, joins⟩ :: rest => joinLayouts joins ++ spaceLayouts rest

/-- The from-clauses in the conditions of joins. -/
def joinLayouts : List (Join Predicate) → List (List String)
  | [] => []
  | ⟨_, _, _, predicate⟩ :: rest => filterLayouts predicate ++ joinLayouts rest

/-- The from-clauses in a condition that may be absent. -/
def filterLayouts : Option Predicate → List (List String)
  | none => []
  | some predicate => predicate.layouts

end

/-- All from-clauses of a statement, each with the first sources of its items. -/
def Statement.layouts : Statement → List (List String)
  | .select query _ => queryLayouts query
  | .update _ _ filter | .delete _ filter => filterLayouts filter

/-! ## Recorded types -/

/-- Taking the types off a path leaves the labels it joins directly. -/
theorem direct_stripped : ∀ segments : List (Segment Expr),
    direct (strippedSegments segments) = direct segments
  | [] => rfl
  | ⟨label, declared, none, after⟩ :: rest => by simp [direct, direct_stripped rest]
  | ⟨label, declared, some index, after⟩ :: rest => rfl

/-- Taking the types off an expression leaves its own trails. -/
theorem Expr.ownTrails_stripped (expr : Expr) : expr.stripped.ownTrails = expr.ownTrails := by
  cases expr with
  | path reference =>
    rw [Expr.stripped_path]
    exact congrArg (Trail.start reference.source).steps (direct_stripped reference.init)
  | _ => simp [Expr.ownTrails]

/-- Taking the types off an expression leaves its trails. -/
@[simp] theorem Expr.trails_stripped (expr : Expr) : expr.stripped.trails = expr.trails := by
  rw [Expr.trails, Expr.nodes_stripped, trailsOf, List.flatMap_map]
  exact List.flatMap_congr fun node _ => node.ownTrails_stripped

/-- Taking the types off a selection leaves its trails. -/
@[simp] theorem Selection.trails_stripped (selection : Selection) :
    selection.stripped.trails = selection.trails := by
  obtain ⟨expr, label⟩ := selection
  cases expr with
  | path reference =>
    have along : direct reference.stripped.segments = direct reference.segments := by
      rw [reference.segments_stripped, ← strippedSegments_eq_map, direct_stripped]
    change (Expr.path reference).stripped.trails ++ (if reference.stripped.type.entity?.isSome then
      (Trail.start reference.source).steps (direct reference.stripped.segments) else []) = _
    rw [Expr.trails_stripped, reference.type_stripped, along]
    rfl
  | _ => exact Expr.trails_stripped _

/-- Taking the types off joins leaves the labels of their targets. -/
theorem targetLabels_stripped (joins : List (Join Predicate)) :
    targetLabels (strippedJoins joins) = targetLabels joins := by
  induction joins with
  | nil => rfl
  | cons join rest ih => exact congrArg (join.target.label :: ·) ih

/-- Taking the types off spaces leaves their labels. -/
theorem labels_stripped (spaces : List (FromSpace Predicate)) :
    (strippedSpaces spaces).flatMap FromSpace.labels = spaces.flatMap FromSpace.labels := by
  induction spaces with
  | nil => rfl
  | cons space rest ih =>
    simp only [strippedSpaces, List.flatMap_cons, FromSpace.labels, targetLabels_stripped, ih]

/-- Taking the types off spaces leaves the labels of their roots. -/
theorem roots_stripped (spaces : List (FromSpace Predicate)) :
    (strippedSpaces spaces).map (·.root.label) = spaces.map (·.root.label) := by
  induction spaces with
  | nil => rfl
  | cons space rest ih => exact congrArg (space.root.label :: ·) ih

mutual

/-- Taking the types off a predicate leaves its trails. -/
theorem Predicate.trails_stripped :
    ∀ predicate : Predicate, predicate.stripped.trails = predicate.trails
  | .and left right | .or left right => by
    simp [Predicate.trails, left.trails_stripped, right.trails_stripped]
  | .not operand => by simp [Predicate.trails, operand.trails_stripped]
  | .inQuery test query negated => by simp [Predicate.trails, queryTrails_stripped query]
  | .memberOf element collection negated => by
    simp only [Predicate.stripped, Predicate.trails, Expr.trails_stripped, ← Expr.stripped_path]
  | .inList test values negated => by simp [Predicate.trails, List.flatMap_map]
  | .compare _ _ _ | .isNull _ _ | .like _ _ _ | .between _ _ _ _ => by simp [Predicate.trails]

/-- Taking the types off a query leaves its trails. -/
theorem queryTrails_stripped :
    ∀ query : Query Predicate, queryTrails (strippedQuery query) = queryTrails query
  | ⟨spaces, distinct, selections, filter⟩ => by
    simp [queryTrails, spaceTrails_stripped spaces, filterTrails_stripped filter, List.flatMap_map]

/-- Taking the types off spaces leaves their trails. -/
theorem spaceTrails_stripped : ∀ spaces : List (FromSpace Predicate),
    spaceTrails (strippedSpaces spaces) = spaceTrails spaces
  | [] => rfl
  | ⟨root, joins⟩ :: rest => by
    simp [spaceTrails, joinTrails_stripped joins, spaceTrails_stripped rest]

/-- Taking the types off joins leaves their trails. -/
theorem joinTrails_stripped : ∀ joins : List (Join Predicate),
    joinTrails (strippedJoins joins) = joinTrails joins
  | [] => rfl
  | ⟨kind, fetch, target, predicate⟩ :: rest => by
    simp [joinTrails, filterTrails_stripped predicate, joinTrails_stripped rest]

/-- Taking the types off a filter leaves its trails. -/
theorem filterTrails_stripped : ∀ filter : Option Predicate,
    filterTrails (strippedFilter filter) = filterTrails filter
  | none => rfl
  | some predicate => predicate.trails_stripped

end

mutual

/-- Taking the types off a predicate leaves the labels it uses ahead of their joins. -/
theorem Predicate.ahead_stripped :
    ∀ predicate : Predicate, predicate.stripped.ahead = predicate.ahead
  | .and left right | .or left right => by
    simp [Predicate.ahead, left.ahead_stripped, right.ahead_stripped]
  | .not operand => by simp [Predicate.ahead, operand.ahead_stripped]
  | .inQuery test query negated => by simp [Predicate.ahead, queryAhead_stripped query]
  | .memberOf _ _ _ | .inList _ _ _ | .compare _ _ _ | .isNull _ _ | .like _ _ _
  | .between _ _ _ _ => by simp [Predicate.ahead]

/-- Taking the types off a query leaves the labels it uses ahead of their joins. -/
theorem queryAhead_stripped :
    ∀ query : Query Predicate, queryAhead (strippedQuery query) = queryAhead query
  | ⟨spaces, distinct, selections, filter⟩ => by
    simp [queryAhead, spacesAhead_stripped spaces, filterAhead_stripped filter]

/-- Taking the types off spaces leaves the labels they use ahead of their joins. -/
theorem spacesAhead_stripped : ∀ spaces : List (FromSpace Predicate),
    spacesAhead (strippedSpaces spaces) = spacesAhead spaces
  | [] => rfl
  | ⟨root, joins⟩ :: rest => by
    simp only [strippedSpaces, spacesAhead, labels_stripped, joinsAhead_stripped _ joins,
      spacesAhead_stripped rest]

/-- Taking the types off joins leaves the labels they use ahead of the later ones. -/
theorem joinsAhead_stripped (later : List String) : ∀ joins : List (Join Predicate),
    joinsAhead later (strippedJoins joins) = joinsAhead later joins
  | [] => rfl
  | ⟨kind, fetch, target, predicate⟩ :: rest => by
    simp only [strippedJoins, joinsAhead, filterTrails_stripped, targetLabels_stripped,
      filterAhead_stripped predicate, joinsAhead_stripped later rest]

/-- Taking the types off a filter leaves the labels it uses ahead of their joins. -/
theorem filterAhead_stripped : ∀ filter : Option Predicate,
    filterAhead (strippedFilter filter) = filterAhead filter
  | none => rfl
  | some predicate => predicate.ahead_stripped

end

mutual

/-- Taking the types off a predicate leaves the layouts of its sub-queries. -/
theorem Predicate.layouts_stripped :
    ∀ predicate : Predicate, predicate.stripped.layouts = predicate.layouts
  | .and left right | .or left right => by
    simp [Predicate.layouts, left.layouts_stripped, right.layouts_stripped]
  | .not operand => by simp [Predicate.layouts, operand.layouts_stripped]
  | .inQuery test query negated => by simp [Predicate.layouts, queryLayouts_stripped query]
  | .memberOf _ _ _ | .inList _ _ _ | .compare _ _ _ | .isNull _ _ | .like _ _ _
  | .between _ _ _ _ => by simp [Predicate.layouts]

/-- Taking the types off a query leaves its layouts. -/
theorem queryLayouts_stripped :
    ∀ query : Query Predicate, queryLayouts (strippedQuery query) = queryLayouts query
  | ⟨spaces, distinct, selections, filter⟩ => by
    simp only [strippedQuery, queryLayouts, roots_stripped, spaceLayouts_stripped spaces,
      filterLayouts_stripped filter]

/-- Taking the types off spaces leaves their layouts. -/
theorem spaceLayouts_stripped : ∀ spaces : List (FromSpace Predicate),
    spaceLayouts (strippedSpaces spaces) = spaceLayouts spaces
  | [] => rfl
  | ⟨root, joins⟩ :: rest => by
    simp [spaceLayouts, joinLayouts_stripped joins, spaceLayouts_stripped rest]

/-- Taking the types off joins leaves their layouts. -/
theorem joinLayouts_stripped : ∀ joins : List (Join Predicate),
    joinLayouts (strippedJoins joins) = joinLayouts joins
  | [] => rfl
  | ⟨kind, fetch, target, predicate⟩ :: rest => by
    simp [joinLayouts, filterLayouts_stripped predicate, joinLayouts_stripped rest]

/-- Taking the types off a filter leaves its layouts. -/
theorem filterLayouts_stripped : ∀ filter : Option Predicate,
    filterLayouts (strippedFilter filter) = filterLayouts filter
  | none => rfl
  | some predicate => predicate.layouts_stripped

end

/-- Where paths lead does not depend on recorded types. -/
theorem Statement.trails_stripped (statement : Statement) :
    statement.stripped.trails = statement.trails := by
  cases statement with
  | select query order =>
    obtain ⟨spaces, distinct, selections, filter⟩ := query
    have items : (selections.map Selection.stripped).flatMap Selection.trails =
        selections.flatMap Selection.trails := by
      rw [List.flatMap_map]
      exact List.flatMap_congr fun selection _ => selection.trails_stripped
    simp only [Statement.stripped, Statement.trails, queryTrails_stripped]
    rw [strippedQuery, items]
    simp [List.flatMap_map]
  | update target assignments filter =>
    simp [Statement.trails, filterTrails_stripped, List.flatMap_map]
  | delete target filter => simp [Statement.trails, filterTrails_stripped]

/-- Taking the types off a statement leaves the labels it uses ahead of their joins. -/
theorem Statement.ahead_stripped (statement : Statement) :
    statement.stripped.ahead = statement.ahead := by
  cases statement with
  | select query order => exact queryAhead_stripped query
  | update target assignments filter => exact filterAhead_stripped filter
  | delete target filter => exact filterAhead_stripped filter

/-- Taking the types off a statement leaves its layouts. -/
theorem Statement.layouts_stripped (statement : Statement) :
    statement.stripped.layouts = statement.layouts := by
  cases statement with
  | select query order => exact queryLayouts_stripped query
  | update target assignments filter => exact filterLayouts_stripped filter
  | delete target filter => exact filterLayouts_stripped filter

end ObjectQuery.Resolved
