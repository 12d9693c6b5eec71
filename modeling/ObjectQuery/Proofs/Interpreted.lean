import ObjectQuery.Proofs.Compiled
import ObjectQuery.Proofs.Resolution.Agreement
/-!
# What a text means

A text is read, its sources are registered, everything else in it is resolved, and its parameters are
typed. The two walks over the tree agree about every source and every scope, and the statement that
comes out is well-scoped.
-/
namespace ObjectQuery

open Resolved (FromNode)

variable {catalog : Catalog} {source : String}

/-- A tree is resolved in two walks: sources are registered first, and the second walk looks them
up. -/
theorem resolve_ok {tree : Grammar.Statement} {statement : Resolved.Statement} :
    Resolved.Statement.resolve catalog tree = .ok statement ↔
      ∃ index after, Sources.ofStatement catalog tree = .ok index ∧
        (Resolution.statement ⟨catalog, index⟩ tree).run .unused = .ok (statement, after) := by
  constructor
  · intro resolved
    obtain ⟨index, registered, resolving⟩ := except_bind_ok.mp resolved
    obtain ⟨⟨result, after⟩, ran, given⟩ := except_bind_ok.mp resolving
    obtain rfl := Except.ok.inj given
    exact ⟨index, after, registered, ran⟩
  · rintro ⟨index, after, registered, ran⟩
    exact except_bind_ok.mpr ⟨index, registered, except_bind_ok.mpr ⟨(statement, after), ran, rfl⟩⟩

/-- The steps that lead from a text to its meaning. -/
theorem interpret_ok {statement : Resolved.Statement}
    (interpreted : interpret catalog source = .ok statement) :
    ∃ tree index resolved after, parse source = .ok tree ∧
      Sources.ofStatement catalog tree = .ok index ∧
      (Resolution.statement ⟨catalog, index⟩ tree).run .unused = .ok (resolved, after) ∧
      statement = resolved.infer := by
  obtain ⟨tree, parsed, interpreted⟩ := except_bind_ok.mp interpreted
  obtain ⟨resolved, found, same⟩ := except_bind_ok.mp interpreted
  obtain ⟨index, after, registered, ran⟩ := resolve_ok.mp (mapError_ok found)
  exact ⟨tree, index, resolved, after, parsed, registered, ran, (Except.ok.inj same).symm⟩

/-- What is registered for a text that can be read is found again by its places. -/
theorem isDistinct_of_parsed {tree : Grammar.Statement} {index : FromIndex}
    (parsed : parse source = .ok tree) (registered : Sources.ofStatement catalog tree = .ok index) :
    index.IsDistinct := by
  obtain ⟨sources, clauses⟩ := Grammar.parse_nodup (mapError_ok parsed)
  obtain ⟨elements, scopes, _⟩ := Sources.ofStatement_mirrors registered
  exact ⟨Sources.ofStatement_isMirrored registered, elements ▸ sources, scopes ▸ clauses⟩

/-- The second walk over a text that can be read never fails for an internal reason. What it makes of
the text is well-scoped, and its sources are the elements that the first walk has registered. -/
theorem finds_of_parsed {tree : Grammar.Statement} {index : FromIndex}
    (parsed : parse source = .ok tree) (registered : Sources.ofStatement catalog tree = .ok index) :
    Resolution.Finds (Resolution.statement ⟨catalog, index⟩ tree) fun found =>
      found.IsScoped catalog ∧ found.sources = index.elements.map FromNode.ofElement := by
  have distinct := isDistinct_of_parsed parsed registered
  obtain ⟨elements, _, mirrors⟩ := Sources.ofStatement_mirrors registered
  have finds : Resolution.Finds (Resolution.statement ⟨catalog, index⟩ tree) fun found =>
      found.IsScoped catalog ∧ Resolution.AreAt ⟨catalog, index⟩ tree.places found.sources :=
    Resolution.statement_finds distinct tree mirrors
  refine finds.weaken fun found told => ?_
  rw [← elements] at told
  exact ⟨told.1, told.2.unique (Resolution.areAt_elements distinct fun _ listed => listed)⟩

/-- A result of the second walk, accordingly. -/
theorem resolved_of_parsed {tree : Grammar.Statement} {index : FromIndex} {numbering after : Numbering}
    {statement : Resolved.Statement} (parsed : parse source = .ok tree)
    (registered : Sources.ofStatement catalog tree = .ok index)
    (ran : (Resolution.statement ⟨catalog, index⟩ tree).run numbering = .ok (statement, after)) :
    statement.IsScoped catalog ∧ statement.sources = index.elements.map FromNode.ofElement := by
  have found := finds_of_parsed parsed registered numbering
  rwa [ran] at found

/-- The two walks over a tree agree about what the first one has registered. -/
structure PhasesAgree (catalog : Catalog) (tree : Grammar.Statement) (index : FromIndex) : Prop where
  /-- No two sources have the same place, and no two from-clauses. -/
  apart : tree.places.Nodup ∧ tree.clauses.Nodup
  /-- There is one element for each source and one scope for each from-clause, in the order of the
  text. -/
  registered : index.elements.map (·.span) = tree.places ∧ index.scopes.map (·.span) = tree.clauses
  /-- Scopes are inside each other as queries are, and have the elements that their from-clauses
  name. -/
  mirrors : index.Mirrors tree
  /-- The second walk finds each element under its place. -/
  sourceFound : ∀ element ∈ index.elements,
    Resolution.nodeAt ⟨catalog, index⟩ element.span = .ok (.ofElement element)
  /-- The second walk finds each scope under its place. -/
  scopeFound : ∀ number scope, index.scopes[number]? = some scope →
    Resolution.scopeAt ⟨catalog, index⟩ scope.span = .ok number
  /-- The second walk never fails for an internal reason. -/
  noMisuse : ∀ numbering cause,
    (Resolution.statement ⟨catalog, index⟩ tree).run numbering ≠ .error (.misuse cause)
  /-- The sources of its result are the elements, one for one. -/
  sources : ∀ numbering statement after,
    (Resolution.statement ⟨catalog, index⟩ tree).run numbering = .ok (statement, after) →
      statement.sources = index.elements.map FromNode.ofElement

/-- If a text can be read and its sources can be registered, the two walks over its tree agree. -/
theorem phases_agree {tree : Grammar.Statement} {index : FromIndex}
    (parsed : parse source = .ok tree) (registered : Sources.ofStatement catalog tree = .ok index) :
    PhasesAgree catalog tree index := by
  have distinct := isDistinct_of_parsed parsed registered
  obtain ⟨elements, scopes, mirrors⟩ := Sources.ofStatement_mirrors registered
  refine ⟨Grammar.parse_nodup (mapError_ok parsed), ⟨elements, scopes⟩, mirrors,
    fun element listed => Resolution.nodeAt_element distinct listed, ?_, ?_,
    fun numbering statement after ran => (resolved_of_parsed parsed registered ran).2⟩
  · intro number scope known
    have opened : index.headings[number]? = some (scope.parent, scope.span) := by
      rw [FromIndex.headings, List.getElem?_map, known]
      rfl
    exact Resolution.scopeAt_eq distinct opened
  · intro numbering cause failed
    have fault := finds_of_parsed parsed registered numbering
    rw [failed] at fault
    cases fault

/-- A text with queries in the condition of a join and in the filter. -/
def queriesInJoin : String :=
  "select o.id from Order o join Item i on i.n in (select c.id from Customer c where c.name = 'x'), " ++
  "Item j where o.a in (from Item k)"

/-- The phases agree on the queries in the condition of the join and in the filter. -/
theorem phases_agree_queriesInJoin : ∃ catalog tree index, parse queriesInJoin = .ok tree ∧
    Sources.ofStatement catalog tree = .ok index ∧ PhasesAgree catalog tree index := by
  have checked : compilesTo shop .outer queriesInJoin (fun _ => true) = true := by decide +kernel
  obtain ⟨model, statements, statement, _, compiled, _, _⟩ := exists_of_compilesTo checked
  obtain ⟨given, interpreted, _⟩ := except_bind_ok.mp compiled
  obtain ⟨tree, index, _, _, parsed, registered, _⟩ := interpret_ok interpreted
  exact ⟨model.catalog, tree, index, parsed, registered, phases_agree parsed registered⟩

/-- Whatever a text means is well-scoped: every path and every source in it refers to a source that is
visible where it stands, with the type of that source, and paths follow attributes that exist. -/
theorem interpret_isScoped {statement : Resolved.Statement}
    (interpreted : interpret catalog source = .ok statement) : statement.IsScoped catalog := by
  obtain ⟨tree, index, resolved, after, parsed, registered, ran, rfl⟩ := interpret_ok interpreted
  exact Resolved.Statement.isScoped_infer (resolved_of_parsed parsed registered ran).1

/-- A text with a path through an index, and a name without a source, in a query inside a query. -/
def pathInQueries : String :=
  "select o from Order o where :n in (select c.name from Customer c where c.id in " ++
  "(select i.n from Item i where o.items[i.n + :k].n = a))"

/-- What the text with a path in its queries means is well-scoped. -/
theorem interpret_isScoped_pathInQueries : ∃ catalog statement,
    interpret catalog pathInQueries = .ok statement ∧ statement.IsScoped catalog := by
  have checked : compilesTo shop .outer pathInQueries (fun _ => true) = true := by decide +kernel
  obtain ⟨model, statements, statement, _, compiled, _, _⟩ := exists_of_compilesTo checked
  obtain ⟨given, interpreted, _⟩ := except_bind_ok.mp compiled
  exact ⟨model.catalog, given, interpreted, interpret_isScoped interpreted⟩

end ObjectQuery
