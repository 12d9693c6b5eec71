import ObjectQuery.Proofs.Lowering.TableLabels
import ObjectQuery.Proofs.Lowering.Traced
import ObjectQuery.Proofs.Resolution.Linked
/-!
# Sources that are still to come

While a statement is lowered, some of its sources have their groups entered and the others are still
to come, in the order of the text. `Awaits` says what is known about those. A source that is entered
is no longer missing, and a level that is opened or closed leaves all groups as they are.

`Settled` is what lowering a part of a statement achieves: the trails in it are entered at the levels
that are there, or at a sub-select of the result, whose tables have names of their own.
-/
namespace ObjectQuery.Lowering

open Sql
open Resolved (FromNode Trail)

variable {context : LoweringContext} {roots : String → Option String} {visible : List FromNode}
  {missing reported : List String} {state after : LoweringState}
  {scopes later outer : List LoweringScope} {scope scope' : LoweringScope}

/-! ## Entering sources -/

/-- A group that can be entered for the source of that name: it is of the entity of the source, and
has its columns. -/
structure EntersAs (context : LoweringContext) (roots : String → Option String) (label : String)
    (group : TableGroup) : Prop where
  coherent : group.Coherent
  serves : group.Serves context.catalog
  rooted : roots label = some group.entity

/-- Entering a source under a new plain name keeps scopes tidy. -/
theorem Tidy.enter {label : String} {space count : Nat} {group : TableGroup}
    (tidy : Tidy context roots ⟨scope :: outer, count⟩) (plain : IsPlainName label)
    (new : label ∉ keys (scope :: outer)) (enters : EntersAs context roots label group)
    (groups : scope'.groups = (label, ⟨space, group⟩) :: scope.groups) :
    Tidy context roots ⟨scope' :: outer, count⟩ := by
  have names : keys (scope' :: outer) = label :: keys (scope :: outer) := by
    rw [keys_cons, keys_cons, groups, List.map_cons, List.cons_append]
  refine ⟨?_, ?_⟩
  · rw [names]
    exact List.nodup_cons.mpr ⟨new, tidy.distinct⟩
  · have more : scope.groups ⊆ scope'.groups := by
      rw [groups]
      exact List.subset_cons_self _ _
    refine List.forall_mem_cons.mpr ⟨fun entry listed => ?_, fun given member =>
      tidy.entered given (List.mem_cons_of_mem _ member)⟩
    rw [groups] at listed
    rcases List.mem_cons.mp listed with rfl | earlier
    · refine ⟨enters.coherent, enters.serves, .source label, plain, rfl, enters.rooted, trivial, ?_⟩
      exact ⟨_, groups ▸ List.mem_cons_self, rfl, rfl⟩
    · exact (tidy.entered scope List.mem_cons_self entry earlier).mono (Nat.le_refl _) more

/-- A source is not missing any more once its group is entered. -/
theorem Stage.enter {label : String} {space count : Nat} {group : TableGroup}
    (stage : Stage context roots visible (label :: missing) ⟨scope :: outer, count⟩)
    (other : label ∉ missing) (enters : EntersAs context roots label group)
    (shared : ∀ node ∈ visible, node.label = label →
      context.catalog.Offers group.entity node.entity.attribute?)
    (groups : scope'.groups = (label, ⟨space, group⟩) :: scope.groups) :
    Stage context roots visible missing ⟨scope' :: outer, count⟩ := by
  obtain ⟨plain, new⟩ := stage.absent label List.mem_cons_self
  have names : keys (scope' :: outer) = label :: keys (scope :: outer) := by
    rw [keys_cons, keys_cons, groups, List.map_cons, List.cons_append]
  refine ⟨stage.tidy.enter plain new enters groups, fun given listed => ?_, fun node seen => ?_⟩
  · obtain ⟨plainGiven, unknown⟩ := stage.absent given (List.mem_cons_of_mem _ listed)
    refine ⟨plainGiven, fun known => ?_⟩
    rw [names] at known
    rcases List.mem_cons.mp known with rfl | earlier
    · exact other listed
    · exact unknown earlier
  · obtain ⟨plainNode, waits | ⟨known, offers⟩⟩ := stage.covered node seen
    · refine ⟨plainNode, ?_⟩
      rcases List.mem_cons.mp waits with here | further
      · refine Or.inr ⟨?_, group.entity, here ▸ enters.rooted, shared node seen here⟩
        rw [names, here]
        exact List.mem_cons_self
      · exact Or.inl further
    · refine ⟨plainNode, Or.inr ⟨?_, offers⟩⟩
      rw [names]
      exact List.mem_cons_of_mem _ known

/-- Only the groups of a level matter. -/
theorem Stage.regroup {count : Nat} (stage : Stage context roots visible missing ⟨scope :: outer, count⟩)
    (groups : scope'.groups = scope.groups) :
    Stage context roots visible missing ⟨scope' :: outer, count⟩ := by
  have names : keys (scope' :: outer) = keys (scope :: outer) := by
    rw [keys_cons, keys_cons, groups]
  refine ⟨⟨names ▸ stage.tidy.distinct, ?_⟩, ?_, ?_⟩
  · refine List.forall_mem_cons.mpr ⟨fun entry listed => ?_, fun given member =>
      stage.tidy.entered given (List.mem_cons_of_mem _ member)⟩
    exact (stage.tidy.entered scope List.mem_cons_self entry (groups ▸ listed)).mono (Nat.le_refl _)
      (groups ▸ List.Subset.refl _)
  · simpa only [names] using stage.absent
  · simpa only [names] using stage.covered

/-- A new level keeps scopes tidy. -/
theorem Tidy.open (tidy : Tidy context roots state) :
    Tidy context roots { state with scopes := .empty :: state.scopes } :=
  ⟨tidy.distinct, List.forall_mem_cons.mpr ⟨by simp [LoweringScope.empty], tidy.entered⟩⟩

/-- The scopes around a level are tidy. -/
theorem Tidy.close {count : Nat} (tidy : Tidy context roots ⟨scope :: outer, count⟩) :
    Tidy context roots ⟨outer, count⟩ := by
  refine ⟨?_, fun given member => tidy.entered given (List.mem_cons_of_mem _ member)⟩
  have distinct := tidy.distinct
  rw [keys_cons] at distinct
  exact (List.nodup_append.mp distinct).2.1

/-! ## Sources in the order of the text -/

/-- What is known about the sources of a part of a statement and those of the rest of it, when some
groups are entered already. -/
structure Awaits (context : LoweringContext) (roots : String → Option String)
    (visible : List FromNode) (missing : List String) (given rest : List FromNode)
    (scopes : List LoweringScope) : Prop where
  distinct : ((given ++ rest).map (·.label)).Nodup
  new : ∀ node ∈ given ++ rest, IsPlainName node.label ∧ node.label ∉ keys scopes
  /-- No source is joined along a path from itself or from a later one. -/
  ordered : (given ++ rest).Pairwise fun earlier further =>
    earlier.origin.owner? ≠ some further.label
  apart : ∀ node ∈ given ++ rest, node.origin.owner? ≠ some node.label
  rooted : ∀ node ∈ given ++ rest, ∀ entity, node.entity = .concrete entity →
    roots node.label = some entity.name ∧ context.catalog.entity? entity.name = some entity
  /-- A source that is visible under the same name has no other attributes. -/
  shared : ∀ node ∈ visible, ∀ own ∈ given ++ rest, node.label = own.label →
    ∀ entity, own.entity = .concrete entity →
      context.catalog.Offers entity.name node.entity.attribute?
  /-- What is missing comes in the rest. -/
  further : missing ⊆ rest.map (·.label)

namespace Awaits

variable {first second given rest : List FromNode}

/-- No later source has the name of the first one, and that is not missing elsewhere. -/
theorem head {node : FromNode}
    (awaits : Awaits context roots visible missing (node :: given) rest scopes) :
    node.label ∉ (given ++ rest).map (·.label) ∧ node.label ∉ missing := by
  have new : node.label ∉ (given ++ rest).map (·.label) := (List.nodup_cons.mp awaits.distinct).1
  refine ⟨new, fun waits => new ?_⟩
  rw [List.map_append]
  exact List.mem_append_right _ (awaits.further waits)

/-- The sources that are awaited have plain names. -/
theorem plain (awaits : Awaits context roots visible missing given rest scopes) :
    ∀ source ∈ given, IsPlainName source.label :=
  fun source member => (awaits.new source (List.mem_append_left _ member)).1

/-- The first part of what is to come. -/
theorem left (awaits : Awaits context roots visible missing (first ++ second) rest scopes) :
    Awaits context roots visible missing first (second ++ rest) scopes := by
  obtain ⟨distinct, new, ordered, apart, rooted, shared, further⟩ := awaits
  rw [List.append_assoc] at distinct new ordered apart rooted shared
  refine ⟨distinct, new, ordered, apart, rooted, shared, ?_⟩
  rw [List.map_append]
  exact List.subset_append_of_subset_right _ further

/-- The second part, when none of its sources has been entered yet. -/
theorem right (awaits : Awaits context roots visible missing (first ++ second) rest scopes)
    (gains : ∀ label, IsPlainName label → label ∈ (second ++ rest).map (·.label) →
      label ∈ keys later → label ∈ keys scopes) :
    Awaits context roots visible missing second rest later := by
  obtain ⟨distinct, new, ordered, apart, rooted, shared, further⟩ := awaits
  rw [List.append_assoc] at distinct new ordered apart rooted shared
  have inside {node : FromNode} (member : node ∈ second ++ rest) : node ∈ first ++ (second ++ rest) :=
    List.mem_append_right _ member
  rw [List.map_append] at distinct
  refine ⟨(List.nodup_append.mp distinct).2.1, fun node member => ?_,
    (List.pairwise_append.mp ordered).2.1, fun node member => apart node (inside member),
    fun node member => rooted node (inside member), fun node seen own member =>
      shared node seen own (inside member), further⟩
  obtain ⟨plain, unknown⟩ := new node (inside member)
  exact ⟨plain, fun known => unknown (gains node.label plain (List.mem_map_of_mem member) known)⟩

/-- Joins for paths enter no sources. -/
theorem grows (awaits : Awaits context roots visible missing given rest scopes)
    (grows : Grows context scopes later) :
    Awaits context roots visible missing given rest later :=
  { awaits with new := fun node member => ⟨(awaits.new node member).1, fun known =>
      (awaits.new node member).2 (grows.mem_keys_of_plain (awaits.new node member).1 known)⟩ }

/-- In a sub-query, its own sources are visible besides. -/
theorem inside {own : List FromNode} (awaits : Awaits context roots visible missing given rest scopes)
    (among : own ⊆ given) : Awaits context roots (own ++ visible) missing given rest scopes := by
  refine { awaits with shared := ?_ }
  intro node seen other member same entity concrete
  rcases List.mem_append.mp seen with here | around
  · obtain rfl := List.inj_on_of_nodup_map awaits.distinct (List.mem_append_left _ (among here)) member
      same
    obtain ⟨_, known⟩ := awaits.rooted node member entity concrete
    exact ⟨entity, known, fun label type found => by rwa [concrete] at found⟩
  · exact awaits.shared node around other member same entity concrete

end Awaits

/-! ## What has been achieved -/

/-- What is to blame stays so where more may be. -/
theorem Blames.mono {missing' reported' ahead ahead' : List String} {error : LoweringError}
    (blames : Blames missing reported ahead error)
    (known : ∀ label ∈ missing, label ∈ reported → label ∈ missing' ∧ label ∈ reported' ∨ label ∈ ahead')
    (more : ahead ⊆ ahead') : Blames missing' reported' ahead' error := by
  cases error with
  | unknownLabel label =>
    rcases blames with ⟨waits, named⟩ | early
    · exact known label waits named
    · exact Or.inr (more early)
  | unsupported reason => trivial
  | crossJoinCondition | missingShape | unmapped => exact blames.elim

/-- What is to blame stays so with more used ahead. -/
theorem Blames.early {ahead ahead' : List String} {error : LoweringError}
    (blames : Blames missing reported ahead error) (more : ahead ⊆ ahead') :
    Blames missing reported ahead' error :=
  blames.mono (fun _ waits named => Or.inl ⟨waits, named⟩) more

/-- A step that blames what is used ahead by a part blames what is used ahead by the whole. -/
theorem Meets.early {α : Type} {step : Lowering α} {state : LoweringState}
    {good : α → LoweringState → Prop} {ahead ahead' : List String}
    (meets : Meets step state (Blames missing reported ahead) good) (more : ahead ⊆ ahead') :
    Meets step state (Blames missing reported ahead') good :=
  meets.weaken (fun _ blames => blames.early more) fun _ _ _ good => good

/-- The trail is entered at one of the levels, or at a sub-select of the result. -/
structure Secured (missing : List String) (layouts : List (List String))
    (levels : List String → List Level) (scopes : List LoweringScope) (trail : Trail) : Prop where
  plain : trail.route.IsPlain
  present : trail.root ∉ missing
  found : trail.name ∈ keys scopes ∨ ∀ outer, Shelters layouts (levels outer) trail

/-- A secured trail stays so with more layouts and more levels. -/
theorem Secured.mono {layouts layouts' : List (List String)} {levels levels' : List String → List Level}
    {trail : Trail} {missing' : List String} (secured : Secured missing layouts levels scopes trail)
    (fewer : missing' ⊆ missing) (among : layouts ⊆ layouts')
    (inside : ∀ outer, levels outer ⊆ levels' outer) (known : keys scopes ⊆ keys later) :
    Secured missing' layouts' levels' later trail :=
  ⟨secured.plain, fun waits => secured.present (fewer waits), secured.found.imp (@known trail.name)
    fun shelters outer => (shelters outer).mono among (inside outer)⟩

/-- The trails are secured, and the sub-selects have tables with names of their own. -/
structure Settled (context : LoweringContext) (roots : String → Option String)
    (missing : List String) (trails : List Trail) (layouts : List (List String))
    (sources : List String) (levels : List String → List Level) (after : LoweringState) : Prop where
  tidy : Tidy context roots after
  trails : ∀ trail ∈ trails, Secured missing layouts levels after.scopes trail
  neat : ∀ outer, (∀ label ∈ outer, IsTable context.catalog roots label) →
    Neat context.catalog roots sources (levels outer)

/-- A group that is entered for a trail shows that its source is not missing. -/
theorem Joined.secured {trail : Trail} (stage : Stage context roots visible missing state)
    (grows : Grows context state.scopes after.scopes) (tidy : Tidy context roots after)
    (joined : Joined after.scopes trail) :
    Secured missing [] (fun _ => []) after.scopes trail := by
  refine ⟨joined.plain, fun waits => ?_, Or.inl joined.known⟩
  obtain ⟨plain, unknown⟩ := stage.absent trail.root waits
  have rooted := tidy.root_mem joined.plain (by simpa using joined.known)
  rw [Trail.root_route] at rooted
  exact unknown (grows.mem_keys_of_plain plain rooted)

/-- Expressions leave no sub-selects. -/
theorem Traced.settled {trails : List Trail} {levels : List String → List Level}
    (traced : Traced context roots trails after) (stage : Stage context roots visible missing state)
    (grows : Grows context state.scopes after.scopes) (flat : ∀ outer, levels outer = []) :
    Settled context roots missing trails [] [] levels after := by
  refine ⟨traced.tidy, fun trail member => ?_, fun outer _ => ?_⟩
  · exact ((traced.joined trail member).secured stage grows traced.tidy).mono
      (List.Subset.refl _) (List.Subset.refl _) (fun _ => List.nil_subset _) (List.Subset.refl _)
  · rw [flat]
    exact .nil

/-- Joins for paths leave what is settled. -/
theorem Settled.grows {trails : List Trail} {layouts : List (List String)} {sources : List String}
    {levels : List String → List Level}
    (settled : Settled context roots missing trails layouts sources levels state)
    (grows : Grows context state.scopes after.scopes) (tidy : Tidy context roots after) :
    Settled context roots missing trails layouts sources levels after :=
  ⟨tidy, fun trail member => (settled.trails trail member).mono (List.Subset.refl _)
    (List.Subset.refl _) (fun _ => List.Subset.refl _) grows.keys_subset, settled.neat⟩

/-- Two parts of a statement, one after the other. -/
theorem Settled.append {first second : List Trail} {layouts layouts' : List (List String)}
    {sources more : List String} {levels levels' whole : List String → List Level}
    (settled : Settled context roots missing first layouts sources levels state)
    (settled' : Settled context roots missing second layouts' more levels' after)
    (grows : Grows context state.scopes after.scopes)
    (different : ∀ source ∈ sources, source ∉ more)
    (divided : ∀ outer, whole outer = levels outer ++ levels' outer) :
    Settled context roots missing (first ++ second) (layouts ++ layouts') (sources ++ more) whole
      after := by
  refine ⟨settled'.tidy, List.forall_mem_append.mpr ⟨fun trail member => ?_, fun trail member => ?_⟩,
    fun outer typed => ?_⟩
  · refine (settled.trails trail member).mono (List.Subset.refl _) (List.subset_append_left _ _)
      (fun outer => ?_) grows.keys_subset
    rw [divided]
    exact List.subset_append_left _ _
  · refine (settled'.trails trail member).mono (List.Subset.refl _) (List.subset_append_right _ _)
      (fun outer => ?_) (List.Subset.refl _)
    rw [divided]
    exact List.subset_append_right _ _
  · rw [divided]
    exact (settled.neat outer typed).append (settled'.neat outer typed) different

end ObjectQuery.Lowering
