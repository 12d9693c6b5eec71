import ObjectQuery.Resolved.Rewriting
/-!
# Places of predicates

A predicate stands directly inside another one as an operand, as the condition of a sub-query or as the
condition of a join of a sub-query. A place is a way inwards along such branches, so that equal
predicates at two places are told apart. The predicate at a place can be read, and it can be rewritten
where it stands.

Rewriting a predicate as a whole rewrites one place after the other, each of them once: those that no
join leads to, and a place after those further in.
-/
namespace ObjectQuery.Resolved

/-- Where a predicate stands directly inside another one. A join has the number of its item of the
from-clause and its own number there. -/
inductive Branch where
  | left | right | operand | filter
  | join (space join : Nat)
  deriving DecidableEq, Repr

/-- Whether the branch leads to the condition of a join. -/
def Branch.isJoin : Branch → Bool
  | .join _ _ => true
  | _ => false

/-! ## Conditions of joins -/

section Joins

variable {π : Type}

/-- The condition of a join, if there are such a join and a condition. -/
def Query.joinCondition? (query : Query π) (space join : Nat) : Option π :=
  query.spaces[space]?.bind fun item => item.joins[join]?.bind (·.predicate)

/-- The join with another condition. -/
def Join.withCondition (condition : π) (join : Join π) : Join π :=
  { join with predicate := some condition }

/-- The item of a from-clause with another condition for one of its joins. -/
def FromSpace.withCondition (join : Nat) (condition : π) (space : FromSpace π) : FromSpace π :=
  { space with joins := space.joins.modify join (Join.withCondition condition) }

/-- The query with another condition for one of its joins. -/
def Query.withCondition (space join : Nat) (condition : π) (query : Query π) : Query π :=
  { query with spaces := query.spaces.modify space (FromSpace.withCondition join condition) }

variable {query : Query π} {space join : Nat} {condition : π}

/-- A join condition is found at the space and the join that hold it. -/
theorem Query.joinCondition?_eq_some : query.joinCondition? space join = some condition ↔
    ∃ item listed, query.spaces[space]? = some item ∧ item.joins[join]? = some listed ∧
      listed.predicate = some condition := by
  simp [joinCondition?, Option.bind_eq_some_iff]

/-- A condition that was put in is found in its place. -/
theorem Query.joinCondition?_withCondition (found : query.joinCondition? space join = some condition)
    (new : π) : (query.withCondition space join new).joinCondition? space join = some new := by
  obtain ⟨item, listed, atSpace, atJoin, -⟩ := joinCondition?_eq_some.mp found
  refine joinCondition?_eq_some.mpr
    ⟨item.withCondition join new, listed.withCondition new, ?_, ?_, rfl⟩
  · simp [withCondition, atSpace]
  · simp [FromSpace.withCondition, atJoin]

/-- Changing an entry to itself changes nothing. -/
theorem modify_same {α : Type} {items : List α} {number : Nat} {item : α} {change : α → α}
    (found : items[number]? = some item) (same : change item = item) :
    items.modify number change = items := by
  refine List.ext_getElem? fun index => ?_
  by_cases here : number = index
  · subst here
    simp [found, same]
  · simp [here]

/-- Putting a condition back changes nothing. -/
theorem Query.withCondition_self (found : query.joinCondition? space join = some condition) :
    query.withCondition space join condition = query := by
  obtain ⟨item, listed, atSpace, atJoin, stands⟩ := joinCondition?_eq_some.mp found
  have joinKept : listed.withCondition condition = listed := by
    simp [Join.withCondition, ← stands]
  have spaceKept : item.withCondition join condition = item := by
    simp [FromSpace.withCondition, modify_same atJoin joinKept]
  simp [withCondition, modify_same atSpace spaceKept]

/-- Of two conditions put into a join the second stays. -/
theorem FromSpace.withCondition_again (first second : π) :
    FromSpace.withCondition join second ∘ FromSpace.withCondition join first =
      FromSpace.withCondition join second := by
  funext item
  simp [FromSpace.withCondition, List.modify_modify_eq]
  rfl

/-- Of two conditions put into one place of a query the second stays. -/
theorem Query.withCondition_again (first second : π) :
    (query.withCondition space join first).withCondition space join second =
      query.withCondition space join second := by
  simp [withCondition, List.modify_modify_eq, FromSpace.withCondition_again]

end Joins

/-! ## One branch -/

namespace Predicate

/-- The predicate at a branch. -/
def part? : Predicate → Branch → Option Predicate
  | .and left _, .left | .or left _, .left => some left
  | .and _ right, .right | .or _ right, .right => some right
  | .not operand, .operand => some operand
  | .inQuery _ query _, .filter => query.filter
  | .inQuery _ query _, .join space join => query.joinCondition? space join
  | _, _ => none

/-- The predicate with another one at a branch. -/
def withPart : Predicate → Branch → Predicate → Predicate
  | .and _ right, .left, new => .and new right
  | .or _ right, .left, new => .or new right
  | .and left _, .right, new => .and left new
  | .or left _, .right, new => .or left new
  | .not _, .operand, new => .not new
  | .inQuery test query negated, .filter, new =>
    .inQuery test { query with filter := some new } negated
  | .inQuery test query negated, .join space join, new =>
    .inQuery test (query.withCondition space join new) negated
  | predicate, _, _ => predicate

variable {branch : Branch} {predicate part : Predicate}

/-- A part that was put in is found in its place. -/
theorem part?_withPart (found : predicate.part? branch = some part) (new : Predicate) :
    (predicate.withPart branch new).part? branch = some new := by
  unfold part? at found
  split at found
  case h_7 => exact Query.joinCondition?_withCondition found new
  case h_8 => cases found
  all_goals rfl

/-- Putting a part back changes nothing. -/
theorem withPart_self (found : predicate.part? branch = some part) :
    predicate.withPart branch part = predicate := by
  unfold part? at found
  split at found
  case h_6 test query negated => simp [withPart, ← found]
  case h_7 test query negated space join => simp [withPart, Query.withCondition_self found]
  case h_8 => cases found
  all_goals cases found; rfl

/-- Of two parts put into one place the second stays. -/
theorem withPart_again (found : predicate.part? branch = some part) (first second : Predicate) :
    (predicate.withPart branch first).withPart branch second = predicate.withPart branch second := by
  unfold part? at found
  split at found
  case h_7 test query negated space join => simp [withPart, Query.withCondition_again]
  case h_8 => cases found
  all_goals rfl

end Predicate

/-! ## Places -/

/-- A way inwards, one branch after the other. -/
abbrev Place := List Branch

namespace Predicate

/-- The predicate at a place. -/
def at? : Predicate → Place → Option Predicate
  | predicate, [] => some predicate
  | predicate, branch :: inwards => (predicate.part? branch).bind (·.at? inwards)

section Rewriting

variable {σ : Type} (f : Predicate → StateM σ Predicate)

/-- Rewrites the predicate at a place, and nothing if there is none. -/
def rewriteAt : Predicate → Place → StateM σ Predicate
  | predicate, [] => f predicate
  | predicate, branch :: inwards =>
    match predicate.part? branch with
    | none => return predicate
    | some part => do
      let new ← part.rewriteAt inwards
      return predicate.withPart branch new

/-- Rewrites the predicates at places one after the other. -/
def rewriteEach (predicate : Predicate) (places : List Place) : StateM σ Predicate :=
  places.foldlM (rewriteAt f) predicate

variable {f} {branch : Branch} {predicate part : Predicate}

/-- Places may be rewritten in two lists. -/
theorem rewriteEach_append (first second : List Place) : predicate.rewriteEach f (first ++ second) =
    predicate.rewriteEach f first >>= fun new => new.rewriteEach f second :=
  List.foldlM_append

/-- Rewriting the place of the whole rewrites the whole. -/
theorem rewriteEach_self : predicate.rewriteEach f [[]] = f predicate := by
  simp [rewriteEach, rewriteAt]

/-- Rewriting at places behind one branch rewrites what stands there. -/
theorem rewriteEach_behind (found : predicate.part? branch = some part) (places : List Place) :
    predicate.rewriteEach f (places.map (branch :: ·)) = do
      let new ← part.rewriteEach f places
      return predicate.withPart branch new := by
  induction places generalizing predicate part with
  | nil => simp [rewriteEach, withPart_self found]
  | cons place rest ih =>
    have step : predicate.rewriteAt f (branch :: place) = do
        let new ← part.rewriteAt f place
        return predicate.withPart branch new := by simp only [rewriteAt, found]
    have onwards : ∀ new : Predicate,
        (rest.map (branch :: ·)).foldlM (rewriteAt f) (predicate.withPart branch new) = do
          let last ← rest.foldlM (rewriteAt f) new
          return predicate.withPart branch last := fun new => by
      simpa only [rewriteEach, withPart_again found] using ih (part?_withPart found new)
    simp [rewriteEach, step, onwards]

/-- What is inside comes first. -/
theorem rewriteEach_part (found : predicate.part? branch = some part) (places : List Place) :
    predicate.rewriteEach f (places.map (branch :: ·) ++ [[]]) =
      part.rewriteEach f places >>= fun new => f (predicate.withPart branch new) := by
  simp [rewriteEach_append, rewriteEach_self, rewriteEach_behind found]

/-- The operand on the right is rewritten in what the one on the left has left behind. -/
theorem rewriteEach_operands {left right : Predicate} (found : predicate.part? .left = some left)
    (foundNext : ∀ new, (predicate.withPart .left new).part? .right = some right)
    (first second : List Place) :
    predicate.rewriteEach f (first.map (.left :: ·) ++ second.map (.right :: ·) ++ [[]]) =
      left.rewriteEach f first >>= fun newLeft => right.rewriteEach f second >>= fun newRight =>
        f ((predicate.withPart .left newLeft).withPart .right newRight) := by
  simp [rewriteEach_append, rewriteEach_self, rewriteEach_behind found,
    rewriteEach_behind (foundNext _)]

end Rewriting

/-! ## The places that are rewritten -/

mutual

/-- The places of the predicates that a rewriting meets, in its order. -/
def reached : Predicate → List Place
  | .and left right | .or left right =>
    left.reached.map (.left :: ·) ++ right.reached.map (.right :: ·) ++ [[]]
  | .not operand => operand.reached.map (.operand :: ·) ++ [[]]
  | .inQuery _ ⟨_, _, _, filter⟩ _ => reachedFilter filter ++ [[]]
  | _ => [[]]

/-- The places in the condition of a sub-query. -/
def reachedFilter : Option Predicate → List Place
  | none => []
  | some predicate => predicate.reached.map (.filter :: ·)

end

/-- A rewriting rewrites each of its places where it stands, one after the other. -/
theorem rewrite_eq {σ : Type} (f : Predicate → StateM σ Predicate) :
    ∀ predicate : Predicate, predicate.rewrite f = predicate.rewriteEach f predicate.reached
  | .and left right | .or left right => by
    rw [reached, rewriteEach_operands rfl fun _ => rfl]
    simp [rewrite, withPart, left.rewrite_eq f, right.rewrite_eq f]
  | .not operand => by
    rw [reached, rewriteEach_part rfl]
    simp [rewrite, withPart, operand.rewrite_eq f]
  | .inQuery test ⟨spaces, distinct, selections, none⟩ negated => by
    simp [rewrite, reached, rewriteCondition, reachedFilter, rewriteEach_self]
  | .inQuery test ⟨spaces, distinct, selections, some filter⟩ negated => by
    rw [reached, reachedFilter, rewriteEach_part rfl]
    simp [rewrite, rewriteCondition, withPart, filter.rewrite_eq f]
  | .compare _ _ _ | .inList _ _ _ | .memberOf _ _ _ | .isNull _ _ | .like _ _ _ | .between _ _ _ _ => by
    simp [rewrite, reached, rewriteEach_self]

/-- What is met at the places is listed by `inside`. -/
theorem map_at?_reached : ∀ predicate : Predicate,
    predicate.reached.map predicate.at? = predicate.inside.map some
  | .and left right | .or left right => by
    simp [reached, inside, at?, part?, Function.comp_def, ← left.map_at?_reached,
      ← right.map_at?_reached]
  | .not operand => by
    simp [reached, inside, at?, part?, Function.comp_def, ← operand.map_at?_reached]
  | .inQuery test ⟨spaces, distinct, selections, none⟩ negated => by
    simp [reached, inside, reachedFilter, filterInside, at?]
  | .inQuery test ⟨spaces, distinct, selections, some filter⟩ negated => by
    simp [reached, inside, reachedFilter, filterInside, at?, part?, Function.comp_def,
      ← filter.map_at?_reached]
  | .compare _ _ _ | .inList _ _ _ | .memberOf _ _ _ | .isNull _ _ | .like _ _ _ | .between _ _ _ _ => by
    simp [reached, inside, at?]

/-- A place is met exactly if a predicate stands there and no join leads to it. -/
theorem mem_reached : ∀ (predicate : Predicate) (place : Place), place ∈ predicate.reached ↔
    (predicate.at? place).isSome ∧ ∀ branch ∈ place, branch.isJoin = false
  | predicate, [] => by
    fun_cases reached predicate <;> simp [at?]
  | .and left right, branch :: inwards | .or left right, branch :: inwards => by
    cases branch <;>
      simp [reached, at?, part?, Branch.isJoin, left.mem_reached inwards, right.mem_reached inwards]
  | .not operand, branch :: inwards => by
    cases branch <;> simp [reached, at?, part?, Branch.isJoin, operand.mem_reached inwards]
  | .inQuery test ⟨spaces, distinct, selections, none⟩ negated, branch :: inwards => by
    cases branch <;> simp [reached, reachedFilter, at?, part?, Branch.isJoin]
  | .inQuery test ⟨spaces, distinct, selections, some filter⟩ negated, branch :: inwards => by
    cases branch <;>
      simp [reached, reachedFilter, at?, part?, Branch.isJoin, filter.mem_reached inwards]
  | .compare _ _ _, branch :: _ | .inList _ _ _, branch :: _ | .memberOf _ _ _, branch :: _
  | .isNull _ _, branch :: _ | .like _ _ _, branch :: _ | .between _ _ _ _, branch :: _ => by
    simp [reached, at?, part?]

/-- A place comes after those further in. -/
theorem pairwise_reached : ∀ predicate : Predicate,
    predicate.reached.Pairwise fun earlier later => ¬ earlier <+: later
  | .and left right | .or left right => by
    simp only [reached, List.append_assoc, List.pairwise_append, List.pairwise_map,
      List.cons_prefix_cons, true_and, left.pairwise_reached, right.pairwise_reached]
    refine ⟨⟨List.pairwise_singleton _ _, ?_⟩, ?_⟩
    · simp
    · simp only [List.mem_map, List.mem_append, List.mem_singleton]
      rintro _ ⟨_, -, rfl⟩ _ (⟨_, -, rfl⟩ | rfl) <;> simp
  | .not operand => by
    simp [reached, List.pairwise_append, List.pairwise_map, operand.pairwise_reached]
  | .inQuery test ⟨spaces, distinct, selections, none⟩ negated => by
    simp [reached, reachedFilter]
  | .inQuery test ⟨spaces, distinct, selections, some filter⟩ negated => by
    simp [reached, reachedFilter, List.pairwise_append, List.pairwise_map, filter.pairwise_reached]
  | .compare _ _ _ | .inList _ _ _ | .memberOf _ _ _ | .isNull _ _ | .like _ _ _ | .between _ _ _ _ =>
    List.pairwise_singleton _ _

/-- No place is reached twice. -/
theorem nodup_reached (predicate : Predicate) : predicate.reached.Nodup := by
  refine predicate.pairwise_reached.imp ?_
  rintro place _ apart rfl
  exact apart List.prefix_rfl

end Predicate

end ObjectQuery.Resolved
