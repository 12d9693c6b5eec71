import ObjectQuery.Proofs.Sql.Reading
/-!
# Grouping rows of operators

A right operand with the same associative operator is written without parentheses. Read again, the
row of operators is grouped to the left. `Tree.leftward` groups the rows of each associative operator
to the left and leaves the rest alone; two trees have the same such form if they differ only in the
grouping of these rows. `Tree.reread` is what the reader makes of the tokens: it takes the row for
longer than it is where the row begins with another operator of the same strength. The two agree
exactly on the trees without such a place, which are tight.
-/
namespace ObjectQuery.Sql.Tree

/-- Whether the tree is an operation with the given operator, which is associative. As a right
operand of that operator it is written without parentheses. -/
def continues (op : BinaryOp) : Tree → Bool
  | .binary inner _ _ => inner == op && op.isAssociative
  | _ => false

/-- The tree with `left` and the operator put before its leftmost operand. The row of operands is
followed down the left as long as the operators belong to it. -/
def graft (belongs : BinaryOp → Bool) (op : BinaryOp) (left : Tree) : Tree → Tree
  | .binary inner first second =>
    if belongs inner then .binary inner (graft belongs op left first) second
    else .binary op left (.binary inner first second)
  | tree => .binary op left tree

/-- Whether the operator is the given one. -/
def sameOp (op inner : BinaryOp) : Bool := inner == op

/-- Whether the operator binds as tightly as the given one. -/
def sameStrength (op inner : BinaryOp) : Bool := inner.strength == op.strength

mutual

/-- The tree with rows of operators grouped to the left. A row is a right operand that continues its
operator, and reaches as far as the operators belong to it. -/
def regroup (belongs : BinaryOp → BinaryOp → Bool) : Tree → Tree
  | .binary op left right =>
    if right.continues op then graft (belongs op) op (left.regroup belongs) (right.regroup belongs)
    else .binary op (left.regroup belongs) (right.regroup belongs)
  | .not operand => .not (operand.regroup belongs)
  | .negate operand => .negate (operand.regroup belongs)
  | .call callee distinct arguments => .call callee distinct (regroupAll belongs arguments)
  | .inList test values negated =>
    .inList (test.regroup belongs) (regroupAll belongs values) negated
  | .inQuery test query negated => .inQuery (test.regroup belongs) query negated
  | .between operand low high negated =>
    .between (operand.regroup belongs) (low.regroup belongs) (high.regroup belongs) negated
  | .isNull operand negated => .isNull (operand.regroup belongs) negated
  | .like operand pattern negated =>
    .like (operand.regroup belongs) (pattern.regroup belongs) negated
  | .column table name => .column table name
  | .literal value => .literal value
  | .parameter bound => .parameter bound
  | .star => .star

/-- The trees with rows grouped to the left. -/
def regroupAll (belongs : BinaryOp → BinaryOp → Bool) : List Tree → List Tree
  | [] => []
  | tree :: rest => tree.regroup belongs :: regroupAll belongs rest

end

/-- The tree with every row of an associative operator grouped to the left. -/
def leftward (tree : Tree) : Tree := tree.regroup sameOp

/-- What the reader gives for the tokens of a tree. -/
def reread (tree : Tree) : Tree := tree.regroup sameStrength

/-- Whether the leftmost operand of a row of an operator is no operation that binds as tightly. -/
def startsTight (op : BinaryOp) : Tree → Bool
  | .binary inner first _ => if inner = op then startsTight op first else !sameStrength op inner
  | _ => true

mutual

/-- Whether every row that is a right operand of its own operator starts with an operand that is no
operation of the same strength. -/
def isTight : Tree → Bool
  | .binary op left right =>
    (!right.continues op || right.startsTight op) && left.isTight && right.isTight
  | .not operand | .negate operand | .isNull operand _ | .inQuery operand _ _ => operand.isTight
  | .call _ _ arguments => areTight arguments
  | .inList test values _ => test.isTight && areTight values
  | .between operand low high _ => operand.isTight && low.isTight && high.isTight
  | .like operand pattern _ => operand.isTight && pattern.isTight
  | .column _ _ | .literal _ | .parameter _ | .star => true

/-- Whether all trees are tight. -/
def areTight : List Tree → Bool
  | [] => true
  | tree :: rest => tree.isTight && areTight rest

end

section Graft

variable {op : BinaryOp} {left tree : Tree} {belongs : BinaryOp → Bool}

/-- Grafting adds one operation and nothing else. -/
theorem sizeOf_graft : sizeOf (graft belongs op left tree) =
    1 + sizeOf op + sizeOf left + sizeOf tree := by
  fun_induction graft belongs op left tree with
  | case1 inner first second member ih =>
    simp only [binary.sizeOf_spec, ih]
    omega
  | case2 inner first second other => simp only [binary.sizeOf_spec]
  | case3 tree other => simp only [binary.sizeOf_spec]

/-- The leftmost operand of a row stays the leftmost one if the row is the right part of a longer one,
whose left part decides. -/
theorem startsTight_graft (left tree : Tree) :
    (graft (sameOp op) op left tree).startsTight op = left.startsTight op := by
  fun_induction graft (sameOp op) op left tree with
  | case1 inner first second member ih =>
    have same : inner = op := by simpa [sameOp] using member
    simp [startsTight, same, ih]
  | case2 inner first second other => simp [startsTight]
  | case3 tree other => simp [startsTight]

/-- The row is followed equally far in both ways if it starts tight. -/
theorem graft_eq_iff (left tree : Tree) :
    graft (sameStrength op) op left tree = graft (sameOp op) op left tree ↔
      tree.startsTight op = true := by
  fun_induction startsTight op tree with
  | case1 first second ih =>
    simpa [graft, sameOp, sameStrength] using ih
  | case2 inner first second other =>
    cases strong : sameStrength op inner with
    | true => simp [graft, sameOp, other, strong]
    | false => simp [graft, sameOp, other, strong]
  | case3 tree other => simp [graft]

/-- A row is followed by one step, or the operator is put before the whole tree. -/
theorem graft_cases (belongs : BinaryOp → Bool) (op : BinaryOp) (left tree : Tree) :
    (∃ inner first second, tree = .binary inner first second ∧ belongs inner = true ∧
      graft belongs op left tree = .binary inner (graft belongs op left first) second) ∨
    graft belongs op left tree = .binary op left tree := by
  fun_cases graft belongs op left tree with
  | case1 inner first second member => exact Or.inl ⟨inner, first, second, rfl, member, rfl⟩
  | case2 inner first second other => exact Or.inr rfl
  | case3 tree other => exact Or.inr rfl

/-- If the same tree comes out of both ways, the same parts went in: the size of what stands before
the row tells where the row begins. -/
theorem graft_injective {left' tree' : Tree} (sizes : sizeOf left = sizeOf left')
    (same : graft (sameStrength op) op left tree = graft (sameOp op) op left' tree') :
    left = left' ∧ tree = tree' := by
  fun_induction graft (sameStrength op) op left tree generalizing tree' with
  | case1 inner first second member ih =>
    rcases graft_cases (sameOp op) op left' tree' with ⟨inner', first', second', rfl, _, step⟩ | whole
    · rw [step] at same
      obtain ⟨rfl, further, rfl⟩ := Tree.binary.inj same
      obtain ⟨sameLeft, rfl⟩ := ih further
      exact ⟨sameLeft, rfl⟩
    · rw [whole] at same
      have bigger := congrArg sizeOf (Tree.binary.inj same).2.1
      rw [sizeOf_graft] at bigger
      omega
  | case2 inner first second other | case3 tree other =>
    rcases graft_cases (sameOp op) op left' tree' with ⟨inner', first', second', rfl, _, step⟩ | whole
    · rw [step] at same
      have bigger := congrArg sizeOf (Tree.binary.inj same).2.1
      rw [sizeOf_graft] at bigger
      omega
    · rw [whole] at same
      exact (Tree.binary.inj same).2

end Graft

variable {belongs : BinaryOp → BinaryOp → Bool} {op : BinaryOp}

mutual

/-- Regrouping keeps the size of a tree. -/
theorem sizeOf_regroup : ∀ tree : Tree, sizeOf (tree.regroup belongs) = sizeOf tree
  | .binary op left right => by
    simp only [regroup]
    split
    · simp only [sizeOf_graft, binary.sizeOf_spec, sizeOf_regroup left, sizeOf_regroup right]
    · simp only [binary.sizeOf_spec, sizeOf_regroup left, sizeOf_regroup right]
  | .not operand => by simp only [regroup, not.sizeOf_spec, sizeOf_regroup operand]
  | .negate operand => by simp only [regroup, negate.sizeOf_spec, sizeOf_regroup operand]
  | .call _ _ arguments => by simp only [regroup, call.sizeOf_spec, sizeOf_regroupAll arguments]
  | .inList test values _ => by
    simp only [regroup, inList.sizeOf_spec, sizeOf_regroup test, sizeOf_regroupAll values]
  | .inQuery test _ _ => by simp only [regroup, inQuery.sizeOf_spec, sizeOf_regroup test]
  | .between operand low high _ => by
    simp only [regroup, between.sizeOf_spec, sizeOf_regroup operand, sizeOf_regroup low,
      sizeOf_regroup high]
  | .isNull operand _ => by simp only [regroup, isNull.sizeOf_spec, sizeOf_regroup operand]
  | .like operand pattern _ => by
    simp only [regroup, like.sizeOf_spec, sizeOf_regroup operand, sizeOf_regroup pattern]
  | .column _ _ | .literal _ | .parameter _ | .star => by simp only [regroup]

/-- Regrouping keeps the size of trees. -/
theorem sizeOf_regroupAll : ∀ trees : List Tree, sizeOf (regroupAll belongs trees) = sizeOf trees
  | [] => by simp only [regroupAll]
  | tree :: rest => by
    simp only [regroupAll, List.cons.sizeOf_spec, sizeOf_regroup tree, sizeOf_regroupAll rest]

end

/-- A tree that continues an operator is an operation with it. -/
theorem continues_iff {tree : Tree} : tree.continues op = true ↔
    op.isAssociative = true ∧ ∃ first second, tree = .binary op first second := by
  fun_cases continues op tree with
  | case1 inner first second =>
    simp only [Bool.and_eq_true, beq_iff_eq, binary.injEq]
    constructor
    · rintro ⟨rfl, associative⟩
      exact ⟨associative, first, second, rfl, rfl, rfl⟩
    · rintro ⟨associative, _, _, rfl, _, _⟩
      exact ⟨rfl, associative⟩
  | case2 tree other =>
    simp only [Bool.false_eq_true, false_iff, not_and, not_exists]
    intro _ first second same
    exact other _ _ _ same

/-- The operator of an operation stays. -/
theorem regroup_binary (belongs : BinaryOp → BinaryOp → Bool) (op : BinaryOp) :
    ∀ left right : Tree, ∃ first second,
      (binary op left right).regroup belongs = .binary op first second
  | left, right => by
    simp only [regroup]
    split
    · rename_i continued
      obtain ⟨_, inner, last, rfl⟩ := continues_iff.mp continued
      obtain ⟨first, second, same⟩ := regroup_binary belongs op inner last
      rw [same]
      rcases graft_cases (belongs op) op (left.regroup belongs) (.binary op first second) with
        ⟨_, _, _, parts, _, step⟩ | whole
      · obtain ⟨rfl, _, _⟩ := Tree.binary.inj parts
        exact ⟨_, _, step⟩
      · exact ⟨_, _, whole⟩
    · exact ⟨_, _, rfl⟩

/-- A regrouped tree continues an operator if the tree did. -/
theorem continues_regroup (tree : Tree) :
    (tree.regroup belongs).continues op = tree.continues op := by
  cases tree with
  | binary inner left right =>
    obtain ⟨first, second, same⟩ := regroup_binary belongs inner left right
    simp only [same, continues]
  | _ => simp only [regroup, continues]

/-- Grouping the rows of each operator leaves what they start with. -/
theorem startsTight_leftward (tree : Tree) :
    tree.leftward.startsTight op = tree.startsTight op := by
  fun_induction startsTight op tree with
  | case1 left right ih =>
    simp only [leftward, regroup] at ih ⊢
    split
    · rw [startsTight_graft, ih]
    · rw [startsTight, if_pos rfl, ih]
  | case2 inner left right other =>
    obtain ⟨first, second, same⟩ := regroup_binary sameOp inner left right
    rw [leftward, same, startsTight, if_neg other]
  | case3 tree other =>
    cases tree with
    | binary inner left right => exact (other _ _ _ rfl).elim
    | _ => simp only [leftward, regroup, startsTight]

mutual

/-- The reader groups a tree to the left exactly if it is tight.

Proof: by recursion over the tree. Where the right operand goes on with the operator, both
regroupings graft it, and the grafts agree exactly if it starts tightly. -/
theorem reread_eq_iff : ∀ tree : Tree,
    tree.regroup sameStrength = tree.regroup sameOp ↔ tree.isTight = true
  | .binary op left right => by
    have parts := and_congr (reread_eq_iff left) (reread_eq_iff right)
    simp only [regroup, isTight, Bool.and_eq_true, Bool.or_eq_true, Bool.not_eq_true', and_assoc]
    rw [← parts]
    cases continued : right.continues op with
    | false => simp
    | true =>
      simp only [if_true, Bool.true_eq_false, false_or]
      constructor
      · intro same
        have sizes : sizeOf (left.regroup sameStrength) = sizeOf (left.regroup sameOp) := by
          rw [sizeOf_regroup, sizeOf_regroup]
        obtain ⟨sameLeft, sameRight⟩ := graft_injective sizes same
        rw [sameLeft, sameRight] at same
        have starts := (graft_eq_iff _ _).mp same
        exact ⟨startsTight_leftward right ▸ starts, sameLeft, sameRight⟩
      · rintro ⟨starts, sameLeft, sameRight⟩
        rw [sameLeft, sameRight]
        exact (graft_eq_iff _ _).mpr ((startsTight_leftward right).trans starts)
  | .not operand => by simp only [regroup, isTight, not.injEq, reread_eq_iff operand]
  | .negate operand => by simp only [regroup, isTight, negate.injEq, reread_eq_iff operand]
  | .call _ _ arguments => by
    simp only [regroup, isTight, call.injEq, true_and, rereadAll_eq_iff arguments]
  | .inList test values _ => by
    simp only [regroup, isTight, inList.injEq, and_true, Bool.and_eq_true, reread_eq_iff test,
      rereadAll_eq_iff values]
  | .inQuery test _ _ => by
    simp only [regroup, isTight, inQuery.injEq, and_true, reread_eq_iff test]
  | .between operand low high _ => by
    simp only [regroup, isTight, between.injEq, and_true, Bool.and_eq_true, reread_eq_iff operand,
      reread_eq_iff low, reread_eq_iff high, and_assoc]
  | .isNull operand _ => by
    simp only [regroup, isTight, isNull.injEq, and_true, reread_eq_iff operand]
  | .like operand pattern _ => by
    simp only [regroup, isTight, like.injEq, and_true, Bool.and_eq_true, reread_eq_iff operand,
      reread_eq_iff pattern]
  | .column _ _ | .literal _ | .parameter _ | .star => by simp [regroup, isTight]

/-- Trees are read back as they were meant if all of them are tight. -/
theorem rereadAll_eq_iff : ∀ trees : List Tree,
    regroupAll sameStrength trees = regroupAll sameOp trees ↔ areTight trees = true
  | [] => by simp [regroupAll, areTight]
  | tree :: rest => by
    simp only [regroupAll, areTight, List.cons.injEq, Bool.and_eq_true, reread_eq_iff tree,
      rereadAll_eq_iff rest]

end

mutual

/-- Whether no right operand continues its operator. -/
def isGrouped : Tree → Bool
  | .binary op left right => !right.continues op && left.isGrouped && right.isGrouped
  | .not operand | .negate operand | .isNull operand _ | .inQuery operand _ _ => operand.isGrouped
  | .call _ _ arguments => areGrouped arguments
  | .inList test values _ => test.isGrouped && areGrouped values
  | .between operand low high _ => operand.isGrouped && low.isGrouped && high.isGrouped
  | .like operand pattern _ => operand.isGrouped && pattern.isGrouped
  | .column _ _ | .literal _ | .parameter _ | .star => true

/-- Whether all trees are grouped. -/
def areGrouped : List Tree → Bool
  | [] => true
  | tree :: rest => tree.isGrouped && areGrouped rest

end

mutual

/-- A tree that is grouped stays as it is. -/
theorem regroup_of_isGrouped : ∀ tree : Tree, tree.isGrouped = true → tree.regroup belongs = tree
  | .binary op left right, grouped => by
    simp only [isGrouped, Bool.and_eq_true, Bool.not_eq_true'] at grouped
    simp [regroup, grouped.1.1, regroup_of_isGrouped left grouped.1.2,
      regroup_of_isGrouped right grouped.2]
  | .not operand, grouped | .negate operand, grouped | .isNull operand _, grouped
  | .inQuery operand _ _, grouped => by
    simp only [isGrouped] at grouped
    simp only [regroup, regroup_of_isGrouped operand grouped]
  | .call _ _ arguments, grouped => by
    simp only [isGrouped] at grouped
    simp only [regroup, regroupAll_of_areGrouped arguments grouped]
  | .inList test values _, grouped => by
    simp only [isGrouped, Bool.and_eq_true] at grouped
    simp only [regroup, regroup_of_isGrouped test grouped.1,
      regroupAll_of_areGrouped values grouped.2]
  | .between operand low high _, grouped => by
    simp only [isGrouped, Bool.and_eq_true] at grouped
    simp only [regroup, regroup_of_isGrouped operand grouped.1.1,
      regroup_of_isGrouped low grouped.1.2, regroup_of_isGrouped high grouped.2]
  | .like operand pattern _, grouped => by
    simp only [isGrouped, Bool.and_eq_true] at grouped
    simp only [regroup, regroup_of_isGrouped operand grouped.1,
      regroup_of_isGrouped pattern grouped.2]
  | .column _ _, _ | .literal _, _ | .parameter _, _ | .star, _ => by simp only [regroup]

/-- Grouped trees are not regrouped. -/
theorem regroupAll_of_areGrouped : ∀ trees : List Tree, areGrouped trees = true →
    regroupAll belongs trees = trees
  | [], _ => by simp only [regroupAll]
  | tree :: rest, grouped => by
    simp only [areGrouped, Bool.and_eq_true] at grouped
    simp only [regroupAll, regroup_of_isGrouped tree grouped.1,
      regroupAll_of_areGrouped rest grouped.2]

end

/-- Putting a grouped tree before a grouped row gives a grouped tree. -/
theorem isGrouped_graft {own : BinaryOp → Bool} {left tree : Tree} (reflexive : own op = true)
    (grouped : left.isGrouped = true) (groupedTree : tree.isGrouped = true) :
    (graft own op left tree).isGrouped = true := by
  fun_induction graft own op left tree with
  | case1 inner first second member ih =>
    simp only [isGrouped, Bool.and_eq_true] at groupedTree ⊢
    exact ⟨⟨groupedTree.1.1, ih groupedTree.1.2⟩, groupedTree.2⟩
  | case2 inner first second other =>
    have alone : (binary inner first second).continues op = false := by
      have foreign : inner ≠ op := fun same => other (same ▸ reflexive)
      simp [continues, foreign]
    simp only [isGrouped.eq_1 op, alone, grouped, groupedTree, Bool.not_false, Bool.and_self]
  | case3 tree other =>
    have alone : tree.continues op = false := by
      refine Bool.eq_false_iff.mpr fun continued => ?_
      obtain ⟨_, first, second, same⟩ := continues_iff.mp continued
      exact other _ _ _ same
    simp only [isGrouped, alone, grouped, groupedTree, Bool.not_false, Bool.and_self]

mutual

/-- Grouping leaves nothing to group. -/
theorem isGrouped_regroup (reflexive : ∀ op, belongs op op = true) : ∀ tree : Tree,
    (tree.regroup belongs).isGrouped = true
  | .binary op left right => by
    have groupedLeft := isGrouped_regroup reflexive left
    have groupedRight := isGrouped_regroup reflexive right
    simp only [regroup]
    split
    · exact isGrouped_graft (reflexive op) groupedLeft groupedRight
    · rename_i alone
      simp [isGrouped, continues_regroup, alone, groupedLeft, groupedRight]
  | .not operand | .negate operand | .isNull operand _ | .inQuery operand _ _ => by
    simp only [regroup, isGrouped, isGrouped_regroup reflexive operand]
  | .call _ _ arguments => by
    simp only [regroup, isGrouped, areGrouped_regroupAll reflexive arguments]
  | .inList test values _ => by
    simp only [regroup, isGrouped, isGrouped_regroup reflexive test,
      areGrouped_regroupAll reflexive values, Bool.and_self]
  | .between operand low high _ => by
    simp only [regroup, isGrouped, isGrouped_regroup reflexive operand,
      isGrouped_regroup reflexive low, isGrouped_regroup reflexive high, Bool.and_self]
  | .like operand pattern _ => by
    simp only [regroup, isGrouped, isGrouped_regroup reflexive operand,
      isGrouped_regroup reflexive pattern, Bool.and_self]
  | .column _ _ | .literal _ | .parameter _ | .star => by simp only [regroup, isGrouped]

/-- Regrouped trees are grouped. -/
theorem areGrouped_regroupAll (reflexive : ∀ op, belongs op op = true) : ∀ trees : List Tree,
    areGrouped (regroupAll belongs trees) = true
  | [] => by simp only [regroupAll, areGrouped]
  | tree :: rest => by
    simp only [regroupAll, areGrouped, isGrouped_regroup reflexive tree,
      areGrouped_regroupAll reflexive rest, Bool.and_self]

end

/-- What the reader gives differs from the tree only in the grouping of rows exactly if the tree is
tight. -/
theorem leftward_reread_iff (tree : Tree) :
    tree.reread.leftward = tree.leftward ↔ tree.isTight = true := by
  have grouped : tree.reread.isGrouped = true :=
    isGrouped_regroup (fun op => by simp [sameStrength]) tree
  have same : tree.reread.leftward = tree.reread := regroup_of_isGrouped _ grouped
  rw [same]
  exact reread_eq_iff tree

/-- Grafting one after the other is grafting what was grafted. -/
theorem graft_assoc {own : BinaryOp → Bool} {inner : BinaryOp} (member : own inner = true)
    (first second third : Tree) : graft own op first (graft own inner second third) =
      graft own inner (graft own op first second) third := by
  fun_induction graft own inner second third with
  | case1 last front back belongs ih =>
    simp only [graft, belongs, if_true]
    rw [ih]
  | case2 last front back other =>
    simp only [graft, member, other, if_true, if_false, Bool.false_eq_true]
  | case3 tree other =>
    rw [graft.eq_2 _ _ _ _ other]
    simp only [graft, member, if_true]

/-- Turning an associative operation to the left grafts its operands. -/
theorem leftward_binary (associative : op.isAssociative = true) (left right : Tree) :
    (binary op left right).leftward = graft (sameOp op) op left.leftward right.leftward := by
  simp only [leftward, regroup]
  split
  · rfl
  · rename_i alone
    rcases graft_cases (sameOp op) op (left.regroup sameOp) (right.regroup sameOp) with
      ⟨inner, first, second, parts, member, _⟩ | whole
    · have same : inner = op := by simpa [sameOp] using member
      have continued : (right.regroup sameOp).continues op = true :=
        continues_iff.mpr ⟨associative, first, second, same ▸ parts⟩
      exact (alone (continues_regroup right ▸ continued)).elim
    · exact whole.symm

/-- The grouping of three operands of an associative operator does not matter. -/
theorem leftward_assoc (associative : op.isAssociative = true) (first second third : Tree) :
    (binary op first (binary op second third)).leftward =
      (binary op (binary op first second) third).leftward := by
  have own : sameOp op op = true := by simp [sameOp]
  simp only [leftward_binary associative, graft_assoc own]

end ObjectQuery.Sql.Tree
