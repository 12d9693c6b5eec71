import Mathlib.Data.List.Basic
import ObjectQuery.Document.Written
/-!
# JSON texts are read back

A value without numbers, written without spaces, is the value that is read from its text.
-/
namespace ObjectQuery.Document

/-- What is read back one by one is read back as a list. -/
theorem mapM_written {α β : Type} {write : α → β} {read : β → Option α}
    (back : ∀ item, read (write item) = some item) (items : List α) :
    (items.map write).mapM read = some items := by
  induction items with
  | nil => rfl
  | cons item rest inductionHypothesis =>
    rw [List.map_cons, List.mapM_cons, back, inductionHypothesis]
    rfl

/-- The value is made of truth values, texts, lists and records: there are no numbers in it. -/
inductive Value.IsNumberless : Value → Prop
  | null : IsNumberless .null
  | boolean (value : Bool) : IsNumberless (.boolean value)
  | text (content : String) : IsNumberless (.text content)
  | list {items : List Value} (each : ∀ item ∈ items, IsNumberless item) : IsNumberless (.list items)
  | record {members : List (String × Value)} (each : ∀ member ∈ members, IsNumberless member.2) :
    IsNumberless (.record members)

namespace Json

variable {fuel : Nat} {rest : List Char}

/-! ## Strings -/

/-- The number of a control character is written with four digits. -/
theorem unitItem?_control {c : Char} (control : c.toNat < 32) :
    unitItem? ('0' :: '0' :: hexChar (c.toNat / 16) :: hexChar (c.toNat % 16) :: rest) =
      some (some c, rest) := by
  have digits : ∀ number < 32,
      hexValue? ['0', '0', hexChar (number / 16), hexChar (number % 16)] = some number := by decide
  have whole : isTrailing c.toNat = false ∧ isLeading c.toNat = false := by
    simp only [isTrailing, isLeading, Bool.and_eq_false_iff, decide_eq_false_iff_not]
    omega
  simp [unitItem?, hexUnit?, digits c.toNat control, whole]

/-- A backslash and a letter are read as the character they escape. -/
theorem stringWithin_letter {c item : Char} (letter : c ≠ 'u') (known : escaped? c = some item)
    (cs : List Char) : stringWithin (fuel + 1) ('\\' :: c :: cs) =
      (stringWithin fuel cs).map fun (items, rest) => (some item :: items, rest) := by
  rw [stringWithin]
  · rw [known]
    cases stringWithin fuel cs <;> rfl
  · exact letter

/-- A control character is read back from its four hexadecimal digits. -/
theorem stringWithin_control {c : Char} (control : c.toNat < 32) (cs : List Char) :
    stringWithin (fuel + 1)
        ('\\' :: 'u' :: '0' :: '0' :: hexChar (c.toNat / 16) :: hexChar (c.toNat % 16) :: cs) =
      (stringWithin fuel cs).map fun (items, rest) => (some c :: items, rest) := by
  rw [stringWithin, unitItem?_control control, Option.bind_eq_bind, Option.bind_some]
  dsimp only
  cases stringWithin fuel cs <;> rfl

/-- Any other character is read as itself. -/
theorem stringWithin_plain {c : Char} (printed : ¬ c.toNat < 32) (mark : c ≠ '"') (slash : c ≠ '\\')
    (cs : List Char) : stringWithin (fuel + 1) (c :: cs) =
      (stringWithin fuel cs).map fun (items, rest) => (some c :: items, rest) := by
  rw [stringWithin]
  · rw [if_neg (by simpa [slash] using printed)]
    cases stringWithin fuel cs <;> rfl
  · exact mark
  · exact fun _ same => absurd same slash
  · exact fun _ _ same => absurd same slash

/-- One item is read from the characters that stand for a character. -/
theorem stringWithin_escape (c : Char) (cs : List Char) :
    stringWithin (fuel + 1) (escape c ++ cs) =
      (stringWithin fuel cs).map fun (items, rest) => (some c :: items, rest) := by
  unfold escape
  split
  case h_8 mark slash _ _ _ _ _ =>
    split
    · rename_i control
      exact stringWithin_control control cs
    · rename_i printed
      exact stringWithin_plain printed mark slash cs
  all_goals exact stringWithin_letter (by decide) rfl cs

/-- The characters of a string are read back up to its closing mark. -/
theorem stringWithin_written (content : List Char) (enough : content.length < fuel) :
    stringWithin fuel (content.flatMap escape ++ '"' :: rest) = some (content.map some, rest) := by
  induction content generalizing fuel with
  | nil =>
    cases fuel with
    | zero => exact absurd enough (Nat.lt_irrefl 0)
    | succ fuel => simp [stringWithin]
  | cons c content inductionHypothesis =>
    cases fuel with
    | zero => exact absurd enough (Nat.not_lt_zero _)
    | succ fuel =>
      rw [List.flatMap_cons, List.append_assoc, stringWithin_escape,
        inductionHypothesis (Nat.lt_of_succ_lt_succ enough)]
      rfl

/-- A character is written with at least one character. -/
theorem escape_ne_nil (c : Char) : escape c ≠ [] := by
  unfold escape
  split
  case h_8 => split <;> exact List.cons_ne_nil _ _
  all_goals exact List.cons_ne_nil _ _

/-- A text is read back from between its marks. -/
theorem string?_written (content : String) :
    string? (content.toList.flatMap escape ++ '"' :: rest) = some (some content, rest) := by
  have enough : content.toList.length <
      (content.toList.flatMap escape ++ '"' :: rest).length + 1 := by
    have each : ∀ cs : List Char, cs.length ≤ (cs.flatMap escape).length := by
      intro cs
      induction cs with
      | nil => exact Nat.le_refl _
      | cons c cs inductionHypothesis =>
        have some := List.length_pos_of_ne_nil (escape_ne_nil c)
        simp only [List.flatMap_cons, List.length_append, List.length_cons]
        omega
    have bound := each content.toList
    rw [List.length_append]
    omega
  have plain : ∀ c : Char, id (some c) = some c := fun _ => rfl
  have items : (content.toList.map some).mapM id = some content.toList := mapM_written plain _
  rw [string?, stringWithin_written _ enough, Option.bind_eq_bind, Option.bind_some]
  simp [items]

/-! ## Lists and records -/

/-- The characters of texts with a comma before each. -/
def continued (texts : List String) : List Char := texts.flatMap fun text => ',' :: text.toList

/-- Texts with commas between are the first and the rest led by commas. -/
theorem toList_intercalate_cons (text : String) (texts : List String) :
    (",".intercalate (text :: texts)).toList = text.toList ++ continued texts := by
  induction texts generalizing text with
  | nil => simp [continued]
  | cons next texts inductionHypothesis =>
    rw [String.intercalate_cons_cons, String.toList_append, inductionHypothesis]
    simp [continued]

/-- The items of a list are written one by one. -/
theorem compactItems_eq_map (items : List Value) : compactItems items = items.map compact := by
  induction items with
  | nil => rfl
  | cons item rest inductionHypothesis => rw [compactItems, inductionHypothesis, List.map_cons]

/-- The text of a member of a record. -/
def memberText (member : String × Value) : String := writeText member.1 ++ ":" ++ compact member.2

/-- The members of a record are written one by one. -/
theorem compactMembers_eq_map (members : List (String × Value)) :
    compactMembers members = members.map memberText := by
  induction members with
  | nil => rfl
  | cons member rest inductionHypothesis =>
    rw [compactMembers, inductionHypothesis, List.map_cons]
    rfl

/-- The value is read from its text, whatever follows it. -/
def IsReadBack (value : Value) : Prop := ∀ (fuel : Nat) (rest : List Char),
  2 * (compact value).toList.length < fuel →
    valueWithin fuel ((compact value).toList ++ rest) = some (value, rest)

/-- The text of every value takes a step to read. -/
theorem IsReadBack.of_step {value : Value}
    (step : ∀ (fuel : Nat) (rest : List Char), 2 * (compact value).toList.length < fuel + 1 →
      valueWithin (fuel + 1) ((compact value).toList ++ rest) = some (value, rest)) :
    IsReadBack value := by
  intro fuel rest enough
  cases fuel with
  | zero => exact absurd enough (Nat.not_lt_zero _)
  | succ fuel => exact step fuel rest enough

/-- No text of a value begins with white space, or as a list or a record ends. -/
theorem compact_begins {value : Value} (numberless : value.IsNumberless) :
    ∃ c cs, (compact value).toList = c :: cs ∧ isSpace c = false ∧ c ≠ ']' ∧ c ≠ '\x7d' := by
  cases numberless with
  | null => exact ⟨'n', _, rfl, by decide⟩
  | boolean value => cases value <;> exact ⟨_, _, rfl, by decide⟩
  | text content => exact ⟨'"', _, String.toList_ofList, by decide⟩
  | @list items each =>
    exact ⟨'[', (",".intercalate (compactItems items)).toList ++ [']'], by rw [compact]; simp, by decide⟩
  | @record members each =>
    exact ⟨'\x7b', (",".intercalate (compactMembers members)).toList ++ ['\x7d'],
      by rw [compact]; simp, by decide⟩

/-- The items of a list are read up to its closing bracket. -/
theorem itemsWithin_written {first : Value} {items : List Value}
    (back : ∀ item ∈ first :: items, IsReadBack item)
    (enough : 2 * ((compact first).toList ++ continued (items.map compact)).length + 1 < fuel) :
    itemsWithin fuel ((compact first).toList ++ (continued (items.map compact) ++ ']' :: rest)) =
      some (first :: items, rest) := by
  induction items generalizing first fuel with
  | nil =>
    cases fuel with
    | zero => exact absurd enough (Nat.not_lt_zero _)
    | succ fuel =>
      rw [List.forall_mem_cons] at back
      rw [List.length_append] at enough
      rw [itemsWithin, back.1 fuel _ (by omega)]
      simp [continued, skipSpace, isSpace]
  | cons second items inductionHypothesis =>
    cases fuel with
    | zero => exact absurd enough (Nat.not_lt_zero _)
    | succ fuel =>
      rw [List.forall_mem_cons] at back
      have split : continued ((second :: items).map compact) =
          ',' :: ((compact second).toList ++ continued (items.map compact)) := rfl
      rw [split, List.length_append, List.length_cons] at enough
      have others : itemsWithin fuel _ = _ := inductionHypothesis back.2 (by omega)
      rw [itemsWithin, back.1 fuel _ (by omega), split]
      simp [skipSpace, isSpace, others]

/-- A member is written as its quoted name, a colon and its value. -/
theorem toList_memberText (member : String × Value) : (memberText member).toList =
    '"' :: (member.1.toList.flatMap escape ++ '"' :: ':' :: (compact member.2).toList) := by
  simp [memberText, writeText]

/-- One member is read, and more of them behind a comma but none behind the closing brace. -/
theorem membersWithin_member {member : String × Value} (back : IsReadBack member.2)
    (enough : 2 * (memberText member).toList.length < fuel) (rest : List Char) :
    membersWithin (fuel + 1) ((memberText member).toList ++ ',' :: rest) =
        (membersWithin fuel rest).map (fun (members, rest) => (member :: members, rest)) ∧
      membersWithin (fuel + 1) ((memberText member).toList ++ '\x7d' :: rest) =
        some ([member], rest) := by
  obtain ⟨name, value⟩ := member
  replace back : IsReadBack value := back
  rw [toList_memberText] at enough ⊢
  simp only [List.length_cons, List.length_append] at enough
  have spaceless : ∀ cs : List Char, skipSpace ('"' :: cs) = '"' :: cs ∧
    skipSpace (':' :: cs) = ':' :: cs := fun cs => ⟨rfl, rfl⟩
  have read : ∀ cs, valueWithin fuel ((compact value).toList ++ cs) = some (value, cs) :=
    fun cs => back fuel cs (by omega)
  constructor
  · rw [membersWithin, List.cons_append, (spaceless _).1]
    simp only [List.append_assoc, List.cons_append, string?_written, (spaceless _).2, read,
      Option.bind_eq_bind, Option.bind_some]
    cases more : membersWithin fuel rest <;> simp [skipSpace, isSpace, more]
  · rw [membersWithin, List.cons_append, (spaceless _).1]
    simp only [List.append_assoc, List.cons_append, string?_written, (spaceless _).2, read,
      Option.bind_eq_bind, Option.bind_some]
    simp [skipSpace, isSpace]

/-- The members of a record are read up to its closing brace. -/
theorem membersWithin_written {first : String × Value} {members : List (String × Value)}
    (back : ∀ member ∈ first :: members, IsReadBack member.2)
    (enough : 2 * ((memberText first).toList ++ continued (members.map memberText)).length + 1 < fuel) :
    membersWithin fuel
        ((memberText first).toList ++ (continued (members.map memberText) ++ '\x7d' :: rest)) =
      some (first :: members, rest) := by
  induction members generalizing first fuel with
  | nil =>
    cases fuel with
    | zero => exact absurd enough (Nat.not_lt_zero _)
    | succ fuel =>
      rw [List.forall_mem_cons] at back
      rw [List.length_append] at enough
      exact (membersWithin_member back.1 (by omega) rest).2
  | cons second members inductionHypothesis =>
    cases fuel with
    | zero => exact absurd enough (Nat.not_lt_zero _)
    | succ fuel =>
      rw [List.forall_mem_cons] at back
      have split : continued ((second :: members).map memberText) =
          ',' :: ((memberText second).toList ++ continued (members.map memberText)) := rfl
      rw [split, List.length_append, List.length_cons] at enough
      have others : membersWithin fuel _ = _ := inductionHypothesis back.2 (by omega)
      rw [split, List.cons_append, (membersWithin_member back.1 (by omega) _).1, List.append_assoc, others]
      rfl

/-- A text is read back from its quotation. -/
theorem valueWithin_text (content : String) :
    valueWithin (fuel + 1) ((writeText content).toList ++ rest) = some (.text content, rest) := by
  have spelled : (writeText content).toList ++ rest =
      '"' :: (content.toList.flatMap escape ++ '"' :: rest) := by simp [writeText]
  have spaceless : ∀ cs : List Char, skipSpace ('"' :: cs) = '"' :: cs := fun cs => rfl
  rw [spelled, valueWithin, spaceless]
  simp only [string?_written]
  rfl

/-- Behind a bracket that is not closed at once stand items. -/
theorem valueWithin_bracket {c : Char} {cs : List Char} (visible : isSpace c = false) (inside : c ≠ ']') :
    valueWithin (fuel + 1) ('[' :: c :: cs) =
      (itemsWithin fuel (c :: cs)).map fun (items, rest) => (.list items, rest) := by
  have spaceless : skipSpace (c :: cs) = c :: cs := by simp [skipSpace, visible]
  have opening : skipSpace ('[' :: c :: cs) = '[' :: c :: cs := rfl
  rw [valueWithin, opening]
  simp only [spaceless]
  split
  · rename_i same
    exact absurd (List.cons.inj same).1 inside
  · cases itemsWithin fuel (c :: cs) <;> rfl

/-- Behind a brace that is not closed at once stand members. -/
theorem valueWithin_brace {c : Char} {cs : List Char} (visible : isSpace c = false) (inside : c ≠ '\x7d') :
    valueWithin (fuel + 1) ('\x7b' :: c :: cs) =
      (membersWithin fuel (c :: cs)).map fun (members, rest) => (.record members, rest) := by
  have spaceless : skipSpace (c :: cs) = c :: cs := by simp [skipSpace, visible]
  have opening : skipSpace ('\x7b' :: c :: cs) = '\x7b' :: c :: cs := rfl
  rw [valueWithin, opening]
  simp only [spaceless]
  split
  · rename_i same
    exact absurd (List.cons.inj same).1 inside
  · cases membersWithin fuel (c :: cs) <;> rfl

/-- A list is read from its text if its items are. -/
theorem isReadBack_list {items : List Value} (numberless : ∀ item ∈ items, item.IsNumberless)
    (back : ∀ item ∈ items, IsReadBack item) : IsReadBack (.list items) := by
  refine .of_step fun fuel rest enough => ?_
  cases items with
  | nil => rfl
  | cons first items =>
    have spelled : (compact (.list (first :: items))).toList =
        '[' :: ((compact first).toList ++ (continued (items.map compact) ++ [']'])) := by
      rw [compact, compactItems_eq_map, List.map_cons, String.toList_append, String.toList_append,
        toList_intercalate_cons]
      simp
    obtain ⟨c, cs, begins, visible, inside, _⟩ := compact_begins (numberless first List.mem_cons_self)
    rw [spelled] at enough ⊢
    simp only [List.length_cons, List.length_append, List.length_nil] at enough
    have read : itemsWithin fuel ((compact first).toList ++
        (continued (items.map compact) ++ ']' :: rest)) = some (first :: items, rest) :=
      itemsWithin_written back (by rw [List.length_append]; omega)
    rw [begins] at read ⊢
    simp only [List.cons_append, List.append_assoc, List.nil_append] at read ⊢
    rw [valueWithin_bracket visible inside, read]
    rfl

/-- A record is read from its text if its members are. -/
theorem isReadBack_record {members : List (String × Value)}
    (back : ∀ member ∈ members, IsReadBack member.2) : IsReadBack (.record members) := by
  refine .of_step fun fuel rest enough => ?_
  cases members with
  | nil => rfl
  | cons first members =>
    have spelled : (compact (.record (first :: members))).toList =
        '\x7b' :: ((memberText first).toList ++ (continued (members.map memberText) ++ ['\x7d'])) := by
      rw [compact, compactMembers_eq_map, List.map_cons, String.toList_append, String.toList_append,
        toList_intercalate_cons]
      simp
    rw [spelled] at enough ⊢
    simp only [List.length_cons, List.length_append, List.length_nil] at enough
    have read : membersWithin fuel ((memberText first).toList ++
        (continued (members.map memberText) ++ '\x7d' :: rest)) = some (first :: members, rest) :=
      membersWithin_written back (by rw [List.length_append]; omega)
    rw [toList_memberText] at read ⊢
    simp only [List.cons_append, List.append_assoc, List.nil_append] at read ⊢
    rw [valueWithin_brace (by decide) (by decide), read]
    rfl

/-- What is written is read back. -/
theorem isReadBack {value : Value} (numberless : value.IsNumberless) : IsReadBack value := by
  induction numberless with
  | null => exact .of_step fun fuel rest _ => rfl
  | boolean value =>
    refine .of_step fun fuel rest _ => ?_
    cases value <;> rfl
  | text content => exact .of_step fun fuel rest _ => valueWithin_text content
  | list each inductionHypothesis => exact isReadBack_list each inductionHypothesis
  | record each inductionHypothesis => exact isReadBack_record inductionHypothesis

/-- A value without numbers is read back from its compact text. -/
theorem read?_compact {value : Value} (numberless : value.IsNumberless) :
    read? (compact value) = some value := by
  have whole := isReadBack numberless (2 * (compact value).toList.length + 1) [] (Nat.lt_succ_self _)
  rw [List.append_nil] at whole
  rw [read?]
  dsimp only
  rw [whole]
  rfl

end Json
end ObjectQuery.Document
