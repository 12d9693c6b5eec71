import ObjectQuery.Model.Type
import ObjectQuery.Proofs.Token.Alike
/-!
# Types as texts

A type can be spelled in many ways: basic types have several names, in any case, and blanks may stand
around the words of a collection. Its own text is one of the spellings, and a normal form among them:
reading it gives the type back, and no other type that can be read has it.
-/
namespace ObjectQuery

open Text

/-- No white space is part of a word. -/
theorem Text.isWord_of_isBlank {c : Char} (blank : isBlank c = true) : isWord c = false := by
  have outside := isIdentifierRest_of_isBlank blank
  have apart : ∀ point ∈ Ranges.points blanks.edges, wordOnly.contains point = false := by
    decide +kernel
  unfold isWord
  split
  · rename_i ascii
    rwa [isIdentifierRest, if_pos ascii] at outside
  · rw [outside, apart c.toNat (mem_points_of_isBlank blank)]
    rfl

/-- Nothing is skipped where a text begins with no white space. -/
theorem Text.dropWhile_isBlank {cs : List Char} (inked : ∀ c ∈ cs.head?, isBlank c = false) :
    cs.dropWhile isBlank = cs := by
  cases cs with
  | nil => rfl
  | cons c cs => rw [List.dropWhile_cons, inked c rfl, if_neg Bool.false_ne_true]

/-- Nothing is trimmed off a text without white space. -/
theorem Text.trimBlanks_eq_self {cs : List Char} (inked : ∀ c ∈ cs, isBlank c = false) :
    trimBlanks cs = cs := by
  have first : ∀ c ∈ cs.head?, isBlank c = false := fun c begins =>
    inked c (List.mem_of_head? begins)
  have last : ∀ c ∈ cs.reverse.head?, isBlank c = false := fun c begins =>
    inked c (List.mem_reverse.mp (List.mem_of_head? begins))
  rw [trimBlanks, dropWhile_isBlank first, dropWhile_isBlank last, List.reverse_reverse]

/-! ## Words -/

/-- The characters that the words of a type are made of. -/
def isWordOrDot (c : Char) : Bool := isWord c || c == '.'

/-- The characters are a word as it stands in a type: a name, or what looks like one. -/
structure IsTypeWord (word : List Char) : Prop where
  begins : word.head?.any SimpleType.isNameStart = true
  inside : ∀ c ∈ word, isWordOrDot c = true

/-- What starts a name may stand in a word. -/
theorem isWord_of_isNameStart {c : Char} (start : SimpleType.isNameStart c = true) :
    isWord c = true := by
  rcases Bool.or_eq_true_iff.mp start with letter | underscore
  · simp [isWord, toNat_of_isAlpha letter, Char.isAlphanum, letter]
  · obtain rfl := eq_of_beq underscore
    decide

/-- What may stand in a word, or a dot, is no blank. -/
theorem isBlank_of_isWordOrDot {c : Char} (inside : isWordOrDot c = true) : isBlank c = false := by
  rw [Bool.eq_false_iff]
  intro blank
  rcases Bool.or_eq_true_iff.mp inside with word | dot
  · rw [isWord_of_isBlank blank] at word
    cases word
  · obtain rfl := eq_of_beq dot
    exact absurd blank (by decide)

/-- A part of a name begins as a name does. -/
theorem begins_of_isNamePart {part : List Char} (shape : SimpleType.isNamePart part = true) :
    part.head?.any SimpleType.isNameStart = true := by
  cases part with
  | nil => cases shape
  | cons c others =>
    rw [SimpleType.isNamePart, Bool.and_eq_true] at shape
    exact shape.1

/-- A part of a name holds what may stand in a word, or dots. -/
theorem isWordOrDot_of_isNamePart {part : List Char} (shape : SimpleType.isNamePart part = true) :
    ∀ c ∈ part, isWordOrDot c = true := by
  cases part with
  | nil => exact fun c member => absurd member List.not_mem_nil
  | cons first others =>
    rw [SimpleType.isNamePart, Bool.and_eq_true, List.all_eq_true] at shape
    rw [List.forall_mem_cons]
    exact ⟨Bool.or_eq_true_iff.mpr (.inl (isWord_of_isNameStart shape.1)),
      fun c member => Bool.or_eq_true_iff.mpr (.inl (shape.2 c member))⟩

/-- Parts with dots between them are a word if the first of them begins one. -/
theorem isTypeWord_intercalate {first : List Char} {rest : List (List Char)}
    (shapes : ∀ part ∈ first :: rest, SimpleType.isNamePart part = true) :
    IsTypeWord (['.'].intercalate (first :: rest)) := by
  induction rest generalizing first with
  | nil =>
    have shape := shapes first List.mem_cons_self
    have single : ['.'].intercalate [first] = first := by simp [List.intercalate]
    rw [single]
    exact ⟨begins_of_isNamePart shape, isWordOrDot_of_isNamePart shape⟩
  | cons second rest inductionHypothesis =>
    rw [List.forall_mem_cons] at shapes
    have further := inductionHypothesis shapes.2
    have joined : ['.'].intercalate (first :: second :: rest) =
        first ++ '.' :: ['.'].intercalate (second :: rest) := by simp [List.intercalate]
    rw [joined]
    refine ⟨?_, ?_⟩
    · have begins := begins_of_isNamePart shapes.1
      cases first with
      | nil => cases begins
      | cons c others => exact begins
    · rw [List.forall_mem_append, List.forall_mem_cons]
      exact ⟨isWordOrDot_of_isNamePart shapes.1, by decide, further.inside⟩

/-- A name is a word. -/
theorem isTypeWord_of_isName {word : String} (named : SimpleType.isName word = true) :
    IsTypeWord word.toList := by
  have joined : ['.'].intercalate (word.toList.splitOn '.') = word.toList := List.intercalate_splitOn '.'
  rw [SimpleType.isName, List.all_eq_true] at named
  obtain ⟨first, rest, parts⟩ := List.exists_cons_of_ne_nil (List.splitOn_ne_nil '.' word.toList)
  rw [parts] at joined named
  rw [← joined]
  exact isTypeWord_intercalate named

/-! ## Types of single values -/

namespace SimpleType

/-- The text of the type is read as the type. A name that is no name of an entity, or spells a basic
type, makes no such type. -/
def IsNamed (type : SimpleType) : Prop := ofText? type.text = some type

/-- A basic type is read back from its text. -/
theorem ofText?_basic (type : BasicType) : BasicType.ofText? type.text = some type := by
  cases type <;> decide

/-- Types that are read are named by their texts. -/
theorem isNamed_of_ofText? {word : String} {type : SimpleType} (read : ofText? word = some type) :
    type.IsNamed := by
  unfold ofText? at read
  split at read
  · rename_i basic _
    obtain rfl := Option.some.inj read
    rw [IsNamed, text, ofText?, ofText?_basic]
  · rename_i unknown
    split at read
    · rename_i named
      obtain rfl := Option.some.inj read
      rw [IsNamed, text, ofText?, unknown]
      exact if_pos named
    · cases read

/-- The text of a named type is a word. -/
theorem IsNamed.isTypeWord {type : SimpleType} (named : type.IsNamed) :
    IsTypeWord type.text.toList := by
  cases type with
  | basic type =>
    cases type <;> exact ⟨by decide, List.all_eq_true.mp (by decide)⟩
  | entity name =>
    rw [IsNamed, text, ofText?] at named
    split at named
    · cases named
    · split at named
      · rename_i word
        exact isTypeWord_of_isName word
      · cases named

end SimpleType

/-! ## Collections -/

namespace DataType

variable {word other rest : List Char}

/-- A word is found as a whole where no more of it follows. -/
theorem word?_append (wordy : IsTypeWord word) (stops : ∀ c ∈ rest.head?, isWordOrDot c = false) :
    word? (word ++ rest) = some (String.ofList word, rest.dropWhile isBlank) := by
  have taken : (word ++ rest).takeWhile (fun c => isWord c || c == '.') = word :=
    takeWhile_exact wordy.inside stops
  rw [word?, taken, if_pos wordy.begins, List.drop_left]

/-- A word has no blanks in front to drop. -/
theorem dropWhile_word (wordy : IsTypeWord word) :
    (word ++ rest).dropWhile isBlank = word ++ rest := by
  apply dropWhile_isBlank
  cases word with
  | nil => cases wordy.begins
  | cons c others =>
    intro d begins
    obtain rfl := Option.some.inj begins
    exact isBlank_of_isWordOrDot (wordy.inside c List.mem_cons_self)

/-- The marks between and behind the words of a collection are not part of them. -/
theorem isWordOrDot_mark {mark : Char} (known : mark = ',' ∨ mark = '>') (cs : List Char) :
    ∀ c ∈ (mark :: cs).head?, isWordOrDot c = false := by
  intro c begins
  obtain rfl := Option.some.inj begins
  rcases known with rfl | rfl <;> decide

/-- One word before the closing bracket is the one argument. -/
theorem arguments?_one (wordy : IsTypeWord word) :
    arguments? (word ++ ['>']) = some (String.ofList word, none) := by
  rw [arguments?, dropWhile_word wordy, word?_append wordy (isWordOrDot_mark (.inr rfl) _)]
  rfl

/-- Two words with a comma between are the two arguments. -/
theorem arguments?_two (wordy : IsTypeWord word) (wordyToo : IsTypeWord other) :
    arguments? (word ++ ',' :: (other ++ ['>'])) =
      some (String.ofList word, some (String.ofList other)) := by
  have behind : (other ++ ['>']).dropWhile isBlank = other ++ ['>'] := dropWhile_word wordyToo
  have comma : (',' :: (other ++ ['>'])).dropWhile isBlank = ',' :: (other ++ ['>']) := rfl
  rw [arguments?, dropWhile_word wordy, word?_append wordy (isWordOrDot_mark (.inl rfl) _), comma]
  simp only [behind, word?_append wordyToo (isWordOrDot_mark (.inr rfl) [])]
  rfl

/-- The word of a kind and an opening bracket begin a collection. -/
theorem collectionWords?_kind (kind : CollectionKind) (cs : List Char) :
    collectionWords? (kind.text.toList ++ '<' :: cs) = (arguments? cs).map (kind.text, ·) := by
  have inked : isBlank '<' = false := by decide
  have four : "list".length = 4 := by decide
  have three : "set".length = 3 ∧ "bag".length = 3 ∧ "map".length = 3 := by decide
  cases kind <;> cases answer : arguments? cs <;>
    simp [collectionWords?, CollectionKind.text, answer, inked, four, three]

/-- Without an opening bracket there is no collection. -/
theorem collectionWords?_eq_none {text : List Char} (plain : '<' ∉ text) :
    collectionWords? text = none := by
  rw [collectionWords?, List.findSome?_eq_none_iff]
  intro kind _
  split
  · split
    · rename_i rest opened
      have member : '<' ∈ (text.drop kind.length).dropWhile isBlank := by simp [opened]
      exact absurd (List.mem_of_mem_drop ((List.dropWhile_sublist _).mem member)) plain
    · rfl
  · rfl

/-- The types of single values that a type is made of. -/
def parts : DataType → List SimpleType
  | simple type => [type]
  | collection (.map key) element => [key, element]
  | collection _ element => [element]

/-- The text of a collection with one word between the brackets. -/
theorem collectionWords?_one (kind : CollectionKind) {element : SimpleType} (named : element.IsNamed) :
    collectionWords? (kind.text ++ "<" ++ element.text ++ ">").toList =
      some (kind.text, element.text, none) := by
  have spelled : (kind.text ++ "<" ++ element.text ++ ">").toList =
      kind.text.toList ++ '<' :: (element.text.toList ++ ['>']) := by simp
  rw [spelled, collectionWords?_kind, arguments?_one named.isTypeWord, String.ofList_toList]
  rfl

/-- The text of a map. -/
theorem collectionWords?_two {key element : SimpleType} (keyed : key.IsNamed)
    (named : element.IsNamed) :
    collectionWords? ("map<" ++ key.text ++ "," ++ element.text ++ ">").toList =
      some ("map", key.text, some element.text) := by
  have spelled : ("map<" ++ key.text ++ "," ++ element.text ++ ">").toList =
      (CollectionKind.map key).text.toList ++
        '<' :: (key.text.toList ++ ',' :: (element.text.toList ++ ['>'])) := by
    simp [CollectionKind.text]
  rw [spelled, collectionWords?_kind, arguments?_two keyed.isTypeWord named.isTypeWord,
    String.ofList_toList, String.ofList_toList]
  rfl

/-- No white space stands in the text of a type. -/
theorem isBlank_of_mem_text {type : DataType} (named : ∀ part ∈ type.parts, part.IsNamed) :
    ∀ c ∈ type.text.toList, isBlank c = false := by
  have wordy : ∀ part ∈ type.parts, ∀ c ∈ part.text.toList, isBlank c = false :=
    fun part listed c member => isBlank_of_isWordOrDot ((named part listed).isTypeWord.inside c member)
  have marks : ∀ word ∈ ["map<", ",", ">", "list", "set", "bag", "<"],
      word.toList.all (isBlank · = false) = true := by decide
  have mark : ∀ word ∈ ["map<", ",", ">", "list", "set", "bag", "<"],
      ∀ c ∈ word.toList, isBlank c = false := fun word listed c member =>
    of_decide_eq_true (List.all_eq_true.mp (marks word listed) c member)
  cases type with
  | simple type => exact wordy type (by simp [parts])
  | collection kind element =>
    cases kind with
    | map key =>
      simp only [text, String.toList_append, List.forall_mem_append]
      exact ⟨⟨⟨⟨mark _ (by simp), wordy key (by simp [parts])⟩, mark _ (by simp)⟩,
        wordy element (by simp [parts])⟩, mark _ (by simp)⟩
    | list | set | bag =>
      simp only [text, CollectionKind.text, String.toList_append, List.forall_mem_append]
      exact ⟨⟨⟨mark _ (by simp), mark _ (by simp)⟩, wordy element (by simp [parts])⟩,
        mark _ (by simp)⟩

/-- A type whose parts are named is named by its text. -/
theorem ofText?_text {type : DataType} (named : ∀ part ∈ type.parts, part.IsNamed) :
    ofText? type.text = some type := by
  rw [ofText?, trimBlanks_eq_self (isBlank_of_mem_text named)]
  cases type with
  | simple type =>
    have own : type.IsNamed := named type (by simp [parts])
    have plain : '<' ∉ type.text.toList := fun member =>
      absurd (own.isTypeWord.inside '<' member) (by decide)
    simp only [text, collectionWords?_eq_none plain, String.ofList_toList]
    rw [own]
    rfl
  | collection kind element =>
    have own : element.IsNamed := named element (by cases kind <;> simp [parts])
    have words := collectionWords?_one kind own
    cases kind with
    | map key =>
      have keyed : key.IsNamed := named key (by simp [parts])
      simp only [text, collectionWords?_two keyed own, ofWords?]
      rw [keyed, own]
      rfl
    | list | set | bag =>
      simp only [text, words]
      simp only [CollectionKind.text, ofWords?]
      rw [own]
      rfl

/-- Every part of a type that is read is named by its text. -/
theorem isNamed_of_ofText? {text : String} {type : DataType} (read : ofText? text = some type) :
    ∀ part ∈ type.parts, part.IsNamed := by
  unfold ofText? at read
  dsimp only at read
  split at read
  · rename_i words _
    unfold ofWords? at read
    split at read
    iterate 3
      · obtain ⟨element, found, rfl⟩ := Option.map_eq_some_iff.mp read
        simpa [parts] using SimpleType.isNamed_of_ofText? found
    · simp only [Option.bind_eq_bind, Option.bind_eq_some_iff] at read
      obtain ⟨key, keyed, element, found, same⟩ := read
      obtain rfl := Option.some.inj same
      simpa [parts] using
        ⟨SimpleType.isNamed_of_ofText? keyed, SimpleType.isNamed_of_ofText? found⟩
    · cases read
  · obtain ⟨type, found, rfl⟩ := Option.map_eq_some_iff.mp read
    simpa [parts] using SimpleType.isNamed_of_ofText? found

/-- The text of a type that has been read is read as the type again, so it is the same for two texts
exactly if they are read as the same type. -/
theorem texts_are_normal {source : String} {type : DataType} (read : ofText? source = some type) :
    ofText? type.text = some type ∧
      ∀ (other : String) (otherType : DataType), ofText? other = some otherType →
        (type = otherType ↔ type.text = otherType.text) := by
  have again := ofText?_text (isNamed_of_ofText? read)
  refine ⟨again, fun other otherType readToo => ⟨congrArg text, fun same => ?_⟩⟩
  have againToo := ofText?_text (isNamed_of_ofText? readToo)
  rw [← same, again] at againToo
  exact Option.some.inj againToo

/-- A map spelled with blanks and capitals is read, and written in its normal form. -/
theorem texts_are_normal_map : ofText? "\u2003map <TEXT , Ort.größe_2 > " =
      some (.collection (.map (.basic .string)) (.entity "Ort.größe_2")) ∧
    ofText? "map<string,Ort.größe_2>" =
      some (.collection (.map (.basic .string)) (.entity "Ort.größe_2")) := by
  have read : ofText? "\u2003map <TEXT , Ort.größe_2 > " =
    some (.collection (.map (.basic .string)) (.entity "Ort.größe_2")) := by decide +kernel
  exact ⟨read, (texts_are_normal read).1⟩

end DataType
end ObjectQuery
