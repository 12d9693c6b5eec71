import ObjectQuery.Proofs.Token.Alike
/-!
# Another word in the place of one

If a word in a text gives way to another, scanning finds the same tokens before and behind it, and
those behind it are moved.

Softening looks back at the last token and at the levels of parentheses. So a keyword that has come in
the place of a name, where a name is wanted, changes nothing behind it either.
-/
namespace ObjectQuery

open Text

/-! ## What is found around a word -/

/-- The span between the places that its ends are moved to. -/
def Span.moved (shift : Nat → Nat) (span : Span) : Span := ⟨shift span.start, shift span.stop⟩

/-- Where a place comes to be if a word of some length comes in the place of what a span covers. -/
def Span.shift (gone : Span) (length place : Nat) : Nat :=
  if place ≤ gone.start then place else place - gone.stop + (gone.start + length)

/-- A place in front of what is gone stays. -/
theorem Span.shift_before {gone : Span} {length place : Nat} (before : place ≤ gone.start) :
    gone.shift length place = place := if_pos before

/-- A place behind what is gone moves with what is put there. -/
theorem Span.shift_behind {gone : Span} (nonempty : gone.start < gone.stop) (length further : Nat) :
    gone.shift length (gone.stop + further) = gone.start + length + further := by
  rw [shift, if_neg (by omega)]
  omega

/-- The text with a word in the place of what the span covers. -/
def Span.respelled (span : Span) (source word : String) : String :=
  (Span.mk 0 span.start).textIn source ++ word ++ (Span.mk span.stop source.utf8ByteSize).textIn source

/-- A name put in place of another stands between the same texts. -/
theorem Span.respelled_toList {source word : String} {left name right : List Char}
    (split : source.toList = left ++ (name ++ right)) :
    ((Span.mk (byteLength left) (byteLength left + byteLength name)).respelled source word).toList =
      left ++ (word.toList ++ right) := by
  have first := @Span.textIn_eq source [] left (name ++ right) split
  have whole : source.toList = (left ++ name) ++ (right ++ []) := by
    rw [split, List.append_nil, List.append_assoc]
  have last := Span.textIn_eq whole
  have size : source.utf8ByteSize = byteLength (left ++ name) + byteLength right := by
    rw [← byteLength_append, List.append_assoc, ← split, byteLength_eq, ← String.utf8ByteSize_ofList,
      String.ofList_toList]
  have none : byteLength [] = 0 := rfl
  rw [none, Nat.zero_add] at first
  rw [← size, byteLength_append] at last
  rw [respelled, first, last]
  simp

namespace Lexeme

/-- The lexeme with its place moved. -/
def moved (shift : Nat → Nat) (lexeme : Lexeme) : Lexeme :=
  { lexeme with span := lexeme.span.moved shift }

variable {start : Nat} {cs : List Char} {lexemes before behind : List Lexeme} {target : Lexeme}

/-- What is scanned at a byte does not depend on which it is. -/
theorem Scanned.moved (scanned : Scanned start cs lexemes) {shift : Nat → Nat} {other : Nat}
    (follows : ∀ further, shift (start + further) = other + further) :
    Scanned other cs (lexemes.map (Lexeme.moved shift)) := by
  induction scanned generalizing other with
  | nil skipped => exact .nil skipped
  | @cons start gap text rest token lexemes filled inked inside found behind inductionHypothesis =>
    have place : Lexeme.moved shift (placed token (start + byteLength gap) text) =
        placed token (other + byteLength gap) text := by
      simp only [Lexeme.moved, placed, Span.moved, Nat.add_assoc, follows]
    rw [List.map_cons, place]
    refine .cons filled inked inside found (inductionHypothesis fun further => ?_)
    simp only [Nat.add_assoc, follows]

/-- Scanning finds what has been scanned. -/
theorem Scanned.scanWithin {fuel : Nat} (scanned : Scanned start cs lexemes)
    (enough : cs.length ≤ fuel) : scanWithin fuel start cs = .ok lexemes := by
  induction scanned generalizing fuel with
  | nil skipped => exact scanWithin_skipped skipped
  | @cons start gap text rest token lexemes filled inked inside found behind inductionHypothesis =>
    have some : 0 < text.length := List.length_pos_of_ne_nil inside
    simp only [List.length_append] at enough
    obtain ⟨fuel, rfl⟩ : ∃ less, fuel = less + 1 := ⟨fuel - 1, by omega⟩
    rw [scanWithin_behind filled inked (by simp [inside]), found]
    simp only [List.take_left, List.drop_left]
    rw [inductionHypothesis (by omega)]
    rfl

/-- A word is found where another has been, if no more of it follows. -/
theorem scan?_respelled {name word right : List Char} {token : Token} (named : IsSpelling name)
    (spelling : IsSpelling word) (found : Token.scan? (name ++ right) = some (token, name.length)) :
    Token.scan? (word ++ right) = some (Token.ofWord word, word.length) := by
  obtain ⟨first, others, rfl, start⟩ := named.start
  obtain ⟨c, further, rfl, startToo⟩ := spelling.start
  rw [List.cons_append, Token.scan?, if_pos start] at found
  obtain ⟨_, counted⟩ := Prod.mk.inj (Option.some.inj found)
  obtain ⟨_, stops⟩ := Token.takeWhile_length (Nat.succ.inj counted)
  obtain ⟨_, inside⟩ := List.forall_mem_cons.mp spelling.inside
  rw [List.cons_append, Token.scan?, if_pos startToo, List.takeWhile_append_of_pos inside, stops,
    List.append_nil]

/-- If a word comes in the place of another it is found there, and everything behind it where it comes
to be. -/
theorem Scanned.respelled (scanned : Scanned start cs (before ++ target :: behind))
    (worded : target.token.isWord = true) : IsSpelling target.text.toList ∧
    ∃ left right, cs = left ++ (target.text.toList ++ right) ∧
      target.span = ⟨start + byteLength left, start + byteLength left + byteLength target.text.toList⟩ ∧
      ∀ word, IsSpelling word → Scanned start (left ++ (word ++ right))
        (before ++ placed (Token.ofWord word) target.span.start word ::
          behind.map (Lexeme.moved (target.span.shift (byteLength word)))) := by
  induction before generalizing start cs with
  | nil =>
    cases scanned with
    | @cons _ gap text right token _ filled inked inside found further =>
      have same : (String.ofList text).toList = text := String.toList_ofList
      have named : IsSpelling text := .of_scan? worded found
      rw [placed, same]
      refine ⟨named, gap, right, rfl, rfl, fun word spelling => ?_⟩
      have visible : Trivia.piece? (word ++ right) = none := by
        obtain ⟨first, others, rfl, start⟩ := spelling.start
        exact Token.piece?_of_isIdentifierRest (isIdentifierRest_of_isIdentifierStart start)
      have nonempty := Nat.lt_add_of_pos_right (byteLength_pos inside) (n := start + byteLength gap)
      exact .cons filled visible spelling.ne_nil (scan?_respelled named spelling found)
        (further.moved (Span.shift_behind nonempty (byteLength word)))
  | cons lexeme before inductionHypothesis =>
    cases scanned with
    | @cons _ gap text rest token _ filled inked inside found further =>
      obtain ⟨named, left, right, rfl, place, respelled⟩ := inductionHypothesis further
      refine ⟨named, gap ++ (text ++ left), right, ?_, ?_, fun word spelling => ?_⟩
      · simp only [List.append_assoc]
      · rw [place]
        simp only [byteLength_append, Nat.add_assoc]
      · have alike := (Alike.here named spelling right).append left
        have visible : Trivia.piece? (text ++ (left ++ (word ++ right))) = none := by
          obtain ⟨c, text, rfl⟩ := List.exists_cons_of_ne_nil inside
          exact Trivia.piece?_alike (alike.append text) inked
        have whole := Scanned.cons filled visible inside (Token.scan?_alike alike inside found)
          (respelled word spelling)
        simpa only [List.append_assoc, List.cons_append] using whole

/-- Nothing before a word moves if another comes in its place. -/
theorem Scanned.map_moved (scanned : Scanned start cs (before ++ target :: behind))
    (worded : target.token.isWord = true) (length : Nat) :
    before.map (Lexeme.moved (target.span.shift length)) = before := by
  induction before generalizing start cs with
  | nil => rfl
  | cons lexeme before inductionHypothesis =>
    cases scanned with
    | @cons _ gap text rest token _ filled inked inside found further =>
      obtain ⟨_, left, right, _, place, _⟩ := further.respelled worded
      have origin : target.span.start = start + byteLength gap + byteLength text + byteLength left := by
        rw [place]
      have first : start + byteLength gap ≤ target.span.start := by omega
      have last : start + byteLength gap + byteLength text ≤ target.span.start := by omega
      rw [List.map_cons, inductionHypothesis further]
      simp only [Lexeme.moved, placed, Span.moved, Span.shift_before first, Span.shift_before last]

/-- If a keyword comes in the place of a word, scanning finds it there and moves what is behind it. -/
theorem scan_respelled {source word : String} {keyword : Keyword}
    (scanned : scan source = .ok (before ++ target :: behind)) (worded : target.token.isWord = true)
    (spelled : Keyword.ofWord? word.toList = some keyword) :
    target.span.start < target.span.stop ∧ scan (target.span.respelled source word) =
      .ok (before ++ placed (.keyword keyword) target.span.start word.toList ::
        behind.map (Lexeme.moved (target.span.shift (byteLength word.toList)))) := by
  have found := scanned_of_scanWithin (Nat.le_refl _) scanned
  obtain ⟨text, left, right, split, place, respelled⟩ := found.respelled worded
  have rescanned := respelled word.toList (.keyword (Token.spelled_of_ofWord? spelled))
  have reserved : Token.ofWord word.toList = .keyword keyword := by rw [Token.ofWord, spelled]
  have whole : (target.span.respelled source word).toList = left ++ (word.toList ++ right) := by
    rw [place, Nat.zero_add, Span.respelled_toList split]
  rw [reserved, ← whole] at rescanned
  refine ⟨?_, rescanned.scanWithin (Nat.le_refl _)⟩
  rw [place]
  exact Nat.lt_add_of_pos_right (byteLength_pos text.ne_nil)

/-! ## What is read around a word -/

/-- What softening reads depends on what is before it. -/
theorem softenAfter_append (levels : FromLevels) (previous : Option Token)
    (first second : List Lexeme) :
    softenAfter levels previous (first ++ second) = softenAfter levels previous first ++
      softenAfter (levels.through ((softenAfter levels previous first).map (·.token)))
        (lastOf previous ((softenAfter levels previous first).map (·.token))) second := by
  induction first generalizing levels previous with
  | nil => rfl
  | cons lexeme first inductionHypothesis =>
    rw [List.cons_append, softenAfter, inductionHypothesis, softenAfter, List.map_cons,
      FromLevels.through_cons, lastOf_cons, List.cons_append]

/-- Moved lexemes are softened alike. -/
theorem softenAfter_moved (shift : Nat → Nat) (levels : FromLevels) (previous : Option Token)
    (lexemes : List Lexeme) : softenAfter levels previous (lexemes.map (Lexeme.moved shift)) =
      (softenAfter levels previous lexemes).map (Lexeme.moved shift) := by
  induction lexemes generalizing levels previous with
  | nil => rfl
  | cons lexeme rest inductionHypothesis =>
    have first : ∀ wanted, (Lexeme.moved shift lexeme).softenedIf wanted =
        Lexeme.moved shift (lexeme.softenedIf wanted) := by
      intro wanted
      rw [softenedIf, softenedIf, apply_ite (Lexeme.moved shift)]
      rfl
    rw [List.map_cons, softenAfter, softenAfter, List.map_cons, first]
    exact congrArg _ (inductionHypothesis _ _)

/-- Which name it is that comes before is of no concern. -/
theorem softenAfter_identifier (levels : FromLevels) (name other : String) (lexemes : List Lexeme) :
    softenAfter levels (some (.identifier name)) lexemes =
      softenAfter levels (some (.identifier other)) lexemes := by
  cases lexemes <;> rfl

/-- The lexeme read as another name. -/
def renamed (name : String) (lexeme : Lexeme) : Lexeme :=
  { lexeme with token := .identifier name, text := name }

/-- What softening gives can be parted wherever one likes. -/
theorem exists_of_softenAfter {levels : FromLevels} {previous : Option Token}
    (softened : softenAfter levels previous lexemes = before ++ behind) :
    ∃ first second, lexemes = first ++ second ∧ softenAfter levels previous first = before ∧
      softenAfter (levels.through (before.map (·.token))) (lastOf previous (before.map (·.token)))
        second = behind := by
  induction before generalizing levels previous lexemes with
  | nil => exact ⟨[], lexemes, rfl, rfl, softened⟩
  | cons read before inductionHypothesis =>
    cases lexemes with
    | nil => cases softened
    | cons lexeme lexemes =>
      obtain ⟨rfl, further⟩ := List.cons.inj softened
      obtain ⟨first, second, rfl, rfl, last⟩ := inductionHypothesis further
      refine ⟨lexeme :: first, second, rfl, rfl, ?_⟩
      rw [List.map_cons, FromLevels.through_cons, lastOf_cons]
      exact last

/-- Whether a keyword is read as a name behind the lexemes that a text begins with. -/
def wantsName (before : List Lexeme) (keyword : Keyword) : Bool :=
  isNamePosition (FromLevels.start.through (before.map (·.token)))
    (lastOf none (before.map (·.token))) (.keyword keyword)

/-- What is read as a name was a word, and is where it was. -/
theorem softenedIf_identifier {lexeme : Lexeme} {wanted : Bool} {name : String}
    (named : (lexeme.softenedIf wanted).token = .identifier name) :
    lexeme.token.isWord = true ∧ (lexeme.softenedIf wanted).span = lexeme.span := by
  unfold softenedIf at named ⊢
  split at named
  · rename_i softened
    have reserved := (Bool.and_eq_true_iff.mp softened).2
    refine ⟨?_, by rw [if_pos softened]⟩
    cases given : lexeme.token <;> simp_all [Token.isKeyword, Token.isWord]
  · rename_i plain
    exact ⟨by rw [named]; rfl, by rw [if_neg plain]⟩

/-- A keyword softened in place is the lexeme of the name there. -/
theorem placed_renamed {word : String} {keyword : Keyword}
    (nonempty : target.span.start < target.span.stop) :
    (placed (.keyword keyword) target.span.start word.toList).softenedIf true =
      Lexeme.moved (target.span.shift (byteLength word.toList)) (target.renamed word) := by
  have stop := Span.shift_behind nonempty (byteLength word.toList) 0
  rw [Nat.add_zero, Nat.add_zero] at stop
  simp [softenedIf, placed, Token.isKeyword, Lexeme.moved, Lexeme.renamed, Span.moved, stop,
    Span.shift_before (Nat.le_refl _), String.ofList_toList]

/-- A keyword that comes in the place of a name is read as a name if one is wanted there, and then
everything behind it is what it was. -/
theorem read_respelled {source word name : String} {keyword : Keyword}
    (found : read source = .ok (before ++ target :: behind)) (named : target.token = .identifier name)
    (spelled : Keyword.ofWord? word.toList = some keyword) :
    if wantsName before keyword then
      read (target.span.respelled source word) = .ok ((before ++ target.renamed word :: behind).map
        (Lexeme.moved (target.span.shift (byteLength word.toList))))
    else ∃ others, read (target.span.respelled source word) =
      .ok (before ++ placed (.keyword keyword) target.span.start word.toList :: others) := by
  obtain ⟨lexemes, scanned, softened⟩ := except_map_ok.mp found
  have parted : softenAfter .start none lexemes = before ++ target :: behind := softened
  obtain ⟨first, second, rfl, rfl, last⟩ := exists_of_softenAfter parted
  cases second with
  | nil => cases last
  | cons lexeme second =>
    obtain ⟨same, further⟩ := List.cons.inj last
    obtain ⟨worded, place⟩ := softenedIf_identifier (same ▸ named)
    rw [same] at place further
    obtain ⟨nonempty, rescanned⟩ := scan_respelled scanned worded spelled
    have unmoved := (scanned_of_scanWithin (Nat.le_refl _) scanned).map_moved worded
      (byteLength word.toList)
    rw [← place] at nonempty rescanned unmoved
    have reread : read (target.span.respelled source word) = .ok (soften _) :=
      congrArg (Except.map soften) rescanned
    have reserved : (placed (.keyword keyword) target.span.start word.toList).token =
        .keyword keyword := rfl
    rw [soften, softenAfter_append, softenAfter, reserved] at reread
    unfold wantsName
    split
    · rename_i wanted
      have earlier := softenAfter_moved (target.span.shift (byteLength word.toList)) .start none first
      rw [unmoved] at earlier
      rw [wanted, placed_renamed nonempty, softenAfter_moved] at reread
      rw [reread, List.map_append, List.map_cons, ← earlier]
      refine congrArg Except.ok (congrArg (_ ++ ·) (congrArg (_ :: ·) (congrArg (List.map _) ?_)))
      -- Behind a name it does not matter which it is.
      rw [named] at further
      exact (softenAfter_identifier _ word name second).trans further
    · rename_i plain
      rw [Bool.eq_false_of_not_eq_true plain] at reread
      exact ⟨_, reread⟩

end Lexeme
end ObjectQuery
