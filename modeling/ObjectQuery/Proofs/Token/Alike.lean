import ObjectQuery.Proofs.Token.Softened
/-!
# What a scan looks at

A scan never looks further than to the character behind a token, but for the end of a comment, which
no word can be a part of. So where a text differs from another in one word, what is scanned before the
word does not depend on which word it is.
-/
namespace ObjectQuery

open Text

/-- The characters are one word: an identifier or a keyword. -/
structure IsSpelling (word : List Char) : Prop where
  start : ∃ first others, word = first :: others ∧ isIdentifierStart first = true
  inside : ∀ c ∈ word, isIdentifierRest c = true

/-- A spelling has at least one letter. -/
theorem IsSpelling.ne_nil {word : List Char} (spelling : IsSpelling word) : word ≠ [] := by
  obtain ⟨first, others, rfl, _⟩ := spelling.start
  exact List.cons_ne_nil _ _

/-- A letter lies in the first 128 code points. -/
theorem toNat_of_isAlpha {c : Char} (letter : c.isAlpha = true) : c.toNat < 128 := by
  delta Char.isAlpha Char.isUpper Char.isLower at letter
  simp only [Bool.or_eq_true, Bool.and_eq_true, decide_eq_true_eq, ge_iff_le,
    UInt32.le_iff_toNat_le] at letter
  have code : c.val.toNat = c.toNat := rfl
  have last : ('Z'.val).toNat = 90 := rfl
  have lastToo : ('z'.val).toNat = 122 := rfl
  omega

/-- What is a lower-case letter in lower case is a letter. -/
theorem isAlpha_of_toLower {c : Char} (letter : c.toLower.isLower = true) : c.isAlpha = true := by
  unfold Char.toLower at letter
  split at letter
  · rename_i upper
    have capital : c.isUpper = true := decide_eq_true upper
    exact Bool.or_eq_true_iff.mpr (.inl capital)
  · exact Bool.or_eq_true_iff.mpr (.inr letter)

/-- The text of a keyword is lower-case letters. -/
theorem Keyword.text_isLower (keyword : Keyword) :
    keyword.text.toList ≠ [] ∧ keyword.text.toList.all Char.isLower = true := by
  cases keyword <;> decide

/-- A keyword is a word in any ASCII case. -/
theorem IsSpelling.keyword {word : List Char} {keyword : Keyword}
    (lower : word.map Char.toLower = keyword.text.toList) : IsSpelling word := by
  obtain ⟨some, letters⟩ := keyword.text_isLower
  rw [← lower, ne_eq, List.map_eq_nil_iff] at some
  rw [← lower, List.all_map, List.all_eq_true] at letters
  have starts : ∀ c ∈ word, isIdentifierStart c = true := by
    intro c member
    have letter := isAlpha_of_toLower (letters c member)
    simp [isIdentifierStart, toNat_of_isAlpha letter, letter]
  obtain ⟨first, others, rfl⟩ := List.exists_cons_of_ne_nil some
  exact ⟨⟨first, others, rfl, starts first List.mem_cons_self⟩,
    fun c member => isIdentifierRest_of_isIdentifierStart (starts c member)⟩

/-- Whether the token is a word, reserved or not. -/
def Token.isWord : Token → Bool
  | .keyword _ | .identifier _ => true
  | _ => false

/-- The text of a keyword or an identifier is a word. -/
theorem IsSpelling.of_scan? {text rest : List Char} {token : Token} (worded : token.isWord = true)
    (found : Token.scan? (text ++ rest) = some (token, text.length)) : IsSpelling text := by
  obtain ⟨word, behind, same, length, _, valid, spelled⟩ := Token.exists_of_scan? found
  obtain ⟨rfl, rfl⟩ := List.append_inj same length
  cases token with
  | keyword reserved =>
    rw [Token.IsSpelled, String.toList_ofList] at spelled
    exact .keyword spelled
  | identifier name =>
    obtain rfl : String.ofList text = name := spelled
    rw [Token.IsValid, String.toList_ofList] at valid
    obtain ⟨first, others, rfl, start, inside⟩ := valid.1
    exact ⟨⟨first, others, rfl, start⟩,
      List.forall_mem_cons.mpr ⟨isIdentifierRest_of_isIdentifierStart start, inside⟩⟩
  | _ => cases worded

/-- The texts are the same but for one word. -/
inductive Alike : List Char → List Char → Prop
  | here {word other : List Char} (first : IsSpelling word) (second : IsSpelling other)
    (rest : List Char) : Alike (word ++ rest) (other ++ rest)
  | there (c : Char) {cs others : List Char} (further : Alike cs others) : Alike (c :: cs) (c :: others)

namespace Alike

variable {cs others : List Char}

/-- Texts are alike either way round. -/
theorem symm (alike : Alike cs others) : Alike others cs := by
  induction alike with
  | here first second rest => exact .here second first rest
  | there c _ inductionHypothesis => exact .there c inductionHypothesis

/-- The same text in front keeps texts alike. -/
theorem append (text : List Char) (alike : Alike cs others) : Alike (text ++ cs) (text ++ others) := by
  induction text with
  | nil => exact alike
  | cons c text inductionHypothesis => exact .there c inductionHypothesis

/-- Both texts begin with the same character, or both with a word. -/
theorem head? (alike : Alike cs others) {c : Char} (plain : isIdentifierStart c = false)
    (begins : cs.head? = some c) : others.head? = some c := by
  cases alike with
  | here first second rest =>
    obtain ⟨d, behind, rfl, start⟩ := first.start
    obtain rfl := Option.some.inj begins
    rw [plain] at start
    cases start
  | there d further => exact begins

/-- No text of the two is empty. -/
theorem exists_cons (alike : Alike cs others) : ∃ c rest, cs = c :: rest := by
  cases alike with
  | here first second rest =>
    obtain ⟨d, behind, rfl, _⟩ := first.start
    exact ⟨d, behind ++ rest, rfl⟩
  | there d further => exact ⟨d, _, rfl⟩

/-- What the one text does not begin with, the other does not either, but for words. -/
theorem head?_stops (alike : Alike cs others) {holds : Char → Bool}
    (words : ∀ c, isIdentifierStart c = true → ∀ d, isIdentifierStart d = true → holds c = holds d)
    (stops : ∀ c ∈ cs.head?, holds c = false) : ∀ c ∈ others.head?, holds c = false := by
  intro c begins
  cases alike with
  | here first second rest =>
    obtain ⟨d, behind, rfl, start⟩ := first.start
    obtain ⟨e, further, rfl, startToo⟩ := second.start
    obtain rfl := Option.some.inj begins
    rw [words e startToo d start]
    exact stops d rfl
  | there d further => exact stops c begins

/-- Behind a character that starts no identifier the rests are alike. -/
theorem tail {c : Char} (alike : Alike (c :: cs) (c :: others)) (plain : isIdentifierStart c = false) :
    Alike cs others := by
  generalize first : c :: cs = whole, second : c :: others = wholeToo at alike
  cases alike with
  | here word other rest =>
    obtain ⟨d, behind, rfl, start⟩ := word.start
    obtain ⟨rfl, _⟩ := List.cons.inj first
    rw [plain] at start
    cases start
  | there d further =>
    obtain ⟨rfl, rfl⟩ := List.cons.inj first
    obtain ⟨_, rfl⟩ := List.cons.inj second
    exact further

end Alike

/-! ## What a scan looks at -/

/-- What starts an identifier is no digit. -/
theorem isDigit_of_isIdentifierStart {c : Char} (start : isIdentifierStart c = true) :
    c.isDigit = false := by
  rw [Bool.eq_false_iff]
  intro digit
  rw [isIdentifierStart_of_isDigit digit] at start
  cases start

namespace Trivia

variable {cs others : List Char}

/-- No end of a comment is in a word, or begins in one. -/
theorem closing?_word {word : List Char} (inside : ∀ c ∈ word, isIdentifierRest c = true)
    (rest : List Char) : closing? (word ++ rest) = (closing? rest).map (· + word.length) := by
  induction word with
  | nil => simp
  | cons c word inductionHypothesis =>
    rw [List.forall_mem_cons] at inside
    have star : c ≠ '*' := by
      rintro rfl
      exact absurd inside.1 (by decide)
    rw [List.cons_append, closing?, inductionHypothesis inside.2, Option.map_map]
    · rfl
    · intro others same
      exact absurd same star

/-- A comment left open in one of two alike texts is open in the other. -/
theorem closing?_alike (alike : Alike cs others) (unclosed : closing? cs = none) :
    closing? others = none := by
  induction alike with
  | here first second rest =>
    rw [closing?_word first.inside, Option.map_eq_none_iff] at unclosed
    rw [closing?_word second.inside, unclosed, Option.map_none]
  | @there c cs others further inductionHypothesis =>
    have apart : c = '*' → others.head? ≠ some '/' := by
      rintro rfl begins
      have same := further.symm.head? (by decide) begins
      obtain ⟨d, rest, rfl⟩ := further.exists_cons
      obtain rfl := Option.some.inj same
      cases unclosed
    have later : closing? cs = none := by
      unfold closing? at unclosed
      split at unclosed
      · cases unclosed
      · rename_i same
        obtain ⟨_, rfl⟩ := List.cons.inj same
        exact Option.map_eq_none_iff.mp unclosed
      · rename_i same
        cases same
    rw [closing?, inductionHypothesis later, Option.map_none]
    rintro rest rfl rfl
    exact apart rfl rfl

/-- Neither white space nor a comment begins with a character because of a word behind it. -/
theorem piece?_alike {c : Char} (alike : Alike cs others) (inked : piece? (c :: cs) = none) :
    piece? (c :: others) = none := by
  have visible : isBlank c = false := by
    rw [Bool.eq_false_iff]
    intro blank
    rw [piece?_blank blank] at inked
    cases inked
  by_cases dash : c = '-'
  · subst dash
    have single : others.head? ≠ some '-' := by
      intro begins
      have same := alike.symm.head? (by decide) begins
      obtain ⟨d, rest, rfl⟩ := alike.exists_cons
      obtain rfl := Option.some.inj same
      cases inked
    obtain ⟨d, rest, rfl⟩ := alike.symm.exists_cons
    have other : d ≠ '-' := by
      rintro rfl
      exact single rfl
    simp [piece?, other, visible]
  by_cases slash : c = '/'
  · subst slash
    obtain ⟨d, rest, rfl⟩ := alike.symm.exists_cons
    by_cases star : d = '*'
    · subst star
      have same := alike.symm.head? (by decide) rfl
      obtain ⟨e, cs, rfl⟩ := alike.exists_cons
      obtain rfl := Option.some.inj same
      have unclosed : closing? cs = none := Option.map_eq_none_iff.mp inked
      simp only [piece?, closing?_alike (alike.tail (by decide)) unclosed, Option.map_none]
    · simp [piece?, star, visible]
  exact Token.piece?_of_inked visible dash slash

end Trivia

namespace Token

variable {cs others : List Char}

/-- A quotation is at least one character long. -/
theorem quotationLength?_pos {length : Nat} (closed : quotationLength? cs = some length) :
    0 < length := by
  obtain ⟨value, rest, _, rfl⟩ := exists_of_quotationLength? closed
  exact Nat.succ_pos _

/-- A mark closes a quotation unless another follows it. -/
theorem quotationLength?_mark (single : cs.head? ≠ some '\'') :
    quotationLength? ('\'' :: cs) = some 1 := by
  unfold quotationLength?
  split
  · rename_i same
    obtain ⟨_, rfl⟩ := List.cons.inj same
    exact absurd rfl single
  · rfl
  · rename_i other same
    exact absurd (List.cons.inj same).1.symm other
  · rename_i same
    cases same

/-- A quotation closed in front of one text is closed in front of one alike.

Proof: by functional induction on the quotation. Where it ends in a closing quote, what follows
begins with a quote in both texts or in neither. -/
theorem quotationLength?_alike {text : List Char} (alike : Alike cs others)
    (closed : quotationLength? (text ++ cs) = some text.length) :
    quotationLength? (text ++ others) = some text.length := by
  fun_induction quotationLength? text with
  | case1 text inductionHypothesis =>
    simp only [List.cons_append, quotationLength?, Option.map_eq_some_iff, List.length_cons] at closed ⊢
    obtain ⟨length, further, same⟩ := closed
    exact ⟨text.length, inductionHypothesis (further.trans (congrArg some (by omega))), rfl⟩
  | case2 text single =>
    cases text with
    | nil =>
      have unfollowed : cs.head? ≠ some '\'' := by
        intro begins
        obtain ⟨d, rest, rfl⟩ := alike.exists_cons
        obtain rfl := Option.some.inj begins
        obtain ⟨length, _, same⟩ := Option.map_eq_some_iff.mp closed
        cases same
      exact quotationLength?_mark fun begins => unfollowed (alike.symm.head? (by decide) begins)
    | cons d text =>
      have other : d ≠ '\'' := by
        rintro rfl
        exact single text rfl
      have short : quotationLength? ('\'' :: d :: (text ++ cs)) = some 1 :=
        quotationLength?_mark (by simpa using other)
      rw [List.cons_append, List.cons_append, short] at closed
      simp at closed
  | case3 c text _ plain inductionHypothesis =>
    have step : ∀ rest, quotationLength? (c :: rest) = (quotationLength? rest).map (· + 1) := by
      intro rest
      rw [quotationLength?]
      · rintro others rfl
        exact absurd rfl plain
      · exact plain
    rw [List.cons_append, step] at closed ⊢
    obtain ⟨length, further, same⟩ := Option.map_eq_some_iff.mp closed
    obtain rfl := Nat.succ.inj same
    rw [inductionHypothesis further]
    rfl
  | case4 => exact absurd (quotationLength?_pos closed) (Nat.lt_irrefl 0)

/-- A run of characters ends in front of both texts if it ends in front of one. -/
theorem takeWhile_alike {holds : Char → Bool} (alike : Alike cs others)
    (words : ∀ c, isIdentifierStart c = true → ∀ d, isIdentifierStart d = true → holds c = holds d)
    (stops : cs.takeWhile holds = []) : others.takeWhile holds = [] := by
  have first : ∀ c ∈ cs.head?, holds c = false := by
    obtain ⟨d, rest, rfl⟩ := alike.exists_cons
    intro c begins
    obtain rfl := Option.some.inj begins
    cases held : holds d with
    | false => rfl
    | true => simp [held] at stops
  have second := alike.head?_stops words first
  obtain ⟨d, rest, rfl⟩ := alike.symm.exists_cons
  simp [second d rfl]

/-- Of two alike texts both start with digits or none does. -/
theorem takeWhile_isDigit_alike (alike : Alike cs others)
    (stops : cs.takeWhile Char.isDigit = []) : others.takeWhile Char.isDigit = [] :=
  takeWhile_alike alike (fun c start d startToo => by
    rw [isDigit_of_isIdentifierStart start, isDigit_of_isIdentifierStart startToo]) stops

/-- A run of characters that is as long as a text ends behind it. -/
theorem takeWhile_length {holds : Char → Bool} {text : List Char}
    (counted : ((text ++ cs).takeWhile holds).length = text.length) :
    (∀ c ∈ text, holds c = true) ∧ cs.takeWhile holds = [] := by
  induction text with
  | nil => exact ⟨by simp, List.length_eq_zero_iff.mp counted⟩
  | cons c text inductionHypothesis =>
    cases held : holds c with
    | false => simp [held] at counted
    | true =>
      rw [List.cons_append, List.takeWhile_cons, if_pos held] at counted
      obtain ⟨all, stops⟩ := inductionHypothesis (Nat.succ.inj counted)
      exact ⟨List.forall_mem_cons.mpr ⟨held, all⟩, stops⟩

/-- The length of a point with digits behind it, if a text begins so. -/
def placesLength : List Char → Nat
  | '.' :: rest => if (rest.takeWhile Char.isDigit).length = 0 then 0
    else 1 + (rest.takeWhile Char.isDigit).length
  | _ => 0

/-- The places behind a point are its digits, if there are any. -/
theorem placesLength_point (rest : List Char) : placesLength ('.' :: rest) =
    if (rest.takeWhile Char.isDigit).length = 0 then 0
    else 1 + (rest.takeWhile Char.isDigit).length := rfl

/-- Without a point there are no places. -/
theorem placesLength_of_ne {c : Char} (other : c ≠ '.') (rest : List Char) :
    placesLength (c :: rest) = 0 := by
  unfold placesLength
  split
  · rename_i same
    exact absurd (List.cons.inj same).1 other
  · rfl

/-- Digits go on into the places behind them. -/
theorem numberLength_append {digits : List Char} (all : ∀ c ∈ digits, c.isDigit = true)
    (stops : cs.takeWhile Char.isDigit = []) :
    numberLength (digits ++ cs) = digits.length + placesLength cs := by
  have taken : (digits ++ cs).takeWhile Char.isDigit = digits := by
    rw [List.takeWhile_append_of_pos all, stops, List.append_nil]
  unfold numberLength
  simp only [taken, List.drop_left]
  split
  · rw [placesLength_point]
    split <;> omega
  · rename_i other
    cases cs with
    | nil => rfl
    | cons c rest => rw [placesLength_of_ne fun same => other rest (same ▸ rfl), Nat.add_zero]

/-- A number is no shorter than its first digits. -/
theorem takeWhile_le_numberLength : (cs.takeWhile Char.isDigit).length ≤ numberLength cs := by
  unfold numberLength
  dsimp only
  split
  · split <;> omega
  · exact Nat.le_refl _

/-- Of two alike texts both start with places or none does. -/
theorem placesLength_alike (alike : Alike cs others) (whole : placesLength cs = 0) :
    placesLength others = 0 := by
  unfold placesLength
  split
  · rename_i rest
    have same := alike.symm.head? (by decide) rfl
    obtain ⟨d, behind, rfl⟩ := alike.exists_cons
    obtain rfl := Option.some.inj same
    have none : behind.takeWhile Char.isDigit = [] := by
      by_contra some
      simp [placesLength, some] at whole
    rw [takeWhile_isDigit_alike (alike.tail (by decide)) none]
    rfl
  · rfl

/-- A number that ends in front of one text ends in front of the other. -/
theorem numberLength_alike {text : List Char} (alike : Alike cs others)
    (ends : numberLength (text ++ cs) = text.length) :
    numberLength (text ++ others) = text.length := by
  have split := List.takeWhile_append_dropWhile (p := Char.isDigit) (l := text)
  have all : ∀ c ∈ text.takeWhile Char.isDigit, c.isDigit = true :=
    List.all_eq_true.mp List.all_takeWhile
  generalize text.takeWhile Char.isDigit = digits at split all
  have stopped := List.head?_dropWhile_not Char.isDigit text
  generalize text.dropWhile Char.isDigit = behind at split stopped
  subst split
  cases behind with
  | nil =>
    -- All of it is digits, so none of the characters behind belong to the number.
    rw [List.append_nil] at ends ⊢
    have none : cs.takeWhile Char.isDigit = [] := by
      have bound := @takeWhile_le_numberLength (digits ++ cs)
      rw [ends, List.takeWhile_append_of_pos all, List.length_append] at bound
      exact List.length_eq_zero_iff.mp (by omega)
    have counted := numberLength_append all none
    have whole := placesLength_alike alike (by omega : placesLength cs = 0)
    rw [numberLength_append all (takeWhile_isDigit_alike alike none), whole, Nat.add_zero]
  | cons d behind =>
    have point : d.isDigit = false := by simpa using stopped
    have stops : ∀ rest, (d :: rest).takeWhile Char.isDigit = [] := by simp [point]
    rw [List.append_assoc, List.cons_append, numberLength_append all (stops _), List.length_append,
      Nat.add_left_cancel_iff] at ends ⊢
    by_cases dot : d = '.'
    · subst dot
      rw [placesLength_point] at ends ⊢
      split at ends
      · simp at ends
      · rename_i some
        rw [List.length_cons] at ends
        obtain ⟨inside, none⟩ := takeWhile_length (by omega :
          ((behind ++ cs).takeWhile Char.isDigit).length = behind.length)
        have taken : ((behind ++ others).takeWhile Char.isDigit).length = behind.length := by
          rw [List.takeWhile_append_of_pos inside, takeWhile_isDigit_alike alike none, List.append_nil]
        rw [taken, if_neg (by omega), List.length_cons, Nat.add_comm]
    · rw [placesLength_of_ne dot] at ends
      simp at ends

/-- A less-than sign stands alone before anything that continues it no further. -/
theorem scanMark?_less (greater : ∀ rest, cs ≠ '>' :: rest) (equal : ∀ rest, cs ≠ '=' :: rest) :
    scanMark? ('<' :: cs) = some (.lt, 1) := by
  rw [scanMark?]
  · rintro rest rfl
    exact greater rest rfl
  · rintro rest rfl
    exact equal rest rfl

/-- A greater-than sign stands alone before anything that continues it no further. -/
theorem scanMark?_greater (equal : ∀ rest, cs ≠ '=' :: rest) :
    scanMark? ('>' :: cs) = some (.gt, 1) := by
  rw [scanMark?]
  rintro rest rfl
  exact equal rest rfl

/-- A mark in front of one text is the same mark in front of one alike. -/
theorem scanMark?_alike {text : List Char} {sign : Mark} (alike : Alike cs others)
    (found : scanMark? (text ++ cs) = some (sign, text.length)) :
    scanMark? (text ++ others) = some (sign, text.length) := by
  -- A sign of one character does not become one of two.
  have apart : ∀ c, isIdentifierStart c = false → (∀ rest, cs ≠ c :: rest) →
      ∀ rest, others ≠ c :: rest := by
    rintro c plain single rest rfl
    have same := alike.symm.head? plain rfl
    obtain ⟨d, behind, rfl⟩ := alike.exists_cons
    obtain rfl := Option.some.inj same
    exact single behind rfl
  match text with
  | [] =>
    unfold scanMark? at found
    split at found <;> cases found
  | [c] =>
    rw [List.cons_append, List.nil_append] at found ⊢
    unfold scanMark? at found
    split at found
    case h_14 greater equal same =>
      obtain ⟨rfl, rfl⟩ := List.cons.inj same
      cases found
      exact scanMark?_less (apart '>' (by decide) greater) (apart '=' (by decide) equal)
    case h_15 equal same =>
      obtain ⟨rfl, rfl⟩ := List.cons.inj same
      cases found
      exact scanMark?_greater (apart '=' (by decide) equal)
    case h_21 => cases found
    all_goals
      rename_i same
      obtain ⟨rfl, rfl⟩ := List.cons.inj same
      first
      | exact found
      | cases found
  | [c, d] =>
    unfold scanMark? at found
    split at found
    case h_21 => cases found
    all_goals
      rename_i same
      cases same
      first
      | exact found
      | cases found
  | c :: d :: e :: further =>
    unfold scanMark? at found
    split at found <;> simp at found

/-- A token ends in front of both texts if it ends in front of one. -/
theorem scan?_alike {text : List Char} {token : Token} (alike : Alike cs others) (inside : text ≠ [])
    (found : scan? (text ++ cs) = some (token, text.length)) :
    scan? (text ++ others) = some (token, text.length) := by
  obtain ⟨c, text, rfl⟩ := List.exists_cons_of_ne_nil inside
  rw [List.cons_append, scan?] at found ⊢
  by_cases start : isIdentifierStart c = true
  · rw [if_pos start] at found ⊢
    obtain ⟨rfl, counted⟩ := Prod.mk.inj (Option.some.inj found)
    obtain ⟨all, stops⟩ := takeWhile_length (Nat.succ.inj counted)
    have stopsToo := takeWhile_alike alike (fun c start d startToo => by
      rw [isIdentifierRest_of_isIdentifierStart start,
        isIdentifierRest_of_isIdentifierStart startToo]) stops
    simp only [List.takeWhile_append_of_pos all, stops, stopsToo, List.append_nil]
  rw [if_neg start] at found ⊢
  by_cases quote : c = '\''
  · rw [if_pos quote] at found ⊢
    obtain ⟨length, closed, same⟩ := Option.map_eq_some_iff.mp found
    obtain ⟨rfl, counted⟩ := Prod.mk.inj same
    obtain rfl := Nat.succ.inj counted
    have short : text.length - 1 ≤ text.length := Nat.sub_le _ _
    rw [quotationLength?_alike alike closed, Option.map_some, List.take_append_of_le_length short,
      List.take_append_of_le_length short]
    rfl
  rw [if_neg quote] at found ⊢
  by_cases digit : c.isDigit = true
  · rw [if_pos digit] at found ⊢
    rw [← List.cons_append] at found ⊢
    obtain ⟨rfl, counted⟩ := Prod.mk.inj (Option.some.inj found)
    simp only [counted, numberLength_alike alike counted, List.take_left]
  · rw [if_neg digit] at found ⊢
    obtain ⟨⟨sign, length⟩, marked, same⟩ := Option.map_eq_some_iff.mp found
    obtain ⟨rfl, rfl⟩ := Prod.mk.inj same
    rw [← List.cons_append] at marked ⊢
    rw [scanMark?_alike alike marked, Option.map_some]

end Token

end ObjectQuery
