import Mathlib.Data.List.Chain
import Mathlib.Data.String.Basic
import ObjectQuery.Proofs.Sql.Numeral
import ObjectQuery.Sql.Token
/-!
# The pieces of tokens

Every token stands for certain pieces of text, and the text of a statement says what its tokens say if
scanning it gives the pieces of the tokens in order. Tokens are written one after the other without
anything between them, so each has to end where the next one begins. Spaces, commas and parentheses
always do; otherwise it depends on the two tokens.
-/
namespace ObjectQuery.Sql

/-- The words of a keyword. -/
def Keyword.words (word : Keyword) : List (List Char) := word.text.toList.splitOn ' '

/-- The pieces of the text of a number. A minus sign is a piece of its own. -/
def numberPieces (text : String) : List Piece :=
  match text.toList with
  | '-' :: digits => [.sign "-", .number (String.ofList digits)]
  | digits => [.number (String.ofList digits)]

namespace Token

/-- The pieces that the token stands for. -/
def pieces : Token → List Piece
  | keyword word => word.words.map fun chars => .word (String.ofList chars)
  | symbol sign => [.sign sign.text]
  | space => []
  | identifier content => [.quoted '"' content]
  | integer value => numberPieces (toString value)
  | decimal value =>
    if value.isFinite then numberPieces (decimalLayout.number value) else [.word "NULL"]
  | string content => [.quoted '\'' content]
  | function callee => [.word (Text.upper callee)]
  | placeholder _ => [.sign "?"]
  | verbatim content => (scan content).getD []

/-- Scanning the text of the tokens gives the pieces of the tokens in order. -/
def SaysItsTokens (tokens : List Token) : Prop :=
  scan (render tokens) = some (tokens.flatMap pieces)

end Token

/-- Whether the text is a word, which does not begin with a digit. -/
def isWord : List Char → Bool
  | [] => false
  | c :: rest => isWordPart c && !c.isDigit && rest.all isWordPart

namespace Token

/-- Whether the text of the token is made by its content alone: the token is no query from the model,
and a function has a word for its name. -/
def isPlain : Token → Bool
  | verbatim _ => false
  | function callee => isWord (Text.upper callee).toList
  | _ => true

/-- Whether the token ends whatever is before it and is ended by whatever is after it. -/
def isBreak : Token → Bool
  | space | symbol .leftParen | symbol .rightParen | symbol .comma => true
  | _ => false

/-- Whether an expression can begin with the token. -/
def beginsOperand : Token → Bool
  | symbol sign => sign = .minus ∨ sign = .star ∨ sign = .leftParen
  | space | verbatim _ => false
  | _ => true

/-- Whether the text of the token begins with a minus sign. -/
def beginsWithMinus : Token → Bool
  | symbol .minus => true
  | integer value => value < 0
  | decimal value => value.isFinite && value.isNegative
  | _ => false

/-- The second token may stand next to the first: one of them is a space, a comma or a parenthesis,
or they are a qualified name, or the first is a minus sign in front of an expression. -/
def Abuts : Token → Token → Prop
  | identifier _, symbol .dot | symbol .dot, identifier _ => True
  | symbol .minus, next => next.beginsOperand = true ∨ next.isBreak = true
  | token, next => token.isBreak = true ∨ next.isBreak = true

/-- The two tokens are no minus sign in front of a minus sign. -/
def Apart (token next : Token) : Prop := token = symbol .minus → next.beginsWithMinus = false

end Token

/-! ## One token -/

/-- The characters that breaks are written with. -/
def breaks : List Char := [' ', '(', ')', ',']

/-- The piece is ended by every break. -/
def Partial.Settled (last : Partial) : Prop := ∀ c ∈ breaks, last.extend? c = none

namespace Token

/-- In front of the text, the token is scanned as its pieces. -/
def ScansBefore (token : Token) (following : List Char) : Prop :=
  scanFrom .blank (token.text.toList ++ following) =
    (scanFrom .blank following).map (token.pieces ++ ·)

/-- The token is scanned as its pieces in front of everything that does not continue the last. -/
def EndsAs (token : Token) (last : Partial) : Prop :=
  ∀ ⦃following : List Char⦄, last.Stops following → token.ScansBefore following

end Token

variable {last : Partial} {chars following : List Char} {token : Token}

/-- A token of one piece ends as that piece. -/
theorem endsAs_piece (piece : IsPiece token.text.toList last)
    (finished : last.finish? = some token.pieces) : token.EndsAs last :=
  fun _ stops => scanFrom_piece piece finished stops

/-- Letters and digits are taken by a word. -/
theorem takes_word {front : List Char} (parts : chars.all isWordPart = true) :
    (Partial.word front).Takes chars (.word (front ++ chars)) := by
  induction chars generalizing front with
  | nil =>
    rw [List.append_nil]
    rfl
  | cons c rest ih =>
    rw [List.all_cons, Bool.and_eq_true] at parts
    refine ⟨.word (front ++ [c]), ?_, ?_⟩
    · simp [Partial.extend?, parts.1]
    · have taken := @ih (front ++ [c]) parts.2
      rwa [List.append_assoc, List.singleton_append] at taken

/-- A word is one piece. -/
theorem isPiece_word (word : isWord chars = true) : IsPiece chars (.word chars) := by
  cases chars with
  | nil => cases word
  | cons c rest =>
    simp only [isWord, Bool.and_eq_true, Bool.not_eq_true'] at word
    obtain ⟨⟨part, letter⟩, others⟩ := word
    refine ⟨.word [c], ?_, takes_word others⟩
    simp [Partial.start?, isWhitespace_eq_false part, letter, part]

/-- Inside a quoted piece, doubled marks are taken as marks and a single one closes the piece. -/
theorem takes_double {mark : Char} {front content : List Char} :
    (Partial.quoted mark front).Takes (Text.double mark content ++ [mark])
      (.closed mark (front ++ content)) := by
  induction content generalizing front with
  | nil =>
    rw [List.append_nil]
    exact ⟨.closed mark front, by simp [Partial.extend?], rfl⟩
  | cons c rest ih =>
    have taken := @ih (front ++ [c])
    rw [List.append_assoc, List.singleton_append] at taken
    by_cases same : c = mark
    · subst same
      rw [Text.double, if_pos rfl]
      refine ⟨.closed c front, by simp [Partial.extend?], ?_⟩
      exact ⟨.quoted c (front ++ [c]), by simp [Partial.extend?], taken⟩
    · rw [Text.double, if_neg same]
      exact ⟨.quoted mark (front ++ [c]), by simp [Partial.extend?, same], taken⟩

/-- A quoted text is one piece, whatever it says. -/
theorem isPiece_quoted {mark : Char} (isMark : mark = '"' ∨ mark = '\'') (content : String) :
    IsPiece (Text.quoted mark content).toList (.closed mark content.toList) := by
  rw [Text.quoted, String.toList_ofList]
  refine ⟨.quoted mark [], ?_, takes_double⟩
  rcases isMark with rfl | rfl <;> rfl

/-- A piece in front of a text that continues neither it nor its end. -/
theorem scanFrom_then {first : Partial} {pieces : List Piece} {front : List Char}
    (piece : IsPiece front first) (finished : first.finish? = some pieces)
    (stops : first.Stops (chars ++ following)) {others : List Piece}
    (scanned : scanFrom .blank (chars ++ following) =
      (scanFrom .blank following).map (others ++ ·)) :
    scanFrom .blank (front ++ chars ++ following) =
      (scanFrom .blank following).map (pieces ++ others ++ ·) := by
  rw [List.append_assoc, scanFrom_piece piece finished stops, scanned]
  cases scanFrom .blank following <;> simp

/-- Words with spaces between them are scanned one by one. -/
theorem scanFrom_phrase : ∀ {words : List (List Char)}, words ≠ [] →
    (∀ word ∈ words, isWord word = true) → (∀ c ∈ following.head?, isWordPart c = false) →
      scanFrom .blank ([' '].intercalate words ++ following) =
        (scanFrom .blank following).map
          ((words.map fun word => Piece.word (String.ofList word)) ++ ·)
  | [], someWord, _, _ => absurd rfl someWord
  | [word], _, areWords, ended => by
    have isWord : isWord word = true := areWords word (by simp)
    have stops : (Partial.word word).Stops following := by
      intro c first
      simp [Partial.extend?, ended c first]
    simpa [List.intercalate] using scanFrom_piece (isPiece_word isWord) rfl stops
  | word :: second :: rest, _, areWords, ended => by
    obtain ⟨isWord, others⟩ := List.forall_mem_cons.mp areWords
    have further := scanFrom_phrase (by simp) others ended
    have joined : [' '].intercalate (word :: second :: rest) =
        word ++ ' ' :: [' '].intercalate (second :: rest) := by
      simp [List.intercalate]
    have blank : scanFrom .blank (' ' :: ([' '].intercalate (second :: rest) ++ following)) =
        scanFrom .blank ([' '].intercalate (second :: rest) ++ following) := by
      rw [scanFrom_blank_cons]
      rfl
    rw [joined]
    refine scanFrom_then (isPiece_word isWord) rfl ?_ ?_
    · rintro c ⟨⟩
      rfl
    · rw [List.cons_append, blank, further]
      rfl

/-- The words of a keyword with spaces between are its text. -/
theorem Keyword.intercalate_words (word : Keyword) :
    [' '].intercalate word.words = word.text.toList := by
  cases word <;> decide

/-- Each word of a keyword is a word. -/
theorem Keyword.isWord_words (word : Keyword) : ∀ chars ∈ word.words, isWord chars = true := by
  cases word <;> decide

/-- A sign is a piece by itself. -/
theorem isPiece_sign {c : Char} (isSign : c ∈ signs) : IsPiece [c] (.sign c) := by
  have starts : signs.all (fun c => Partial.start? c = some (.sign c)) = true := by decide
  exact ⟨.sign c, of_decide_eq_true (List.all_eq_true.mp starts c isSign), rfl⟩

/-! Breaks end words, numbers, signs and quoted pieces. -/

/-- A word is settled whatever has been read of it. -/
theorem settled_word : (Partial.word chars).Settled := by
  have ended : breaks.all (!isWordPart ·) = true := by decide
  intro c member
  have other : isWordPart c = false := by simpa using List.all_eq_true.mp ended c member
  simp [Partial.extend?, other]

/-- A number is settled whatever has been read of it. -/
theorem settled_number {place : NumberPlace} : (Partial.number place chars).Settled := by
  have ended : breaks.all (fun c => (place.next? c).isNone) = true := by
    cases place <;> decide
  intro c member
  have other : place.next? c = none := by simpa using List.all_eq_true.mp ended c member
  simp [Partial.extend?, other]

/-- A sign is settled. -/
theorem settled_sign {c : Char} (isSign : c ∈ signs) : (Partial.sign c).Settled := by
  have ended : signs.all (fun c => breaks.all fun next =>
      ((Partial.sign c).extend? next).isNone) = true := by decide
  intro next member
  have endedHere := List.all_eq_true.mp ended c isSign
  simpa using List.all_eq_true.mp endedHere next member

/-- A closed quotation is settled. -/
theorem settled_quoted {mark : Char} (isMark : mark = '"' ∨ mark = '\'') :
    (Partial.closed mark chars).Settled := by
  intro c member
  have other : c ≠ mark := by
    rintro rfl
    rcases isMark with rfl | rfl <;> revert member <;> decide
  simp [Partial.extend?, other]

/-- A numeral is one piece. -/
theorem numberPieces_digits {text : String} (numeral : IsNumeral text.toList) :
    numberPieces text = [.number text] := by
  have begins := numeral.begins
  unfold numberPieces
  split
  · rename_i digits spelled
    rw [spelled] at begins
    exact absurd (begins '-' rfl) (by decide)
  · rw [String.ofList_toList]

/-- A minus sign is a piece of its own in front of all but a few characters. -/
theorem minus_stops {c : Char} {rest : List Char} (other : c ≠ '-' ∧ c ≠ '>') :
    (Partial.sign '-').Stops (c :: rest) := by
  rintro c ⟨⟩
  simp [Partial.extend?, longSigns, other.1, other.2]

/-- A number begins with a character that does not continue a minus sign. -/
theorem IsNumeral.begins_other {digits : List Char} (numeral : IsNumeral digits) :
    ∃ c rest, digits = c :: rest ∧ c ≠ '-' ∧ c ≠ '>' := by
  obtain ⟨place, _, piece⟩ := numeral.piece
  cases digits with
  | nil => exact piece.elim
  | cons first rest =>
    have digit : first.isDigit = true := numeral.begins first rfl
    refine ⟨first, rest, rfl, ?_, ?_⟩
    · rintro rfl
      cases digit
    · rintro rfl
      cases digit

/-- A number is scanned as its sign, if it has one, and its digits. -/
theorem scanFrom_number {text : String} {digits : List Char} {negative : Prop} [Decidable negative]
    (numeral : IsNumeral digits) (spelled : text.toList = if negative then '-' :: digits else digits) :
    ∃ last : Partial, last.Settled ∧ ∀ ⦃following⦄, last.Stops following →
      scanFrom .blank (text.toList ++ following) =
        (scanFrom .blank following).map (numberPieces text ++ ·) := by
  obtain ⟨place, ends, piece⟩ := numeral.piece
  have finished : (Partial.number place digits).finish? = some [.number (String.ofList digits)] := by
    simp [Partial.finish?, ends]
  refine ⟨.number place digits, settled_number, ?_⟩
  intro following stops
  have scanned := scanFrom_piece piece finished stops
  split at spelled
  · have pieces : numberPieces text = [.sign "-", .number (String.ofList digits)] := by
      simp [numberPieces, spelled]
    obtain ⟨c, rest, rfl, other⟩ := numeral.begins_other
    rw [pieces, spelled]
    exact scanFrom_then (isPiece_sign (by decide)) rfl (minus_stops other) scanned
  · subst spelled
    rw [numberPieces_digits numeral, scanned, String.ofList_toList]

/-- An integer is written as a number, after a minus sign if it is negative. -/
theorem toList_integer (value : Int) : ∃ digits, IsNumeral digits ∧
    (toString value).toList = if value < 0 then '-' :: digits else digits := by
  rw [toList_toString]
  by_cases negative : value < 0
  · refine ⟨_, isNumeral_natural (-value).toNat, ?_⟩
    rw [if_neg (by omega), if_pos negative]
  · refine ⟨_, isNumeral_natural value.toNat, ?_⟩
    rw [if_pos (by omega), if_neg negative]

/-- A decimal is written as a number, after a minus sign if it is negative. -/
theorem toList_number (layout : Number.Layout) (value : Number.Binary64) :
    ∃ digits, IsNumeral digits ∧ (layout.number value).toList =
      if value.isNegative then '-' :: digits else digits := by
  have numeral : IsNumeral
      (if value.significand = 0 then "0.0" else layout.write value.shortest).toList := by
    split
    · exact isNumeral_point (areDigits_zeros 1) (by simp) (areDigits_zeros 1)
    · exact isNumeral_write layout value.shortest
  refine ⟨_, numeral, ?_⟩
  rw [Number.Layout.number, String.toList_append]
  split
  · rfl
  · rfl

namespace Token

/-- A keyword ends as its last word. -/
theorem endsAs_keyword (word : Keyword) :
    ∃ last : Partial, last.Settled ∧ (keyword word).EndsAs last := by
  refine ⟨.word [], settled_word, ?_⟩
  intro following stops
  have ended : ∀ c ∈ following.head?, isWordPart c = false := by
    intro c first
    simpa [Partial.extend?] using stops c first
  have someWord : word.words ≠ [] := by
    cases word <;> decide
  have scanned := scanFrom_phrase someWord word.isWord_words ended
  rwa [word.intercalate_words] at scanned

/-- A token spelled by one sign ends as that sign. -/
theorem endsAs_sign {c : Char} (isSign : c ∈ signs) (spelled : token.text.toList = [c])
    (pieces : token.pieces = [.sign (String.ofList [c])]) : token.EndsAs (.sign c) := by
  apply endsAs_piece
  · rw [spelled]
    exact isPiece_sign isSign
  · rw [pieces, Partial.finish?]

/-- A symbol ends as its last sign. -/
theorem endsAs_symbol (sign : Symbol) :
    ∃ last : Partial, last.Settled ∧ (symbol sign).EndsAs last := by
  cases sign with
  | ne => exact ⟨.longSign '<' '>', fun _ _ => rfl, endsAs_piece ⟨_, rfl, _, rfl, rfl⟩ rfl⟩
  | le => exact ⟨.longSign '<' '=', fun _ _ => rfl, endsAs_piece ⟨_, rfl, _, rfl, rfl⟩ rfl⟩
  | ge => exact ⟨.longSign '>' '=', fun _ _ => rfl, endsAs_piece ⟨_, rfl, _, rfl, rfl⟩ rfl⟩
  | _ => exact ⟨.sign _, settled_sign (by decide), endsAs_sign (by decide) rfl rfl⟩

/-- A quotation ends closed. -/
theorem endsAs_quoted {mark : Char} {content : String} (isMark : mark = '"' ∨ mark = '\'')
    (spelled : token.text = Text.quoted mark content) (pieces : token.pieces = [.quoted mark content]) :
    token.EndsAs (.closed mark content.toList) := by
  apply endsAs_piece
  · rw [spelled]
    exact isPiece_quoted isMark content
  · rw [pieces, Partial.finish?, String.ofList_toList]

/-- A space ends blank. -/
theorem endsAs_space : space.EndsAs .blank := by
  intro following _
  have skipped : scanFrom .blank (' ' :: following) = scanFrom .blank following := by
    rw [scanFrom_blank_cons]
    rfl
  change scanFrom .blank (' ' :: following) = (scanFrom .blank following).map ([] ++ ·)
  rw [skipped]
  cases scanFrom .blank following <;> rfl

/-- A decimal ends as its last part. -/
theorem endsAs_decimal (value : Number.Binary64) :
    ∃ last : Partial, last.Settled ∧ (decimal value).EndsAs last := by
  by_cases finite : value.isFinite = true
  · obtain ⟨digits, numeral, spelled⟩ := toList_number decimalLayout value
    obtain ⟨last, settled, scanned⟩ := scanFrom_number numeral spelled
    refine ⟨last, settled, ?_⟩
    intro following stops
    simp only [ScansBefore, text, pieces, finite, if_true]
    exact scanned stops
  · have written : (decimal value).text.toList = "NULL".toList := by simp [text, finite]
    have isNull : IsPiece "NULL".toList (.word "NULL".toList) := isPiece_word (by decide)
    refine ⟨.word "NULL".toList, settled_word, endsAs_piece (written ▸ isNull) ?_⟩
    simp [Partial.finish?, pieces, finite]

/-- Every plain token is scanned as its pieces in front of a break and at the end of the text. -/
theorem exists_endsAs (plain : token.isPlain = true) :
    ∃ last : Partial, last.Settled ∧ token.EndsAs last := by
  cases token with
  | keyword word => exact endsAs_keyword word
  | symbol sign => exact endsAs_symbol sign
  | space => exact ⟨.blank, fun _ _ => rfl, endsAs_space⟩
  | identifier content =>
    exact ⟨_, settled_quoted (Or.inl rfl), endsAs_quoted (Or.inl rfl) rfl rfl⟩
  | integer value =>
    obtain ⟨digits, numeral, spelled⟩ := toList_integer value
    exact scanFrom_number numeral spelled
  | decimal value => exact endsAs_decimal value
  | string content =>
    exact ⟨_, settled_quoted (Or.inr rfl), endsAs_quoted (Or.inr rfl) rfl rfl⟩
  | function callee =>
    have isWord : isWord (function callee).text.toList = true := plain
    refine ⟨_, settled_word, endsAs_piece (isPiece_word isWord) ?_⟩
    rw [Partial.finish?, String.ofList_toList]
    rfl
  | placeholder parameter =>
    have spelled : (placeholder parameter).text.toList = ['?'] := by simp [text]
    exact ⟨.sign '?', settled_sign (by decide), endsAs_sign (by decide) spelled rfl⟩
  | verbatim content => cases plain

/-! ## Tokens next to one another -/

variable {next : Token}

/-- A break is scanned as its pieces in front of everything. -/
theorem scansBefore_break (isBreak : token.isBreak = true) : token.ScansBefore following := by
  have unextended : ∀ c, ∀ first ∈ ['(', ')', ','], (Partial.sign first).extend? c = none := by
    intro c first member
    simp only [List.mem_cons, List.not_mem_nil, or_false] at member
    rcases member with rfl | rfl | rfl <;> simp [Partial.extend?, longSigns]
  unfold Token.isBreak at isBreak
  split at isBreak
  · exact endsAs_space (fun c _ => rfl)
  · exact endsAs_sign (by decide) rfl rfl (fun c _ => unextended c '(' (by simp))
  · exact endsAs_sign (by decide) rfl rfl (fun c _ => unextended c ')' (by simp))
  · exact endsAs_sign (by decide) rfl rfl (fun c _ => unextended c ',' (by simp))
  · cases isBreak

/-- A break is written as one character. -/
theorem text_break (isBreak : token.isBreak = true) : ∃ c ∈ breaks, token.text.toList = [c] := by
  unfold Token.isBreak at isBreak
  split at isBreak
  · exact ⟨' ', by decide, rfl⟩
  · exact ⟨'(', by decide, rfl⟩
  · exact ⟨')', by decide, rfl⟩
  · exact ⟨',', by decide, rfl⟩
  · cases isBreak

/-- The text of a token that begins an expression begins with a minus sign or with a character that
does not continue one.

Proof: by cases on the token. Numbers begin with a digit, since their sign has been ruled out. -/
theorem text_operand (plain : token.isPlain = true) (begins : token.beginsOperand = true)
    (positive : token.beginsWithMinus = false) :
    ∃ c rest, token.text.toList = c :: rest ∧ c ≠ '-' ∧ c ≠ '>' := by
  cases token with
  | keyword word => cases word <;> exact ⟨_, _, rfl, by decide⟩
  | symbol sign =>
    simp only [beginsOperand, decide_eq_true_eq] at begins
    rcases begins with rfl | rfl | rfl
    · cases positive
    · exact ⟨_, _, rfl, by decide⟩
    · exact ⟨_, _, rfl, by decide⟩
  | space => cases begins
  | identifier content => exact ⟨_, _, String.toList_ofList, by decide⟩
  | string content => exact ⟨_, _, String.toList_ofList, by decide⟩
  | integer value =>
    simp only [beginsWithMinus, decide_eq_false_iff_not] at positive
    obtain ⟨digits, numeral, spelled⟩ := toList_integer value
    rw [text, spelled, if_neg positive]
    exact numeral.begins_other
  | decimal value =>
    by_cases finite : value.isFinite = true
    · simp only [beginsWithMinus, finite, Bool.true_and] at positive
      obtain ⟨digits, numeral, spelled⟩ := toList_number decimalLayout value
      rw [text, if_pos finite, spelled, positive]
      exact numeral.begins_other
    · rw [text, if_neg finite]
      exact ⟨_, _, rfl, by decide⟩
  | function callee =>
    have isWord : isWord (Text.upper callee).toList = true := plain
    rw [text]
    generalize (Text.upper callee).toList = chars at isWord ⊢
    cases chars with
    | nil => cases isWord
    | cons c rest =>
      refine ⟨c, rest, rfl, ?_, ?_⟩
      · rintro rfl
        cases isWord
      · rintro rfl
        cases isWord
  | placeholder parameter => exact ⟨'?', [], by simp [text], by decide⟩
  | verbatim content => cases plain

/-- A token is scanned as its pieces in front of every token that may stand next to it, unless both
are minus signs. -/
theorem scansBefore_abuts (plain : token.isPlain = true) (plainNext : next.isPlain = true)
    (abuts : token.Abuts next) (apart : token.Apart next) :
    token.ScansBefore (next.text.toList ++ following) := by
  have beforeBreak (isBreak : next.isBreak = true) :
      token.ScansBefore (next.text.toList ++ following) := by
    obtain ⟨last, settled, ends⟩ := exists_endsAs plain
    obtain ⟨c, member, written⟩ := text_break isBreak
    apply ends
    rw [written]
    rintro c ⟨⟩
    exact settled c member
  unfold Abuts at abuts
  split at abuts
  · apply endsAs_quoted (Or.inl rfl) rfl rfl
    rintro c ⟨⟩
    rfl
  · rename_i content
    have written : (identifier content).text.toList =
        '"' :: Text.double '"' content.toList ++ ['"'] := String.toList_ofList
    rw [written]
    apply endsAs_sign (by decide) rfl rfl
    rintro c ⟨⟩
    rfl
  · rcases abuts with begins | isBreak
    · obtain ⟨c, rest, written, other⟩ := text_operand plainNext begins (apart rfl)
      rw [written]
      exact endsAs_sign (by decide) rfl rfl (minus_stops other)
    · exact beforeBreak isBreak
  · rcases abuts with isBreak | isBreak
    · exact scansBefore_break isBreak
    · exact beforeBreak isBreak

/-! ## How much is written in a token -/

/-- Spaces between words leave no ink. -/
theorem ink_intercalate : ∀ words : List (List Char),
    ink ([' '].intercalate words) =
      inkOf (words.map fun word => Piece.word (String.ofList word))
  | [] => rfl
  | [word] => by simp [List.intercalate, inkOf, Piece.written]
  | word :: second :: rest => by
    have further := ink_intercalate (second :: rest)
    have joined : [' '].intercalate (word :: second :: rest) =
        word ++ ' ' :: [' '].intercalate (second :: rest) := by
      simp [List.intercalate]
    rw [joined, ink_append, ink_cons, further]
    simp [inkOf, Piece.written, ink]

/-- The pieces of a number leave the ink of its text. -/
theorem ink_number {text : String} : inkOf (numberPieces text) = ink text.toList := by
  unfold numberPieces
  split
  · rename_i digits spelled
    rw [spelled]
    simp [inkOf, Piece.written]
  · simp [inkOf, Piece.written]

/-- A plain token and its pieces are written with as many characters, spaces aside. -/
theorem ink_text (plain : token.isPlain = true) : inkOf token.pieces = ink token.text.toList := by
  cases token with
  | keyword word =>
    rw [pieces, text, ← ink_intercalate, word.intercalate_words]
  | symbol sign => simp [pieces, text, inkOf, Piece.written]
  | space => rfl
  | identifier content => simp [pieces, text, Text.quoted, inkOf, Piece.written]
  | integer value => exact ink_number
  | decimal value =>
    rw [pieces, text]
    split
    · exact ink_number
    · rfl
  | string content => simp [pieces, text, Text.quoted, inkOf, Piece.written]
  | function callee => simp [pieces, text, inkOf, Piece.written]
  | placeholder parameter => simp [pieces, text, inkOf, Piece.written]
  | verbatim content => cases plain

/-! ## All tokens of a statement -/

variable {tokens : List Token}

/-- The text of tokens is theirs one behind the other. -/
theorem toList_render : (render tokens).toList = tokens.flatMap fun token => token.text.toList := by
  rw [render, String.toList_join, List.flatMap_map]

/-- The text of tokens starts with that of the first. -/
theorem toList_render_cons {rest : List Token} :
    (render (token :: rest)).toList = token.text.toList ++ (render rest).toList := by
  rw [toList_render, toList_render, List.flatMap_cons]

/-- The pieces of plain tokens leave the ink of their text. -/
theorem ink_render (plain : ∀ token ∈ tokens, token.isPlain = true) :
    inkOf (tokens.flatMap pieces) = ink (render tokens).toList := by
  rw [toList_render]
  induction tokens with
  | nil => rfl
  | cons token rest ih =>
    obtain ⟨plainToken, plainRest⟩ := List.forall_mem_cons.mp plain
    rw [List.flatMap_cons, List.flatMap_cons, inkOf_append, ink_append, ink_text plainToken,
      ih plainRest]

/-- The text of a token that begins with a minus sign. -/
theorem text_minus (negative : token.beginsWithMinus = true) :
    ∃ more, token.text.toList = '-' :: more := by
  cases token with
  | symbol sign =>
    cases sign with
    | minus => exact ⟨[], rfl⟩
    | _ => cases negative
  | integer value =>
    obtain ⟨digits, _, spelled⟩ := toList_integer value
    have isNegative : value < 0 := of_decide_eq_true negative
    refine ⟨digits, ?_⟩
    rw [text, spelled, if_pos isNegative]
  | decimal value =>
    obtain ⟨digits, _, spelled⟩ := toList_number decimalLayout value
    simp only [beginsWithMinus, Bool.and_eq_true] at negative
    refine ⟨digits, ?_⟩
    rw [text, if_pos negative.1, spelled, if_pos negative.2]
  | _ => cases negative

/-- Two minus signs begin a comment, and what is left cannot say all that the tokens say. -/
theorem not_saysItsTokens {rest : List Token}
    (plain : ∀ token ∈ symbol .minus :: next :: rest, token.isPlain = true)
    (negative : next.beginsWithMinus = true) :
    ¬ SaysItsTokens (symbol .minus :: next :: rest) := by
  intro scanned
  obtain ⟨more, written⟩ := text_minus negative
  have spelled : (render (symbol .minus :: next :: rest)).toList =
      '-' :: '-' :: (more ++ (render rest).toList) := by
    rw [toList_render_cons, toList_render_cons, written]
    rfl
  have comment : scanFrom .blank ('-' :: '-' :: (more ++ (render rest).toList)) =
      scanFrom .lineComment (more ++ (render rest).toList) := by
    rw [scanFrom_blank_cons]
    rfl
  rw [SaysItsTokens, scan, spelled, comment] at scanned
  -- the pieces need the ink of the whole text, and two signs of it are in the comment
  have found := ink_scanFrom scanned
  have needed := ink_render plain
  have signs (rest : List Char) : ink ('-' :: '-' :: rest) = ink rest + 2 := by
    simp [ink]
  have comments : ink Partial.lineComment.written = 0 := rfl
  rw [spelled, signs] at needed
  omega

/-- A text says its tokens if the first is scanned from it and the rest says its own. -/
theorem saysItsTokens_cons {rest : List Token} (scans : token.ScansBefore (render rest).toList) :
    SaysItsTokens (token :: rest) ↔ SaysItsTokens rest := by
  rw [ScansBefore] at scans
  rw [SaysItsTokens, SaysItsTokens, scan, scan, toList_render_cons, scans, List.flatMap_cons]
  cases scanFrom .blank (render rest).toList with
  | none => simp
  | some others => simp

/-- The text of plain tokens that may stand next to one another says what they say exactly if no
minus sign is followed by another one. -/
theorem saysItsTokens_iff : ∀ {tokens : List Token}, (∀ token ∈ tokens, token.isPlain = true) →
    tokens.IsChain Abuts → (SaysItsTokens tokens ↔ tokens.IsChain Apart)
  | [], _, _ => by
    simp [SaysItsTokens, scan, render, scanFrom, Partial.finish?]
  | [token], plain, _ => by
    obtain ⟨last, _, ends⟩ := exists_endsAs (plain token (by simp))
    have stops : last.Stops (render []).toList := by
      rintro c ⟨⟩
    rw [saysItsTokens_cons (ends stops)]
    simp [SaysItsTokens, scan, render, scanFrom, Partial.finish?]
  | token :: next :: rest, plain, chain => by
    obtain ⟨plainToken, plainRest⟩ := List.forall_mem_cons.mp plain
    obtain ⟨abuts, chainRest⟩ := List.isChain_cons_cons.mp chain
    rw [List.isChain_cons_cons]
    by_cases apart : token.Apart next
    · have scans : token.ScansBefore (render (next :: rest)).toList := by
        rw [toList_render_cons]
        exact scansBefore_abuts plainToken (plainRest next (by simp)) abuts apart
      rw [saysItsTokens_cons scans, saysItsTokens_iff plainRest chainRest]
      exact ⟨fun others => ⟨apart, others⟩, And.right⟩
    · obtain ⟨isMinus, negative⟩ := Classical.not_imp.mp apart
      subst isMinus
      rw [Bool.not_eq_false] at negative
      exact iff_of_false (not_saysItsTokens plain negative) (fun both => apart both.1)

end Token
end ObjectQuery.Sql
