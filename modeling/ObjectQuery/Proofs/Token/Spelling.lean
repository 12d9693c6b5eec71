import Mathlib.Data.List.Infix
import ObjectQuery.Text.Quoted
import ObjectQuery.Token.Lexer
/-!
# How tokens are spelled

A text holds identifiers, keywords in any ASCII case, quotations whose marks are doubled, numbers
with or without places, and signs. Such a token is found again in the text that displays it, if white
space or nothing follows. Conversely each token that is found is such a token, and the text that it
was found in spells it.
-/
namespace ObjectQuery

open Text

/-! ## White space ends every token -/

namespace Text

/-- The members of a set of code points whose last edge ends a range. -/
def Ranges.points : List Nat → List Nat
  | first :: last :: rest => List.range' first (last - first) ++ points rest
  | _ => []

variable {point : Nat}

/-- Folding over the edges finds on which side of them a point lies. -/
theorem Ranges.contains_foldl (edges : List Nat) (inside : Bool) :
    edges.foldl (fun inside edge => if edge ≤ point then !inside else inside) inside =
      (inside ^^ contains ⟨edges⟩ point) := by
  induction edges generalizing inside with
  | nil => cases inside <;> rfl
  | cons edge rest inductionHypothesis =>
    rw [contains, List.foldl_cons, List.foldl_cons, inductionHypothesis, inductionHypothesis]
    by_cases below : edge ≤ point <;> cases inside <;> simp [below]

/-- Membership is decided by one edge after the other. -/
theorem Ranges.contains_cons (edge : Nat) (rest : List Nat) :
    contains ⟨edge :: rest⟩ point = (decide (edge ≤ point) ^^ contains ⟨rest⟩ point) := by
  rw [contains, List.foldl_cons, contains_foldl]
  by_cases below : edge ≤ point <;> simp [below]

/-- If the edges increase, a member lies between the two edges of a range. -/
theorem Ranges.mem_points {edges : List Nat} (increasing : edges.Pairwise (· < ·))
    (even : edges.length % 2 = 0) (inside : contains ⟨edges⟩ point = true) :
    point ∈ points edges := by
  fun_induction points edges with
  | case1 first last rest inductionHypothesis =>
    rw [List.pairwise_cons, List.pairwise_cons] at increasing
    obtain ⟨after, _, increasing⟩ := increasing
    have wide : first < last := after last List.mem_cons_self
    rw [List.mem_append, List.mem_range'_1]
    by_cases between : first ≤ point ∧ point < last
    · exact .inl (by omega)
    · refine .inr (inductionHypothesis increasing (by simp only [List.length_cons] at even; omega) ?_)
      have same : decide (first ≤ point) = decide (last ≤ point) := by
        rw [decide_eq_decide]
        omega
      rwa [contains_cons, contains_cons, same, ← Bool.xor_assoc, Bool.xor_self, Bool.false_xor] at inside
  | case2 edges otherwise =>
    match edges with
    | [] => cases inside
    | [_] => cases even
    | first :: last :: rest => exact (otherwise first last rest rfl).elim

/-- A blank is one of the listed code points. -/
theorem mem_points_of_isBlank {c : Char} (blank : isBlank c = true) :
    c.toNat ∈ Ranges.points blanks.edges :=
  Ranges.mem_points (by decide) (by decide) blank

/-- No white space is part of an identifier. -/
theorem isIdentifierRest_of_isBlank {c : Char} (blank : isBlank c = true) :
    isIdentifierRest c = false := by
  have apart : ∀ point ∈ Ranges.points blanks.edges, isIdentifierRest (Char.ofNat point) = false := by
    decide +kernel
  have found := apart c.toNat (mem_points_of_isBlank blank)
  rwa [Char.ofNat_toNat] at found

/-- A digit lies between the code points of `0` and `9`. -/
theorem toNat_of_isDigit {c : Char} (digit : c.isDigit = true) : 48 ≤ c.toNat ∧ c.toNat ≤ 57 := by
  simpa [Char.isDigit, UInt32.le_iff_toNat_le] using digit

/-- A digit may stand inside an identifier. -/
theorem isIdentifierRest_of_isDigit {c : Char} (digit : c.isDigit = true) :
    isIdentifierRest c = true := by
  have bounds := toNat_of_isDigit digit
  have ascii : c.toNat < 128 := by omega
  simp [isIdentifierRest, ascii, Char.isAlphanum, digit]

/-- A digit starts no identifier. -/
theorem isIdentifierStart_of_isDigit {c : Char} (digit : c.isDigit = true) :
    isIdentifierStart c = false := by
  have bounds := toNat_of_isDigit digit
  have ascii : c.toNat < 128 := by omega
  have letter : c.isAlpha = false := by
    delta Char.isAlpha Char.isUpper Char.isLower
    simp only [Bool.or_eq_false_iff, Bool.and_eq_false_iff, decide_eq_false_iff_not, ge_iff_le,
      UInt32.le_iff_toNat_le]
    have code : c.val.toNat = c.toNat := rfl
    rw [code]
    have first : ('A'.val).toNat = 65 := rfl
    have firstToo : ('a'.val).toNat = 97 := rfl
    omega
  have underscore : c ≠ '_' := by
    rintro rfl
    cases digit
  simp [isIdentifierStart, ascii, letter, underscore]

/-- What starts an identifier may stand inside one. -/
theorem isIdentifierRest_of_isIdentifierStart {c : Char} (start : isIdentifierStart c = true) :
    isIdentifierRest c = true := by
  unfold isIdentifierStart at start
  unfold isIdentifierRest
  split
  · rename_i ascii
    rw [if_pos ascii, Bool.or_eq_true] at start
    rcases start with letter | underscore
    · simp [Char.isAlphanum, letter]
    · simp [underscore]
  · rename_i beyond
    rw [if_neg beyond] at start
    simp [start]

end Text

/-- White space or nothing follows. -/
def IsBreak (rest : List Char) : Prop := ∀ c ∈ rest.head?, isBlank c = true

/-- What breaks off tokens does not begin with a character that is no white space. -/
theorem IsBreak.head_ne {rest : List Char} (breaks : IsBreak rest) {c : Char}
    (inked : isBlank c = false) : rest.head? ≠ some c := by
  intro begins
  rw [breaks c begins] at inked
  cases inked

/-- As many characters are taken as have the property, if what follows begins with none. -/
theorem takeWhile_exact {body rest : List Char} {holds : Char → Bool}
    (inside : ∀ c ∈ body, holds c = true) (stops : ∀ c ∈ rest.head?, holds c = false) :
    (body ++ rest).takeWhile holds = body := by
  rw [List.takeWhile_append_of_pos inside]
  cases rest with
  | nil => simp
  | cons c rest => simp [stops c rfl]

namespace Token

/-! ## Tokens that a text can hold -/

/-- The word is an identifier, and no keyword in any ASCII case. -/
def IsName (word : List Char) : Prop :=
  (∃ first rest, word = first :: rest ∧ isIdentifierStart first = true ∧
    ∀ c ∈ rest, isIdentifierRest c = true) ∧
  ∀ keyword : Keyword, keyword.text.toList ≠ word.map Char.toLower

/-- Digits, of which there is at least one. -/
def AreDigits (digits : List Char) : Prop := digits ≠ [] ∧ ∀ c ∈ digits, c.isDigit = true

/-- The token is one that a text can hold. -/
def IsValid : Token → Prop
  | keyword _ | mark _ => True
  | identifier name => IsName name.toList
  | quotation content => ∃ value, content.toList = double '\'' value
  | number digits => AreDigits digits.toList ∨
      ∃ whole places, digits.toList = whole ++ '.' :: places ∧ AreDigits whole ∧ AreDigits places

/-- The text spells the token. -/
def IsSpelled : Token → String → Prop
  | keyword word, text => text.toList.map Char.toLower = word.text.toList
  | identifier name, text => text = name
  | quotation content, text => text = "'" ++ content ++ "'"
  | number digits, text => text = digits
  | mark sign, text => text = sign.text ∨ sign = .ne ∧ text = "!="

variable {rest : List Char}

/-! ## Words -/

/-- A word that breaks off is scanned whole. -/
theorem scan?_word {first : Char} {others : List Char} (start : isIdentifierStart first = true)
    (inside : ∀ c ∈ others, isIdentifierRest c = true) (breaks : IsBreak rest) :
    scan? (first :: others ++ rest) = some (ofWord (first :: others), others.length + 1) := by
  have taken := takeWhile_exact inside fun c begins => isIdentifierRest_of_isBlank (breaks c begins)
  rw [List.cons_append, scan?, if_pos start, taken]
  rfl

/-- A word that is a name and no keyword is an identifier. -/
theorem ofWord_of_isName {word : List Char} (named : IsName word) :
    ofWord word = .identifier (String.ofList word) := by
  have unknown : Keyword.ofWord? word = none := by
    rw [Keyword.ofWord?, List.find?_eq_none]
    intro keyword _ spelled
    exact named.2 keyword (by simpa using spelled)
  rw [ofWord, unknown]

/-- The text of a keyword is that keyword. -/
theorem ofWord_keyword (word : Keyword) : ofWord word.text.toList = .keyword word := by
  cases word <;> decide

/-- The text of a keyword is a word. -/
theorem keyword_isWord (word : Keyword) : ∃ first others, word.text.toList = first :: others ∧
    isIdentifierStart first = true ∧ ∀ c ∈ others, isIdentifierRest c = true := by
  cases word <;> exact ⟨_, _, rfl, by decide, List.all_eq_true.mp (by decide)⟩

/-! ## Quotations -/

/-- A quotation with its quotes doubled reaches to its closing quote. -/
theorem quotationLength?_double (value : List Char) (breaks : IsBreak rest) :
    quotationLength? (double '\'' value ++ '\'' :: rest) =
      some ((double '\'' value).length + 1) := by
  induction value with
  | nil =>
    rw [double, List.nil_append]
    cases rest with
    | nil => rfl
    | cons c rest =>
      have other : c ≠ '\'' := by
        rintro rfl
        exact breaks.head_ne (by decide) rfl
      rw [quotationLength?]
      · rfl
      · intro others same
        exact other (List.cons.inj same).1
  | cons c value inductionHypothesis =>
    by_cases quote : c = '\''
    · subst quote
      simp [double, quotationLength?, inductionHypothesis]
    · simp only [double, if_neg quote, List.cons_append]
      rw [quotationLength?]
      · simp [inductionHypothesis]
      · intro others same
        exact absurd same quote
      · intro same
        exact absurd same quote

/-! ## Numbers -/

/-- A blank is no digit. -/
theorem isDigit_of_isBlank {c : Char} (blank : isBlank c = true) : c.isDigit = false := by
  rw [Bool.eq_false_iff]
  intro digit
  have inside := isIdentifierRest_of_isDigit digit
  rw [isIdentifierRest_of_isBlank blank] at inside
  cases inside

/-- Digits that break off are scanned whole. -/
theorem numberLength_digits {digits : List Char} (all : ∀ c ∈ digits, c.isDigit = true)
    (breaks : IsBreak rest) : numberLength (digits ++ rest) = digits.length := by
  have taken := takeWhile_exact all fun c begins => isDigit_of_isBlank (breaks c begins)
  rw [numberLength, taken, List.drop_left]
  dsimp only
  split
  · rename_i others
    exact (breaks.head_ne (c := '.') (by decide) rfl).elim
  · rfl

/-- Digits, a point and further digits are scanned whole. -/
theorem numberLength_places {whole places : List Char} (all : ∀ c ∈ whole, c.isDigit = true)
    (places_are : AreDigits places) (breaks : IsBreak rest) :
    numberLength (whole ++ '.' :: places ++ rest) = (whole ++ '.' :: places).length := by
  have taken : (whole ++ '.' :: (places ++ rest)).takeWhile Char.isDigit = whole := by
    refine takeWhile_exact all fun c begins => ?_
    obtain rfl := Option.some.inj begins
    rfl
  have takenToo := takeWhile_exact places_are.2 fun c begins => isDigit_of_isBlank (breaks c begins)
  have some : places.length ≠ 0 := by simpa using places_are.1
  rw [List.append_assoc, List.cons_append, numberLength, taken, List.drop_left]
  simp only [takenToo, if_neg some, List.length_append, List.length_cons]
  omega

/-- A number begins with a digit and goes on as far as it was meant to. -/
theorem numberLength_isValid {digits : String} (valid : (number digits).IsValid)
    (breaks : IsBreak rest) :
    (∃ first others, digits.toList = first :: others ∧ first.isDigit = true) ∧
      numberLength (digits.toList ++ rest) = digits.toList.length := by
  rcases valid with ⟨some, all⟩ | ⟨whole, places, spelled, ⟨some, all⟩, further⟩
  · obtain ⟨first, others, spelled⟩ := List.exists_cons_of_ne_nil some
    refine ⟨⟨first, others, spelled, all first ?_⟩, numberLength_digits all breaks⟩
    rw [spelled]
    exact List.mem_cons_self
  · obtain ⟨first, others, rfl⟩ := List.exists_cons_of_ne_nil some
    refine ⟨⟨first, others ++ '.' :: places, spelled, all first List.mem_cons_self⟩, ?_⟩
    rw [spelled]
    exact numberLength_places all further breaks

/-! ## Signs -/

/-- A mark that breaks off is scanned whole. -/
theorem scanMark?_text (sign : Mark) (breaks : IsBreak rest) :
    scanMark? (sign.text.toList ++ rest) = some (sign, sign.text.toList.length) := by
  cases rest with
  | nil => cases sign <;> rfl
  | cons c rest =>
    have greater : c ≠ '>' := by
      rintro rfl
      exact breaks.head_ne (by decide) rfl
    have equal : c ≠ '=' := by
      rintro rfl
      exact breaks.head_ne (by decide) rfl
    cases sign <;> simp [Mark.text, scanMark?, greater, equal]

/-- A sign begins as no other token does. -/
theorem mark_begins (sign : Mark) : ∃ first others, sign.text.toList = first :: others ∧
    isIdentifierStart first = false ∧ first ≠ '\'' ∧ first.isDigit = false := by
  cases sign <;> exact ⟨_, _, rfl, by decide, by decide, by decide⟩

/-! ## Displays -/

/-- A token that a text can hold is found where it is displayed.

Proof: by cases on the token. Its first character decides how it is scanned, and what breaks off
behind it decides where it ends. -/
theorem scan?_display {token : Token} (valid : token.IsValid) (breaks : IsBreak rest) :
    scan? (token.display.toList ++ rest) = some (token, token.display.toList.length) := by
  cases token with
  | keyword word =>
    obtain ⟨first, others, spelled, start, inside⟩ := keyword_isWord word
    have found := scan?_word start inside breaks
    rw [← spelled, ofWord_keyword] at found
    rw [display, found, spelled]
    rfl
  | identifier name =>
    have named : IsName name.toList := valid
    obtain ⟨first, others, spelled, start, inside⟩ := named.1
    have found := scan?_word start inside breaks
    rw [← spelled, ofWord_of_isName named, String.ofList_toList] at found
    rw [display, found, spelled]
    rfl
  | quotation content =>
    obtain ⟨value, doubled⟩ := valid
    have closed := quotationLength?_double value breaks
    rw [← doubled] at closed
    have spelled : (quotation content).display.toList ++ rest =
        '\'' :: (content.toList ++ '\'' :: rest) := by
      simp [display]
    rw [spelled, scan?, if_neg (by decide), if_pos rfl, closed]
    simp [display]
  | number digits =>
    obtain ⟨⟨first, others, spelled, digit⟩, length⟩ := numberLength_isValid valid breaks
    have quote : first ≠ '\'' := by
      rintro rfl
      cases digit
    rw [display]
    rw [spelled, List.cons_append] at length ⊢
    rw [scan?, if_neg (by simp [isIdentifierStart_of_isDigit digit]), if_neg quote, if_pos digit]
    dsimp only
    rw [length, ← List.cons_append, List.take_left, ← spelled, String.ofList_toList]
  | mark sign =>
    obtain ⟨first, others, spelled, start, quote, digit⟩ := mark_begins sign
    have found := scanMark?_text sign breaks
    rw [display]
    rw [spelled, List.cons_append] at found ⊢
    rw [scan?, if_neg (by simp [start]), if_neg quote, if_neg (by simp [digit]), found]
    rfl

/-- A visible character that starts no comment is no filler. -/
theorem piece?_of_inked {c : Char} (inked : isBlank c = false) (dash : c ≠ '-') (slash : c ≠ '/') :
    Trivia.piece? (c :: rest) = none := by
  unfold Trivia.piece?
  split
  · rename_i same
    exact absurd (List.cons.inj same).1 dash
  · rename_i same
    exact absurd (List.cons.inj same).1 slash
  · rename_i same
    obtain ⟨rfl, _⟩ := List.cons.inj same
    rw [if_neg (by simp [inked])]
  · rfl

/-- What may stand inside an identifier is no filler. -/
theorem piece?_of_isIdentifierRest {c : Char} (inside : isIdentifierRest c = true) :
    Trivia.piece? (c :: rest) = none := by
  apply piece?_of_inked
  · rw [Bool.eq_false_iff]
    intro blank
    rw [isIdentifierRest_of_isBlank blank] at inside
    cases inside
  · rintro rfl
    exact absurd inside (by decide)
  · rintro rfl
    exact absurd inside (by decide)

/-- A mark that breaks off is no filler. -/
theorem piece?_mark (sign : Mark) (breaks : IsBreak rest) :
    Trivia.piece? (sign.text.toList ++ rest) = none := by
  cases sign with
  | minus =>
    cases rest with
    | nil => decide
    | cons c rest =>
      have dash : c ≠ '-' := by
        rintro rfl
        exact breaks.head_ne (by decide) rfl
      simp [Mark.text, Trivia.piece?, dash, (by decide : isBlank '-' = false)]
  | slash =>
    cases rest with
    | nil => decide
    | cons c rest =>
      have star : c ≠ '*' := by
        rintro rfl
        exact breaks.head_ne (by decide) rfl
      simp [Mark.text, Trivia.piece?, star, (by decide : isBlank '/' = false)]
  | _ => exact piece?_of_inked (by decide) (by decide) (by decide)

/-- No white space and no comment begins where a token is displayed. -/
theorem piece?_display {token : Token} (valid : token.IsValid) (breaks : IsBreak rest) :
    Trivia.piece? (token.display.toList ++ rest) = none := by
  cases token with
  | keyword word =>
    obtain ⟨first, others, spelled, start, _⟩ := keyword_isWord word
    rw [display, spelled]
    exact piece?_of_isIdentifierRest (isIdentifierRest_of_isIdentifierStart start)
  | identifier name =>
    obtain ⟨⟨first, others, spelled, start, _⟩, _⟩ := valid
    rw [display, spelled]
    exact piece?_of_isIdentifierRest (isIdentifierRest_of_isIdentifierStart start)
  | quotation content =>
    have spelled : (quotation content).display.toList ++ rest =
        '\'' :: (content.toList ++ '\'' :: rest) := by
      simp [display]
    rw [spelled]
    exact piece?_of_inked (by decide) (by decide) (by decide)
  | number digits =>
    obtain ⟨⟨first, others, spelled, digit⟩, _⟩ := numberLength_isValid valid breaks
    rw [display, spelled]
    exact piece?_of_isIdentifierRest (isIdentifierRest_of_isDigit digit)
  | mark sign => exact piece?_mark sign breaks

/-! ## What is found -/

/-- A keyword is found where its letters stand, in any ASCII case. -/
theorem spelled_of_ofWord? {word : List Char} {found : Keyword}
    (known : Keyword.ofWord? word = some found) : word.map Char.toLower = found.text.toList := by
  have spelled := List.find?_some known
  simpa [eq_comm] using spelled

/-- A word that is no keyword is spelled like none of them in any case. -/
theorem ne_of_ofWord?_eq_none {word : List Char} (unknown : Keyword.ofWord? word = none)
    (keyword : Keyword) : keyword.text.toList ≠ word.map Char.toLower := by
  have listed : keyword ∈ Keyword.all := by cases keyword <;> decide
  simpa using List.find?_eq_none.mp unknown keyword listed

/-- A word is a valid token that is spelled by it. -/
theorem ofWord_isSpelled {first : Char} {others : List Char}
    (start : isIdentifierStart first = true) (inside : ∀ c ∈ others, isIdentifierRest c = true) :
    (ofWord (first :: others)).IsValid ∧
      (ofWord (first :: others)).IsSpelled (String.ofList (first :: others)) := by
  unfold ofWord
  cases known : Keyword.ofWord? (first :: others) with
  | some word =>
    refine ⟨trivial, ?_⟩
    rw [IsSpelled, String.toList_ofList]
    exact spelled_of_ofWord? known
  | none =>
    refine ⟨?_, rfl⟩
    rw [IsValid, String.toList_ofList]
    exact ⟨⟨first, others, rfl, start, inside⟩, ne_of_ofWord?_eq_none known⟩

/-- What has been taken up to the end of a quotation has its marks doubled. -/
theorem exists_of_quotationLength? {cs : List Char} {taken : Nat}
    (closed : quotationLength? cs = some taken) :
    ∃ value rest, cs = double '\'' value ++ '\'' :: rest ∧
      taken = (double '\'' value).length + 1 := by
  fun_induction quotationLength? cs generalizing taken with
  | case1 others inductionHypothesis =>
    obtain ⟨further, inside, rfl⟩ := Option.map_eq_some_iff.mp closed
    obtain ⟨value, rest, rfl, rfl⟩ := inductionHypothesis inside
    exact ⟨'\'' :: value, rest, by simp [double], by simp [double]⟩
  | case2 others otherwise =>
    obtain rfl := Option.some.inj closed
    exact ⟨[], others, rfl, rfl⟩
  | case3 c others single other inductionHypothesis =>
    obtain ⟨further, inside, rfl⟩ := Option.map_eq_some_iff.mp closed
    obtain ⟨value, rest, rfl, rfl⟩ := inductionHypothesis inside
    have different : c ≠ '\'' := other
    exact ⟨c :: value, rest, by simp [double, different], by simp [double, different]⟩
  | case4 => cases closed

/-- What is scanned as a number is digits, or digits with a point between.

Proof: the digits are followed by a point with digits behind it or by neither. -/
theorem exists_of_numberLength {c : Char} {cs : List Char} (digit : c.isDigit = true) :
    ∃ digits rest, c :: cs = digits ++ rest ∧ numberLength (c :: cs) = digits.length ∧
      digits ≠ [] ∧ (number (String.ofList digits)).IsValid := by
  have split := List.takeWhile_append_dropWhile (p := Char.isDigit) (l := c :: cs)
  have some : (c :: cs).takeWhile Char.isDigit ≠ [] := by simp [digit]
  have all : ∀ d ∈ (c :: cs).takeWhile Char.isDigit, d.isDigit = true :=
    List.all_eq_true.mp List.all_takeWhile
  unfold numberLength
  generalize (c :: cs).takeWhile Char.isDigit = whole at split some all ⊢
  generalize (c :: cs).dropWhile Char.isDigit = behind at split
  dsimp only
  rw [← split, List.drop_left]
  have plain : (number (String.ofList whole)).IsValid := by
    apply Or.inl
    rw [String.toList_ofList]
    exact ⟨some, all⟩
  cases behind with
  | nil => exact ⟨whole, [], rfl, rfl, some, plain⟩
  | cons d rest =>
    by_cases point : d = '.'
    · subst point
      have splitToo := List.takeWhile_append_dropWhile (p := Char.isDigit) (l := rest)
      have further : ∀ d ∈ rest.takeWhile Char.isDigit, d.isDigit = true :=
        List.all_eq_true.mp List.all_takeWhile
      by_cases ends : (rest.takeWhile Char.isDigit).length = 0
      · exact ⟨whole, '.' :: rest, rfl, if_pos ends, some, plain⟩
      · refine ⟨whole ++ '.' :: rest.takeWhile Char.isDigit, rest.dropWhile Char.isDigit, ?_,
          (if_neg ends).trans ?_, by simp, .inr ?_⟩
        · rw [List.append_assoc, List.cons_append, splitToo]
        · rw [List.length_append, List.length_cons]
          omega
        · refine ⟨whole, _, String.toList_ofList, ⟨some, all⟩, ?_, further⟩
          rwa [List.length_eq_zero_iff] at ends
    · refine ⟨whole, d :: rest, rfl, ?_, some, plain⟩
      split
      · rename_i same
        exact absurd (List.cons.inj same).1 point
      · rfl

/-- What is scanned as a mark is the text of the mark. -/
theorem exists_of_scanMark? {cs : List Char} {sign : Mark} {length : Nat}
    (found : scanMark? cs = some (sign, length)) :
    ∃ text rest, cs = text ++ rest ∧ length = text.length ∧ text ≠ [] ∧
      (mark sign).IsSpelled (String.ofList text) := by
  unfold scanMark? at found
  split at found
  case h_2 others =>
    cases found
    exact ⟨['!', '='], others, rfl, rfl, by simp, .inr ⟨rfl, rfl⟩⟩
  case h_21 => cases found
  all_goals
    cases found
    first
    | exact ⟨[_], _, rfl, rfl, by simp, .inl rfl⟩
    | exact ⟨[_, _], _, rfl, rfl, by simp, .inl rfl⟩

/-- Every token that is found is one that a text can hold, and the text it was found in spells it.

Proof: by cases on the first character, as the scanner does. -/
theorem exists_of_scan? {cs : List Char} {token : Token} {length : Nat}
    (found : scan? cs = some (token, length)) :
    ∃ text rest, cs = text ++ rest ∧ length = text.length ∧ text ≠ [] ∧ token.IsValid ∧
      token.IsSpelled (String.ofList text) := by
  cases cs with
  | nil => cases found
  | cons c cs =>
    rw [scan?] at found
    by_cases start : isIdentifierStart c = true
    · rw [if_pos start] at found
      obtain ⟨rfl, rfl⟩ := Prod.mk.inj (Option.some.inj found)
      have inside : ∀ d ∈ cs.takeWhile isIdentifierRest, isIdentifierRest d = true :=
        List.all_eq_true.mp List.all_takeWhile
      refine ⟨c :: cs.takeWhile isIdentifierRest, cs.dropWhile isIdentifierRest, ?_, rfl, by simp,
        ofWord_isSpelled start inside⟩
      rw [List.cons_append, List.takeWhile_append_dropWhile]
    rw [if_neg start] at found
    by_cases quote : c = '\''
    · subst quote
      rw [if_pos rfl] at found
      obtain ⟨taken, closed, same⟩ := Option.map_eq_some_iff.mp found
      obtain ⟨value, rest, rfl, rfl⟩ := exists_of_quotationLength? closed
      obtain ⟨rfl, rfl⟩ := Prod.mk.inj same
      rw [Nat.add_sub_cancel, List.take_left]
      refine ⟨'\'' :: (double '\'' value ++ ['\'']), rest, by simp, by simp, by simp,
        ⟨value, String.toList_ofList⟩, ?_⟩
      rw [IsSpelled, ← String.toList_inj]
      simp
    rw [if_neg quote] at found
    by_cases digit : c.isDigit = true
    · rw [if_pos digit] at found
      obtain ⟨rfl, rfl⟩ := Prod.mk.inj (Option.some.inj found)
      obtain ⟨digits, rest, same, taken, some, valid⟩ := @exists_of_numberLength c cs digit
      rw [taken, same, List.take_left]
      exact ⟨digits, rest, rfl, rfl, some, valid, rfl⟩
    · rw [if_neg digit] at found
      obtain ⟨⟨sign, taken⟩, read, same⟩ := Option.map_eq_some_iff.mp found
      obtain ⟨rfl, rfl⟩ := Prod.mk.inj same
      obtain ⟨text, rest, same, taken, some, spelled⟩ := exists_of_scanMark? read
      exact ⟨text, rest, same, taken, some, trivial, spelled⟩

end Token
end ObjectQuery
