import Mathlib.Data.String.Basic
import ObjectQuery.Proofs.Grammar.Landmarks
import ObjectQuery.Proofs.Outcome
import ObjectQuery.Proofs.Token.Filler
import ObjectQuery.Proofs.Token.Spelling
/-!
# Scanning and writing

Whoever writes tokens one after the other, with white space between any two of them, gets them back
by scanning. And whatever a text holds, scanning loses nothing of it: the lexemes lie in the text one
behind the other, each spelled as it stands there, and all that is left over is white space and
comments.
-/
namespace ObjectQuery

open Text

/-! ## One lexeme -/

/-- The byte length of characters is the one the library gives them. -/
theorem byteLength_eq (cs : List Char) : byteLength cs = String.utf8Len cs := by
  induction cs with
  | nil => rfl
  | cons c cs inductionHypothesis =>
    rw [byteLength, inductionHypothesis, String.utf8Len_cons, Nat.add_comm]

/-- Two texts are as long as both of them. -/
theorem byteLength_append (first second : List Char) :
    byteLength (first ++ second) = byteLength first + byteLength second := by
  rw [byteLength_eq, byteLength_eq, byteLength_eq, String.utf8Len_append]

namespace Lexeme

variable {fuel start : Nat} {gap text rest cs : List Char} {token : Token} {lexemes : List Lexeme}

/-- The token with the given text, which starts at a byte. -/
def placed (token : Token) (start : Nat) (text : List Char) : Lexeme :=
  ⟨token, String.ofList text, ⟨start, start + byteLength text⟩⟩

/-- Nothing is found where there are only fillers. -/
theorem scanWithin_skipped (skipped : Trivia.length cs = cs.length) :
    scanWithin fuel start cs = .ok [] := by
  cases fuel with
  | zero => rfl
  | succ fuel => simp [scanWithin, skipped]

/-- What is found behind fillers depends on what is there, and on where it is. -/
theorem scanWithin_behind (filled : IsFilling gap) (inked : Trivia.piece? cs = none)
    (inside : cs ≠ []) :
    scanWithin (fuel + 1) start (gap ++ cs) = match Token.scan? cs with
      | none => .error (failure (start + byteLength gap) cs)
      | some (token, length) =>
        (scanWithin fuel (start + byteLength gap + byteLength (cs.take length)) (cs.drop length)).map
          (placed token (start + byteLength gap) (cs.take length) :: ·) := by
  obtain ⟨fillers, rfl⟩ := filled
  have skipped : Trivia.length (Filler.charsOf fillers ++ cs) = (Filler.charsOf fillers).length := by
    rw [Trivia.length_charsOf, Trivia.length_of_none inked, Nat.add_zero]
  have characters : cs.isEmpty = false := by simpa using inside
  rw [scanWithin]
  simp only [skipped, List.take_left, List.drop_left, characters, Bool.false_eq_true, if_false]
  rfl

/-! ## What has been written is read -/

/-- The characters display the tokens, any two of them with white space between them, which more
white space and comments may follow. -/
inductive Displays : List Token → List Char → Prop
  | nil : Displays [] []
  | one (token : Token) : Displays [token] token.display.toList
  | more (token : Token) (blank : Char) (isBlank : isBlank blank = true) (fillers : List Filler)
      {next : Token} {tokens : List Token} {cs : List Char} (behind : Displays (next :: tokens) cs) :
      Displays (token :: next :: tokens)
        (token.display.toList ++ blank :: Filler.charsOf fillers ++ cs)

/-- No token is displayed by nothing. -/
theorem display_ne_nil (valid : token.IsValid) : token.display.toList ≠ [] := by
  intro absent
  have breaks : IsBreak [] := by simp [IsBreak]
  have found := Token.scan?_display valid breaks
  rw [absent] at found
  cases found

/-- One token is read where it is displayed, together with all that stands before it. -/
theorem scanWithin_display (valid : token.IsValid) (filled : IsFilling gap) (breaks : IsBreak rest) :
    scanWithin (fuel + 1) start (gap ++ (token.display.toList ++ rest)) =
      (scanWithin fuel (start + byteLength gap + byteLength token.display.toList) rest).map
        (placed token (start + byteLength gap) token.display.toList :: ·) := by
  have inside : token.display.toList ++ rest ≠ [] := by simp [display_ne_nil valid]
  rw [scanWithin_behind filled (Token.piece?_display valid breaks) inside,
    Token.scan?_display valid breaks]
  simp only [List.take_left, List.drop_left]

/-- Valid tokens with filler between are scanned one by one. -/
theorem scanWithin_displays {tokens : List Token} (displays : Displays tokens cs)
    (valid : ∀ token ∈ tokens, token.IsValid) (filled : IsFilling gap)
    (enough : tokens.length ≤ fuel) :
    ∃ lexemes, scanWithin fuel start (gap ++ cs) = .ok lexemes ∧
      lexemes.map (·.token) = tokens := by
  induction displays generalizing fuel start gap with
  | nil =>
    obtain ⟨fillers, rfl⟩ := filled
    refine ⟨[], scanWithin_skipped ?_, rfl⟩
    rw [Trivia.length_charsOf, List.append_nil]
    rfl
  | one token =>
    cases fuel with
    | zero => simp at enough
    | succ fuel =>
      have breaks : IsBreak [] := by simp [IsBreak]
      have step := @scanWithin_display fuel start gap [] token (valid token List.mem_cons_self) filled
        breaks
      rw [List.append_nil, @scanWithin_skipped fuel _ [] rfl] at step
      exact ⟨_, step, rfl⟩
  | @more token blank isBlank fillers next tokens cs behind inductionHypothesis =>
    cases fuel with
    | zero => simp at enough
    | succ fuel =>
      have breaks : IsBreak (blank :: Filler.charsOf fillers ++ cs) := by
        intro c begins
        obtain rfl := Option.some.inj begins
        exact isBlank
      have step := @scanWithin_display fuel start gap _ token (valid token List.mem_cons_self) filled
        breaks
      -- What separates the token from the next one is skipped before the next one.
      have separates : IsFilling (blank :: Filler.charsOf fillers) :=
        ⟨.blank blank isBlank :: fillers, rfl⟩
      obtain ⟨lexemes, scanned, same⟩ := inductionHypothesis
        (fun token later => valid token (List.mem_cons_of_mem _ later)) separates
        (Nat.le_of_succ_le_succ enough)
      rw [scanned] at step
      rw [List.append_assoc]
      exact ⟨_, step, congrArg (token :: ·) same⟩

/-- There are no more tokens than characters. -/
theorem Displays.length_le {tokens : List Token} (displays : Displays tokens cs)
    (valid : ∀ token ∈ tokens, token.IsValid) : tokens.length ≤ cs.length := by
  induction displays with
  | nil => exact Nat.le_refl _
  | one token =>
    have some := List.length_pos_of_ne_nil (display_ne_nil (valid token List.mem_cons_self))
    rw [List.length_singleton]
    omega
  | more token blank isBlank fillers behind inductionHypothesis =>
    have bound := inductionHypothesis fun token later => valid token (List.mem_cons_of_mem _ later)
    simp only [List.length_cons, List.length_append] at bound ⊢
    omega

/-- Scanning undoes the display of tokens. -/
theorem scan_displays {source : String} {tokens : List Token}
    (valid : ∀ token ∈ tokens, token.IsValid) (displays : Displays tokens source.toList) :
    ∃ lexemes, scan source = .ok lexemes ∧ lexemes.map (·.token) = tokens :=
  scanWithin_displays displays valid ⟨[], rfl⟩ (displays.length_le valid)

/-- A text with comments and odd blanks is scanned to its tokens. -/
theorem scan_displays_commented :
    ∃ lexemes, scan "größe\u2003-- a 'name'\n<> 'it''s' /* - */ - /* / * */ 1.5" = .ok lexemes ∧
      lexemes.map (·.token) =
        [.identifier "größe", .mark .ne, .quotation "it''s", .mark .minus, .number "1.5"] := by
  apply scan_displays
  · simp only [List.forall_mem_cons, List.not_mem_nil, false_implies, implies_true, and_true]
    refine ⟨⟨⟨'g', "röße".toList, rfl, by decide, List.all_eq_true.mp (by decide +kernel)⟩, ?_⟩,
      trivial, ⟨"it's".toList, rfl⟩, trivial,
      .inr ⟨['1'], ['5'], rfl, by simp [Token.AreDigits], by simp [Token.AreDigits]⟩⟩
    intro keyword
    cases keyword <;> decide
  · exact .more _ '\u2003' (by decide) [.line " a 'name'".toList (by decide)]
      (.more _ ' ' (by decide) []
        (.more _ ' ' (by decide) [.block " - ".toList (by decide), .blank ' ' (by decide)]
          (.more _ ' ' (by decide)
            [.block " / * ".toList (by decide), .blank ' ' (by decide)] (.one _))))

/-! ## What is read was written -/

/-- The lexemes are what scanning finds in the characters, which start at a byte. -/
inductive Scanned : Nat → List Char → List Lexeme → Prop
  | nil {start : Nat} {cs : List Char} (skipped : Trivia.length cs = cs.length) : Scanned start cs []
  | cons {start : Nat} {gap text rest : List Char} {token : Token} {lexemes : List Lexeme}
      (filled : IsFilling gap) (inked : Trivia.piece? (text ++ rest) = none) (inside : text ≠ [])
      (found : Token.scan? (text ++ rest) = some (token, text.length))
      (behind : Scanned (start + byteLength gap + byteLength text) rest lexemes) :
      Scanned start (gap ++ (text ++ rest)) (placed token (start + byteLength gap) text :: lexemes)

/-- What scanning finds at one place: nothing but fillers, or a token and what is behind it.

Proof: by induction on the fuel. Each token takes at least one character, so the fuel suffices for
the rest. -/
theorem scanned_of_scanWithin (enough : cs.length ≤ fuel)
    (scanned : scanWithin fuel start cs = .ok lexemes) : Scanned start cs lexemes := by
  induction fuel generalizing start cs lexemes with
  | zero =>
    obtain rfl : cs = [] := List.length_eq_zero_iff.mp (Nat.le_zero.mp enough)
    obtain rfl := Except.ok.inj scanned
    exact .nil rfl
  | succ fuel inductionHypothesis =>
    rcases skipped_isFilling cs with ⟨filled, inked⟩ | ⟨skipped, filled⟩
    · have split : cs.take (Trivia.length cs) ++ cs.drop (Trivia.length cs) = cs :=
        List.take_append_drop _ _
      generalize cs.take (Trivia.length cs) = gap at filled split
      generalize cs.drop (Trivia.length cs) = behind at inked split
      subst split
      by_cases ends : behind = []
      · subst ends
        obtain ⟨fillers, rfl⟩ := filled
        have skipped : Trivia.length (Filler.charsOf fillers ++ []) =
            (Filler.charsOf fillers ++ []).length := by
          rw [Trivia.length_charsOf, List.append_nil]
          rfl
        rw [scanWithin_skipped skipped] at scanned
        obtain rfl := Except.ok.inj scanned
        exact .nil skipped
      · rw [scanWithin_behind filled inked ends] at scanned
        cases found : Token.scan? behind with
        | none =>
          rw [found] at scanned
          cases scanned
        | some answer =>
          obtain ⟨token, length⟩ := answer
          obtain ⟨text, rest, rfl, rfl, inside, _⟩ := Token.exists_of_scan? found
          rw [found] at scanned
          simp only [List.take_left, List.drop_left] at scanned
          obtain ⟨more, further, rfl⟩ := except_map_ok.mp scanned
          apply Scanned.cons filled inked inside found
          apply inductionHypothesis _ further
          have some : 0 < text.length := List.length_pos_of_ne_nil inside
          simp only [List.length_append] at enough
          omega
    · rw [scanWithin_skipped skipped] at scanned
      obtain rfl := Except.ok.inj scanned
      exact .nil skipped

/-- The characters are cut into the lexemes, with fillers around them. -/
inductive Cuts : Nat → List Char → List Lexeme → Prop
  | nil {start : Nat} {cs : List Char} (filled : IsLastFilling cs) : Cuts start cs []
  | cons {start : Nat} {gap text rest : List Char} {token : Token} {lexemes : List Lexeme}
      (filled : IsFilling gap) (inside : text ≠ []) (spelled : token.IsSpelled (String.ofList text))
      (behind : Cuts (start + byteLength gap + byteLength text) rest lexemes) :
      Cuts start (gap ++ (text ++ rest)) (placed token (start + byteLength gap) text :: lexemes)

/-- What scanning finds is all of the text but fillers. -/
theorem Scanned.cuts (scanned : Scanned start cs lexemes) : Cuts start cs lexemes := by
  induction scanned with
  | @nil start cs skipped =>
    rcases skipped_isFilling cs with ⟨filled, _⟩ | ⟨_, filled⟩
    · rw [skipped, List.take_length] at filled
      exact .nil (.inl filled)
    · exact .nil filled
  | cons filled _ inside found _ inductionHypothesis =>
    obtain ⟨text, rest, same, length, _, _, spelled⟩ := Token.exists_of_scan? found
    obtain ⟨rfl, rfl⟩ := List.append_inj same length
    exact .cons filled inside spelled inductionHypothesis

/-- What is scanned cuts the text into lexemes and filler. -/
theorem cuts_of_scanWithin (enough : cs.length ≤ fuel)
    (scanned : scanWithin fuel start cs = .ok lexemes) : Cuts start cs lexemes :=
  (scanned_of_scanWithin enough scanned).cuts

end Lexeme

/-- The part of a text that a span covers. -/
def Span.textIn (span : Span) (source : String) : String :=
  String.Pos.Raw.extract source ⟨span.start⟩ ⟨span.stop⟩

/-- A span that starts and stops where characters do covers these characters. -/
theorem Span.textIn_eq {source : String} {before text behind : List Char}
    (split : source.toList = before ++ (text ++ behind)) :
    (Span.mk (byteLength before) (byteLength before + byteLength text)).textIn source =
      String.ofList text := by
  have whole : source = String.ofList (before ++ text ++ behind) := by
    rw [List.append_assoc, ← split, String.ofList_toList]
  rw [textIn, byteLength_eq, byteLength_eq, whole]
  exact String.extract_of_valid before text behind

/-- The length of a text in front is a place in the whole. -/
theorem isValid_byteLength {source : String} {before behind : List Char}
    (split : source.toList = before ++ behind) :
    String.Pos.Raw.IsValid source ⟨byteLength before⟩ := by
  rw [String.Pos.Raw.isValid_iff_exists_append]
  refine ⟨String.ofList before, String.ofList behind, ?_, ?_⟩
  · rw [← String.ofList_append, ← split, String.ofList_toList]
  · rw [byteLength_eq, String.rawEndPos, String.utf8ByteSize_ofList]

namespace Lexeme

/-- The places before each of the lexemes, from the end of the one before it. -/
def gaps : Nat → List Lexeme → List Span
  | start, lexeme :: rest => ⟨start, lexeme.span.start⟩ :: gaps lexeme.span.stop rest
  | _, [] => []

/-- Where the last of the lexemes stops. -/
def lastStop : Nat → List Lexeme → Nat
  | _, lexeme :: rest => lastStop lexeme.span.stop rest
  | start, [] => start

/-- From a byte on, a text is made of the lexemes, and fillers around them. -/
structure Covers (source : String) (start : Nat) (lexemes : List Lexeme) : Prop where
  later : ∀ lexeme ∈ lexemes, start ≤ lexeme.span.start
  nonempty : ∀ lexeme ∈ lexemes, lexeme.span.start < lexeme.span.stop
  bounded : ∀ lexeme ∈ lexemes, String.Pos.Raw.IsValid source ⟨lexeme.span.start⟩ ∧
    String.Pos.Raw.IsValid source ⟨lexeme.span.stop⟩
  ordered : lexemes.Pairwise fun lexeme next =>
    lexeme.span.start < next.span.start ∧ lexeme.span.stop ≤ next.span.start
  spelled : ∀ lexeme ∈ lexemes, lexeme.token.IsSpelled (lexeme.span.textIn source)
  between : ∀ gap ∈ gaps start lexemes, IsFilling (gap.textIn source).toList
  behind : IsLastFilling ((Span.mk (lastStop start lexemes) source.utf8ByteSize).textIn source).toList

/-- Where a text is cut into lexemes, they cover it.

Proof: by induction along the cuts. The lexeme at the front starts where the filler before it ends,
and everything else lies behind it. -/
theorem covers_of_cuts {source : String} {before : List Char} (cuts : Cuts start cs lexemes)
    (split : source.toList = before ++ cs) (here : start = byteLength before) :
    Covers source start lexemes := by
  induction cuts generalizing before with
  | @nil start cs filled =>
    have size : source.utf8ByteSize = byteLength before + byteLength cs := by
      rw [← byteLength_append, ← split, byteLength_eq, ← String.utf8ByteSize_ofList, String.ofList_toList]
    have last : (Span.mk start source.utf8ByteSize).textIn source = String.ofList cs := by
      rw [here, size]
      apply Span.textIn_eq
      rw [split, List.append_nil]
    exact {
      later := by simp
      nonempty := by simp
      bounded := by simp
      ordered := by simp
      spelled := by simp
      between := by simp [gaps]
      behind := by rwa [lastStop, last, String.toList_ofList] }
  | @cons start gap text rest token lexemes filled inside spelled behind inductionHypothesis =>
    subst here
    have further : source.toList = (before ++ gap) ++ (text ++ rest) := by rw [split, List.append_assoc]
    have furthest : source.toList = (before ++ gap ++ text) ++ rest := by
      rw [further, ← List.append_assoc]
    have covers := inductionHypothesis furthest (by rw [byteLength_append, byteLength_append])
    have some : 0 < byteLength text := byteLength_pos inside
    have read := Span.textIn_eq further
    have skipped := Span.textIn_eq split
    have first := isValid_byteLength further
    have last := isValid_byteLength furthest
    rw [byteLength_append] at read first
    rw [byteLength_append, byteLength_append] at last
    exact {
      later := by
        rw [List.forall_mem_cons]
        refine ⟨Nat.le_add_right _ _, fun lexeme member => ?_⟩
        have bound := covers.later lexeme member
        omega
      nonempty := by
        rw [List.forall_mem_cons]
        exact ⟨Nat.lt_add_of_pos_right some, covers.nonempty⟩
      bounded := by
        rw [List.forall_mem_cons]
        exact ⟨⟨first, last⟩, covers.bounded⟩
      ordered := by
        rw [List.pairwise_cons]
        refine ⟨fun lexeme member => ?_, covers.ordered⟩
        have bound := covers.later lexeme member
        simp only [placed]
        omega
      spelled := by
        rw [List.forall_mem_cons]
        refine ⟨?_, covers.spelled⟩
        rwa [placed, read]
      between := by
        rw [gaps, List.forall_mem_cons]
        refine ⟨?_, covers.between⟩
        rwa [placed, skipped, String.toList_ofList]
      behind := covers.behind }

/-- Scanning loses nothing. -/
theorem scan_covers {source : String} (scanned : scan source = .ok lexemes) :
    Covers source 0 lexemes := by
  have split : source.toList = [] ++ source.toList := rfl
  exact covers_of_cuts (cuts_of_scanWithin (Nat.le_refl _) scanned) split rfl

/-- The lexemes of a text with comments cover it but for the comments. -/
theorem scan_covers_commented :
    Covers "größe!=/* é */1.5--" 0
      [placed (.identifier "größe") 0 "größe".toList, placed (.mark .ne) 7 "!=".toList,
        placed (.number "1.5") 17 "1.5".toList] :=
  scan_covers (by decide +kernel)

end Lexeme
end ObjectQuery
