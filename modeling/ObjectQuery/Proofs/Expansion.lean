import Mathlib.Data.List.TakeWhile
import ObjectQuery.Proofs.Outcome
import ObjectQuery.Proofs.Token.Spelling
import ObjectQuery.Settings.Expansion
/-!
# References to variables

A text falls apart into references and single characters in one way, and its expansion replaces the
references and keeps the characters. Where a variable is not set or a brace is not closed, there is no
expansion; which of the two is reported depends on what is reached first.

Braces around nothing are no reference and are not kept either: only their dollar sign is.
-/
namespace ObjectQuery.Expansion

/-! ## The segments of a text -/

/-- A part of a text as the rules for references divide it. -/
inductive Segment where
  /-- A character that no reference begins with. -/
  | plain (c : Char)
  /-- A reference by a dollar sign and a name. -/
  | bare (name : List Char)
  /-- A reference by a dollar sign and a name in braces. -/
  | braced (name : List Char)
  /-- A dollar sign and braces around nothing. -/
  | hollow
  /-- A dollar sign and a brace that is not closed. -/
  | unclosed (name : List Char)

namespace Segment

/-- The characters of the segment. -/
def text : Segment → List Char
  | plain c => [c]
  | bare name => '$' :: name
  | braced name => '$' :: '\x7b' :: name ++ ['\x7d']
  | hollow => ['$', '\x7b', '\x7d']
  | unclosed name => '$' :: '\x7b' :: name

/-- The name that the segment refers to. -/
def name? : Segment → Option String
  | bare name | braced name => some (String.ofList name)
  | _ => none

/-- The segment is all that can be read before the given characters: a dollar sign stands for itself
only if nothing of a reference follows, a name without braces is as long as possible, and braces are
closed where they can be for the first time. -/
def IsReadBefore (rest : List Char) : Segment → Prop
  | plain c => c = '$' → ∀ d ∈ rest.head?, d ≠ '\x7b' ∧ isNameChar d = false
  | bare name => name ≠ [] ∧ (∀ c ∈ name, isNameChar c = true) ∧ ∀ d ∈ rest.head?, isNameChar d = false
  | braced name => name ≠ [] ∧ '\x7d' ∉ name
  | hollow => True
  | unclosed name => '\x7d' ∉ name ∧ rest = []

/-- The segment has a value: it is no reference to a variable that is not set, and all its braces are
closed. -/
def IsSet (environment : String → Option String) : Segment → Prop
  | unclosed _ => False
  | segment => ∀ name ∈ segment.name?, environment name ≠ none

/-- The segment with the value of its variable in its place, if it is a reference. -/
def replaced (environment : String → Option String) (segment : Segment) : List Char :=
  match segment.name? with
  | some name => ((environment name).getD "").toList
  | none => segment.text

/-- The segment as its expansion shows it. -/
def value (environment : String → Option String) : Segment → List Char
  | hollow => ['$']
  | segment => segment.replaced environment

end Segment

/-- The characters of the segments. -/
def textOf (segments : List Segment) : List Char := segments.flatMap Segment.text

/-- From left to right, these are the segments that their characters are read as. -/
def AreRead : List Segment → Prop
  | [] => True
  | segment :: rest => segment.IsReadBefore (textOf rest) ∧ AreRead rest

/-! ## Scanning finds the segments -/

/-- The piece that scanning makes of a segment. -/
def Segment.piece : Segment → Piece
  | plain c => .plain c
  | bare name | braced name => .reference (String.ofList name)
  | hollow => .plain '$'
  | unclosed name => .unterminated (String.ofList name)

variable {segment other : Segment} {segments : List Segment} {rest cs : List Char} {fuel : Nat}

/-- Nothing is left of an empty text. -/
theorem scanWithin_nil : scanWithin fuel [] = [] := by
  cases fuel <;> rfl

/-- A character other than a dollar sign stands for itself. -/
theorem scanWithin_plain {c : Char} (different : c ≠ '$') :
    scanWithin (fuel + 1) (c :: rest) = .plain c :: scanWithin fuel rest := by
  rw [scanWithin]
  · exact fun _ same => absurd same different
  · exact different

/-- A dollar sign without a brace stands before a name. -/
theorem scanWithin_dollar (unbraced : rest.head? ≠ some '\x7b') :
    scanWithin (fuel + 1) ('$' :: rest) =
      pieceOf (rest.takeWhile isNameChar) :: scanWithin fuel (rest.dropWhile isNameChar) := by
  rw [scanWithin]
  rintro _ rfl
  exact unbraced rfl

/-- A name inside braces holds no closing brace. -/
theorem ne_closing {name : List Char} (isOpen : '\x7d' ∉ name) :
    ∀ c ∈ name, (c != '\x7d') = true := by
  intro c member
  rw [bne_iff_ne]
  rintro rfl
  exact isOpen member

/-- Everything is taken up to a brace that closes for the first time. -/
theorem taken_closed {name : List Char} (isOpen : '\x7d' ∉ name) (rest : List Char) :
    (name ++ '\x7d' :: rest).takeWhile (· != '\x7d') = name ∧
      (name ++ '\x7d' :: rest).dropWhile (· != '\x7d') = '\x7d' :: rest := by
  rw [List.takeWhile_append_of_pos (ne_closing isOpen), List.dropWhile_append_of_pos (ne_closing isOpen)]
  simp

/-- No part of a name is a brace. -/
theorem not_brace_of_isNameChar {c : Char} (inside : isNameChar c = true) : c ≠ '\x7b' := by
  rintro rfl
  exact absurd inside (by decide)

/-- Scanning takes the first segment and goes on behind it. -/
theorem scanWithin_segment (read : segment.IsReadBefore rest) :
    scanWithin (fuel + 1) (segment.text ++ rest) = segment.piece :: scanWithin fuel rest := by
  cases segment with
  | plain c =>
    by_cases dollar : c = '$'
    · subst dollar
      have ends := read rfl
      have unbraced : rest.head? ≠ some '\x7b' := fun begins => (ends _ begins).1 rfl
      have none : rest.takeWhile isNameChar = [] ∧ rest.dropWhile isNameChar = rest := by
        cases rest with
        | nil => exact ⟨rfl, rfl⟩
        | cons d rest => simp [(ends d rfl).2]
      rw [Segment.text, List.singleton_append, scanWithin_dollar unbraced, none.1, none.2]
      rfl
    · exact scanWithin_plain dollar
  | bare name =>
    obtain ⟨some, inside, ends⟩ := read
    have unbraced : (name ++ rest).head? ≠ Option.some '\x7b' := by
      obtain ⟨first, others, rfl⟩ := List.exists_cons_of_ne_nil some
      intro begins
      exact not_brace_of_isNameChar (inside first List.mem_cons_self) (Option.some.inj begins)
    have taken : (name ++ rest).takeWhile isNameChar = name := takeWhile_exact inside ends
    have left : (name ++ rest).dropWhile isNameChar = rest := by
      have whole := List.takeWhile_append_dropWhile (p := isNameChar) (l := name ++ rest)
      rw [taken] at whole
      exact List.append_cancel_left whole
    rw [Segment.text, List.cons_append, scanWithin_dollar unbraced, taken, left]
    simp [pieceOf, some, Segment.piece]
  | braced name =>
    obtain ⟨some, isOpen⟩ := read
    obtain ⟨taken, left⟩ := taken_closed isOpen rest
    simp [Segment.text, scanWithin, taken, left, pieceOf, some, Segment.piece]
  | hollow => simp [Segment.text, scanWithin, pieceOf, Segment.piece]
  | unclosed name =>
    obtain ⟨isOpen, rfl⟩ := read
    have taken := List.takeWhile_eq_self_iff.mpr (ne_closing isOpen)
    have left := List.dropWhile_eq_nil_iff.mpr (ne_closing isOpen)
    simp only [Segment.text, List.append_nil, scanWithin, taken, left, Segment.piece, scanWithin_nil]

/-- A segment has at least one character. -/
theorem text_ne_nil (segment : Segment) : segment.text ≠ [] := by
  cases segment <;> simp [Segment.text]

/-- Scanning finds the segments that a text is read as. -/
theorem scanWithin_areRead (read : AreRead segments) (enough : (textOf segments).length ≤ fuel) :
    scanWithin fuel (textOf segments) = segments.map Segment.piece := by
  induction segments generalizing fuel with
  | nil => exact scanWithin_nil
  | cons segment rest inductionHypothesis =>
    have some := List.length_pos_of_ne_nil (text_ne_nil segment)
    have split : textOf (segment :: rest) = segment.text ++ textOf rest := List.flatMap_cons
    rw [split] at enough ⊢
    rw [List.length_append] at enough
    cases fuel with
    | zero => omega
    | succ fuel =>
      rw [scanWithin_segment read.1, List.map_cons, inductionHypothesis read.2 (by omega)]

/-! ## One reading of a text -/

/-- Whether a brace opens in the segment. -/
def Segment.isBraced : Segment → Bool
  | braced _ | hollow | unclosed _ => true
  | plain _ | bare _ => false

/-- A segment is braced if its text starts that way. -/
theorem isBraced_eq (read : segment.IsReadBefore rest) :
    segment.isBraced = ['$', '\x7b'].isPrefixOf (segment.text ++ rest) := by
  cases segment with
  | plain c =>
    by_cases dollar : c = '$'
    · subst dollar
      have ends := read rfl
      cases rest with
      | nil => rfl
      | cons d rest => simp [Segment.isBraced, Segment.text, List.isPrefixOf, (ends d rfl).1.symm]
    · simp [Segment.isBraced, Segment.text, List.isPrefixOf, Ne.symm dollar]
  | bare name =>
    obtain ⟨some, inside, _⟩ := read
    obtain ⟨first, others, rfl⟩ := List.exists_cons_of_ne_nil some
    have unbraced := not_brace_of_isNameChar (inside first List.mem_cons_self)
    simp [Segment.isBraced, Segment.text, List.isPrefixOf, unbraced.symm]
  | braced name | hollow | unclosed name => simp [Segment.isBraced, Segment.text]

/-- A segment is known by its piece and by whether a brace opens in it. -/
theorem eq_of_piece (pieces : segment.piece = other.piece) (braces : segment.isBraced = other.isBraced) :
    segment = other := by
  cases segment <;> cases other <;> simp_all [Segment.piece, Segment.isBraced, String.ofList_inj]

/-- Two segments that are read at the beginning of the same text are the same. -/
theorem segment_unique {others : List Char} (read : segment.IsReadBefore rest)
    (readToo : other.IsReadBefore others) (same : segment.text ++ rest = other.text ++ others) :
    segment = other := by
  have first : scanWithin 1 _ = _ := scanWithin_segment read
  rw [same, scanWithin_segment readToo] at first
  have pieces : segment.piece = other.piece := (List.cons.inj first).1.symm
  have braces : segment.isBraced = other.isBraced := by
    rw [isBraced_eq read, isBraced_eq readToo, same]
  exact eq_of_piece pieces braces

/-- A text is read in one way. -/
theorem areRead_unique {others : List Segment} (read : AreRead segments) (readToo : AreRead others)
    (same : textOf segments = textOf others) : segments = others := by
  induction segments generalizing others with
  | nil =>
    cases others with
    | nil => rfl
    | cons other others =>
      have empty : other.text ++ textOf others = [] := by simpa [textOf] using same.symm
      exact absurd (List.append_eq_nil_iff.mp empty).1 (text_ne_nil other)
  | cons segment rest inductionHypothesis =>
    cases others with
    | nil =>
      have empty : segment.text ++ textOf rest = [] := by simpa [textOf] using same
      exact absurd (List.append_eq_nil_iff.mp empty).1 (text_ne_nil segment)
    | cons other others =>
      have split : segment.text ++ textOf rest = other.text ++ textOf others := by
        simpa [textOf] using same
      obtain rfl := segment_unique read.1 readToo.1 split
      rw [inductionHypothesis read.2 readToo.2 (List.append_cancel_left split)]

/-- Where characters are dropped no longer, there is none to be dropped. -/
theorem stops_dropWhile (dropped : Char → Bool) (cs : List Char) :
    ∀ d ∈ (cs.dropWhile dropped).head?, dropped d = false := by
  intro d begins
  have stopped := List.head?_dropWhile_not dropped cs
  rw [begins] at stopped
  simpa using stopped

/-- Behind a dollar sign and a brace, the next brace that closes decides. -/
theorem exists_segment_braced (cs : List Char) :
    ∃ segment rest, '$' :: '\x7b' :: cs = Segment.text segment ++ rest ∧ segment.IsReadBefore rest := by
  have split := List.takeWhile_append_dropWhile (p := (· != '\x7d')) (l := cs)
  have isOpen : '\x7d' ∉ cs.takeWhile (· != '\x7d') := fun member =>
    absurd (List.mem_takeWhile_imp member) (by decide)
  have closing : ∀ d ∈ (cs.dropWhile (· != '\x7d')).head?, d = '\x7d' := by
    simpa only [bne_eq_false_iff_eq] using stops_dropWhile (· != '\x7d') cs
  generalize cs.takeWhile (· != '\x7d') = name at split isOpen
  generalize cs.dropWhile (· != '\x7d') = behind at split closing
  subst split
  cases behind with
  | nil => exact ⟨.unclosed name, [], by simp [Segment.text], isOpen, rfl⟩
  | cons d behind =>
    obtain rfl := closing d rfl
    by_cases some : name = []
    · subst some
      exact ⟨.hollow, behind, rfl, trivial⟩
    · exact ⟨.braced name, behind, by simp [Segment.text], some, isOpen⟩

/-- Behind a dollar sign without a brace, the name goes on as long as it can. -/
theorem exists_segment_bare (unbraced : cs.head? ≠ some '\x7b') :
    ∃ segment rest, '$' :: cs = Segment.text segment ++ rest ∧ segment.IsReadBefore rest := by
  have split := List.takeWhile_append_dropWhile (p := isNameChar) (l := cs)
  have inside : ∀ c ∈ cs.takeWhile isNameChar, isNameChar c = true := fun c member =>
    List.mem_takeWhile_imp member
  have ends := stops_dropWhile isNameChar cs
  by_cases some : cs.takeWhile isNameChar = []
  · rw [some, List.nil_append] at split
    rw [split] at ends
    refine ⟨.plain '$', cs, rfl, fun _ d begins => ⟨?_, ends d begins⟩⟩
    rintro rfl
    exact unbraced begins
  · exact ⟨.bare (cs.takeWhile isNameChar), cs.dropWhile isNameChar, by simp [Segment.text, split],
      some, inside, ends⟩

/-- Every text that is not empty begins with a segment. -/
theorem exists_segment (some : cs ≠ []) :
    ∃ segment rest, cs = Segment.text segment ++ rest ∧ segment.IsReadBefore rest := by
  obtain ⟨c, cs, rfl⟩ := List.exists_cons_of_ne_nil some
  by_cases dollar : c = '$'
  · subst dollar
    by_cases brace : cs.head? = Option.some '\x7b'
    · obtain ⟨behind, rfl⟩ := List.head?_eq_some_iff.mp brace
      exact exists_segment_braced behind
    · exact exists_segment_bare brace
  · exact ⟨.plain c, cs, rfl, fun same => absurd same dollar⟩

/-- Every text is read in some way. -/
theorem exists_areRead (cs : List Char) : ∃ segments, textOf segments = cs ∧ AreRead segments := by
  induction length : cs.length using Nat.strong_induction_on generalizing cs with
  | _ _ inductionHypothesis =>
    by_cases some : cs = []
    · exact ⟨[], some.symm, trivial⟩
    · obtain ⟨segment, rest, rfl, read⟩ := exists_segment some
      have shorter : rest.length < (segment.text ++ rest).length := by
        have taken := List.length_pos_of_ne_nil (text_ne_nil segment)
        rw [List.length_append]
        omega
      obtain ⟨segments, rfl, others⟩ := inductionHypothesis _ (length ▸ shorter) rest rfl
      exact ⟨segment :: segments, List.flatMap_cons, read, others⟩

/-! ## Expanding -/

variable {environment : String → Option String}

/-- A segment that is set has its value. -/
theorem value_eq_ok {content : List Char} : segment.piece.value environment = .ok content ↔
    segment.IsSet environment ∧ content = segment.value environment := by
  cases segment with
  | plain c | hollow =>
    simp [Segment.piece, Piece.value, Segment.IsSet, Segment.value, Segment.replaced, Segment.name?,
      Segment.text, eq_comm]
  | bare name | braced name =>
    cases known : environment (String.ofList name) <;>
      simp [Segment.piece, Piece.value, Segment.IsSet, Segment.value, Segment.replaced, Segment.name?,
        known, eq_comm]
  | unclosed name => simp [Segment.piece, Piece.value, Segment.IsSet]

/-- A segment that is not set is a reference to a variable that is not set, or not closed. -/
theorem value_eq_error {error : SettingsError} : segment.piece.value environment = .error error ↔
    (∃ name, segment.name? = some name ∧ environment name = none ∧ error = .missingVariable name) ∨
      ∃ name, segment = .unclosed name ∧ error = .unterminatedReference (String.ofList name) := by
  cases segment with
  | plain c | hollow => simp [Segment.piece, Piece.value, Segment.name?]
  | bare name | braced name =>
    cases known : environment (String.ofList name) <;>
      simp [Segment.piece, Piece.value, Segment.name?, known, eq_comm]
  | unclosed name => simp [Segment.piece, Piece.value, Segment.name?, eq_comm]

/-- The values of the segments in order, up to the first that has none. -/
theorem expand_eq {text : String} (same : textOf segments = text.toList) (read : AreRead segments) :
    expand environment text =
      (segments.mapM fun segment : Segment => segment.piece.value environment).map
        fun values => String.ofList values.flatten := by
  have scanned : scan text = segments.map Segment.piece := by
    rw [scan, ← same, scanWithin_areRead read (Nat.le_refl _)]
  rw [expand, scanned, List.mapM_map]
  change (segments.mapM fun segment : Segment => segment.piece.value environment) >>= _ = _
  cases segments.mapM fun segment : Segment => segment.piece.value environment <;> rfl

/-- A text is expanded if all its segments are set. -/
theorem expand_eq_ok {text result : String} (same : textOf segments = text.toList)
    (read : AreRead segments) : expand environment text = .ok result ↔
      (∀ segment ∈ segments, segment.IsSet environment) ∧
        result = String.ofList (segments.flatMap (Segment.value environment)) := by
  rw [expand_eq same read, except_map_ok]
  have each : ∀ (segment : Segment) content, segment.piece.value environment = .ok content →
      content = segment.value environment := fun _ _ given => (value_eq_ok.mp given).2
  constructor
  · rintro ⟨values, given, rfl⟩
    refine ⟨fun segment listed => ?_, ?_⟩
    · obtain ⟨content, set⟩ := mapM_succeeds.mp ⟨values, given⟩ segment listed
      exact (value_eq_ok.mp set).1
    · rw [mapM_eq_map each given, List.flatMap_def]
  · rintro ⟨set, rfl⟩
    obtain ⟨values, given⟩ := mapM_succeeds.mpr fun segment listed =>
      ⟨_, value_eq_ok.mpr ⟨set segment listed, rfl⟩⟩
    exact ⟨values, given, by rw [mapM_eq_map each given, List.flatMap_def]⟩

/-- An expansion fails as the first segment does that is not set. -/
theorem expand_eq_error {text : String} {error : SettingsError} (same : textOf segments = text.toList)
    (read : AreRead segments) : expand environment text = .error error ↔
      ∃ before segment behind, segments = before ++ segment :: behind ∧
        (∀ earlier ∈ before, earlier.IsSet environment) ∧
        segment.piece.value environment = .error error := by
  have failed : expand environment text = .error error ↔
      (segments.mapM fun segment : Segment => segment.piece.value environment) = .error error := by
    rw [expand_eq same read]
    cases segments.mapM fun segment : Segment => segment.piece.value environment <;> simp [Except.map]
  rw [failed]
  constructor
  · intro stopped
    obtain ⟨before, segment, behind, split, fine, broken⟩ := mapM_error stopped
    refine ⟨before, segment, behind, split, fun earlier listed => ?_, broken⟩
    obtain ⟨content, set⟩ := fine earlier listed
    exact (value_eq_ok.mp set).1
  · rintro ⟨before, segment, behind, rfl, set, broken⟩
    refine mapM_stops ?_ fun earlier listed => ?_
    · exact broken
    · exact ⟨_, value_eq_ok.mpr ⟨set earlier listed, rfl⟩⟩

/-- A text has one reading, and its expansion is what that reading gives: the values of the references
and all other characters, in their order, but for braces around nothing, which are dropped. There is no
expansion exactly if some reference has no value or some brace is not closed, and the first such segment
is the one that is reported. -/
theorem expand_replaces (environment : String → Option String) (text : String) :
    ∃ segments, textOf segments = text.toList ∧ AreRead segments ∧
      (∀ others, textOf others = text.toList → AreRead others → others = segments) ∧
      (∀ result, expand environment text = .ok result ↔
        (∀ segment ∈ segments, segment.IsSet environment) ∧
          result = String.ofList (segments.flatMap (Segment.value environment))) ∧
      (∀ name, expand environment text = .error (.missingVariable name) ↔
        ∃ before segment behind, segments = before ++ segment :: behind ∧
          (∀ earlier ∈ before, earlier.IsSet environment) ∧
          segment.name? = some name ∧ environment name = none) ∧
      (∀ name, expand environment text = .error (.unterminatedReference name) ↔
        ∃ before behind, segments = before ++ .unclosed name.toList :: behind ∧
          ∀ earlier ∈ before, earlier.IsSet environment) ∧
      ∀ error, expand environment text = .error error →
        (∃ name, error = .missingVariable name) ∨ ∃ name, error = .unterminatedReference name := by
  obtain ⟨segments, same, read⟩ := exists_areRead text.toList
  refine ⟨segments, same, read, fun others sameToo readToo =>
      areRead_unique readToo read (sameToo.trans same.symm), fun result => expand_eq_ok same read,
    fun name => ?_, fun name => ?_, fun error failed => ?_⟩
  · rw [expand_eq_error same read]
    simp only [value_eq_error]
    constructor
    · rintro ⟨before, segment, behind, split, set, ⟨found, named, unset, same⟩ | ⟨_, _, other⟩⟩
      · obtain rfl := SettingsError.missingVariable.inj same
        exact ⟨before, segment, behind, split, set, named, unset⟩
      · cases other
    · rintro ⟨before, segment, behind, split, set, named, unset⟩
      exact ⟨before, segment, behind, split, set, .inl ⟨name, named, unset, rfl⟩⟩
  · rw [expand_eq_error same read]
    simp only [value_eq_error]
    constructor
    · rintro ⟨before, segment, behind, split, set, ⟨_, _, _, other⟩ | ⟨found, rfl, same⟩⟩
      · cases other
      · obtain rfl := SettingsError.unterminatedReference.inj same
        exact ⟨before, behind, by rwa [String.toList_ofList], set⟩
    · rintro ⟨before, behind, split, set⟩
      exact ⟨before, _, behind, split, set, .inr ⟨name.toList, rfl, by rw [String.ofList_toList]⟩⟩
  · obtain ⟨_, segment, _, _, _, broken⟩ := (expand_eq_error same read).mp failed
    rcases value_eq_error.mp broken with ⟨name, _, _, rfl⟩ | ⟨name, _, rfl⟩
    · exact .inl ⟨name, rfl⟩
    · exact .inr ⟨_, rfl⟩

/-- Two variables, one of them with a value that looks like a reference. -/
def twoVariables (name : String) : Option String :=
  if name = "DIR" then some "/srv/$N_1" else if name = "N_1" then some "b c" else none

/-- Dollar signs that refer to nothing are kept, and a variable that is not set is reported before a
brace that is not closed behind it. -/
theorem expand_replaces_path :
    expand twoVariables "$\x7bDIR\x7d/$N_1-$$ $\x7b\x7d" = .ok "/srv/$N_1/b c-$$ $" ∧
    expand twoVariables "$N_1$5$\x7b" = .error (.missingVariable "5") := by
  obtain ⟨_, _, _, unique, set, _⟩ := expand_replaces twoVariables "$\x7bDIR\x7d/$N_1-$$ $\x7b\x7d"
  obtain ⟨_, _, _, uniqueToo, _, unset, _⟩ := expand_replaces twoVariables "$N_1$5$\x7b"
  have path := unique [.braced ['D', 'I', 'R'], .plain '/', .bare ['N', '_', '1'], .plain '-', .plain '$',
    .plain '$', .plain ' ', .hollow] (by decide)
    (by simp [AreRead, Segment.IsReadBefore, textOf, Segment.text]; decide)
  have missing := uniqueToo [.bare ['N', '_', '1'], .bare ['5'], .unclosed []] (by decide)
    (by simp [AreRead, Segment.IsReadBefore, textOf, Segment.text]; decide)
  subst path missing
  refine ⟨(set _).mpr ⟨?_, ?_⟩, (unset _).mpr ⟨[.bare ['N', '_', '1']], .bare ['5'], [.unclosed []],
    rfl, ?_, rfl, rfl⟩⟩
  · simp [Segment.IsSet, Segment.name?, twoVariables]
  · decide
  · simp [Segment.IsSet, Segment.name?, twoVariables]

/-- Braces around nothing are no reference, but not all of their characters are kept. -/
theorem expand_drops_braces : ¬ ∀ (environment : String → Option String) (text : String)
    (segments : List Segment), textOf segments = text.toList → AreRead segments →
    (∀ segment ∈ segments, segment.IsSet environment) →
    expand environment text = .ok (String.ofList (segments.flatMap (Segment.replaced environment))) := by
  intro claimed
  have kept := claimed (fun _ => none) "$\x7b\x7d" [.hollow] rfl ⟨trivial, trivial⟩
    (by simp [Segment.IsSet, Segment.name?])
  cases kept

end ObjectQuery.Expansion
