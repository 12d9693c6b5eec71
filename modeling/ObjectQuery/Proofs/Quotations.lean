import ObjectQuery.Compile
import ObjectQuery.Proofs.Grammar.Written
import ObjectQuery.Proofs.Scanning
/-!
# Quotations

A text between single quotation marks, with the marks inside it doubled, is one token of a query and
one token of a statement. Between the two stands the text itself: reading the token of the query undoes
the doubling, whatever marks the text has, and writing the token of the statement does it again.
-/
namespace ObjectQuery

open Text Grammar.Reader

variable {source : String} {lexemes rest : List Lexeme}

/-! ## Scanning -/

/-- The content of the token that quotes a text. -/
def quotedContent (value : String) : String := String.ofList (double '\'' value.toList)

/-- The token that quotes a text, as it stands at the start of a source. -/
def quotedLexeme (value : String) : Lexeme :=
  .placed (.quotation (quotedContent value)) 0 (quoted '\'' value).toList

/-- A quotation of a value is displayed as the value in quotes. -/
theorem display_quotedContent (value : String) :
    (Token.quotation (quotedContent value)).display = quoted '\'' value := by
  rw [← String.toList_inj]
  simp [Token.display, quotedContent, quoted]

/-- A quoted text is one token, from its first mark to its last. -/
theorem scan_quoted (value : String) :
    Lexeme.scan (quoted '\'' value) = .ok [quotedLexeme value] := by
  have valid : (Token.quotation (quotedContent value)).IsValid :=
    ⟨value.toList, String.toList_ofList⟩
  have breaks : IsBreak [] := by simp [IsBreak]
  have nothing : ∀ fuel start, Lexeme.scanWithin fuel start [] = .ok [] := fun fuel start =>
    Lexeme.scanWithin_skipped rfl
  have step := fun fuel => @Lexeme.scanWithin_display fuel 0 [] [] _ valid ⟨[], rfl⟩ breaks
  simp only [display_quotedContent, List.nil_append, List.append_nil, nothing] at step
  have length : (quoted '\'' value).toList.length = (double '\'' value.toList).length + 1 + 1 := by
    simp [quoted]
  rw [Lexeme.scan, length, step]
  rfl

/-- Every token that scanning finds is one that a text can hold. -/
theorem Lexeme.Scanned.isValid {start : Nat} {cs : List Char} (scanned : Scanned start cs lexemes) :
    ∀ lexeme ∈ lexemes, lexeme.token.IsValid := by
  induction scanned with
  | nil => exact fun lexeme listed => absurd listed List.not_mem_nil
  | cons _ _ _ found _ inductionHypothesis =>
    obtain ⟨_, _, _, _, _, valid, _⟩ := Token.exists_of_scan? found
    exact List.forall_mem_cons.mpr ⟨valid, inductionHypothesis⟩

/-- The quotations of a source have their marks doubled, so each is what doubling the marks of the
quoted text gives. -/
theorem quotedContent_collapse {content : String} (scanned : Lexeme.scan source = .ok lexemes)
    (found : Token.quotation content ∈ lexemes.map (·.token)) :
    quotedContent (String.ofList (collapse '\'' content.toList)) = content := by
  obtain ⟨lexeme, listed, same⟩ := List.mem_map.mp found
  have valid := (Lexeme.scanned_of_scanWithin (Nat.le_refl _) scanned).isValid lexeme listed
  rw [same] at valid
  obtain ⟨value, doubled⟩ := valid
  rw [quotedContent, String.toList_ofList, doubled, collapse_double, ← doubled, String.ofList_toList]

/-! ## From the token of a query to that of a statement -/

/-- The quotation of a value denotes it. -/
theorem literalOf?_quoted (value : String) :
    Grammar.literalOf? (.quotation (quotedContent value)) = some (.text value) := by
  rw [Grammar.literalOf?, quotedContent, String.toList_ofList, collapse_double, String.ofList_toList]

/-- The token that quotes a text is read as the text, whatever follows. -/
theorem literal_reads_quoted (value : String) :
    Reads Grammar.literal (quotedLexeme value :: rest)
      (.literal (quotedLexeme value).span (.text value)) rest := by
  have taken : Reads (item Grammar.literalOf?) (quotedLexeme value :: rest) (.text value) rest :=
    reads_item.mpr ⟨_, rfl, literalOf?_quoted value⟩
  have placed : spanBefore (quotedLexeme value :: rest) rest = (quotedLexeme value).span :=
    spanBefore_append [quotedLexeme value] rest
  have spanned := taken.spanned
  rw [placed] at spanned
  exact spanned.bind (Reads.pure _ rest)

/-- Alone it is a whole expression. -/
theorem expression_reads_quoted (value : String) :
    Reads Grammar.expression [quotedLexeme value]
      (.literal (quotedLexeme value).span (.text value)) [] := by
  have read : Reads Grammar.expression [quotedLexeme value] (.literal (quotedLexeme value).span
    (.text (String.ofList (collapse '\'' (quotedContent value).toList)))) [] := rfl
  rwa [quotedContent, String.toList_ofList, collapse_double, String.ofList_toList] at read

/-- A text is written as the value in quotes. -/
theorem text_literal (value : String) :
    (Sql.Expr.literal (.text value)).text = quoted '\'' value := by
  simp [Sql.Expr.text, Sql.Expr.tokens, Sql.literalToken, Sql.Token.render, Sql.Token.text]

/-- A quoted text is one token that spans all of it. It is read as a literal of the text, whether alone
or before anything else; the literal is resolved and lowered as it is, in every scope; and its SQL is the
quoted text. Conversely, the content of every quotation in a source is what doubling the marks of its
value gives. -/
theorem quotations_pass_through :
    (∀ value : String, ∃ lexeme : Lexeme,
      Lexeme.scan (quoted '\'' value) = .ok [lexeme] ∧
      Lexeme.read (quoted '\'' value) = .ok [lexeme] ∧
      lexeme.token = .quotation (String.ofList (double '\'' value.toList)) ∧
      lexeme.text = quoted '\'' value ∧
      lexeme.span = ⟨0, byteLength (quoted '\'' value).toList⟩ ∧
      Reads Grammar.expression [lexeme] (.literal lexeme.span (.text value)) [] ∧
      (∀ rest, Reads Grammar.literal (lexeme :: rest) (.literal lexeme.span (.text value)) rest) ∧
      (∀ names clause, Resolution.expr names clause (.literal lexeme.span (.text value)) =
        pure (.literal (.text value))) ∧
      (∀ context, Lowering.expr context (.literal (.text value)) = pure (.literal (.text value))) ∧
      (Sql.Expr.literal (.text value)).text = quoted '\'' value) ∧
    ∀ (source : String) (lexemes : List Lexeme) (content : String),
      Lexeme.scan source = .ok lexemes → Token.quotation content ∈ lexemes.map (·.token) →
        String.ofList (double '\'' (collapse '\'' content.toList)) = content := by
  refine ⟨fun value => ⟨quotedLexeme value, scan_quoted value, ?_, rfl, ?_, ?_,
    expression_reads_quoted value, fun rest => literal_reads_quoted value, fun names clause => ?_,
    fun context => ?_, text_literal value⟩, fun source lexemes content scanned found => ?_⟩
  · rw [Lexeme.read, scan_quoted]
    rfl
  · exact String.ofList_toList
  · rw [quotedLexeme, Lexeme.placed, Nat.zero_add]
  · rw [Resolution.expr]
  · rw [Lowering.expr]
    rfl
  · have again := quotedContent_collapse scanned found
    rwa [quotedContent, String.toList_ofList] at again

/-- Runs of marks at both ends and in the middle, and one that is nothing but marks. -/
theorem quotations_pass_through_runs :
    (∃ lexeme : Lexeme, Lexeme.scan "'''it''''s'''" = .ok [lexeme] ∧
      Reads Grammar.expression [lexeme] (.literal lexeme.span (.text "'it''s'")) [] ∧
      (Sql.Expr.literal (.text "'it''s'")).text = "'''it''''s'''") ∧
    (Lexeme.scan "'''''' -- '''").map (·.map (·.token)) = .ok [.quotation "''''"] ∧
    String.ofList (double '\'' (collapse '\'' "''''".toList)) = "''''" := by
  obtain ⟨passes, given⟩ := quotations_pass_through
  have quotes : quoted '\'' "'it''s'" = "'''it''''s'''" := by decide
  have found : (Lexeme.scan "'''''' -- '''").map (·.map (·.token)) = .ok [.quotation "''''"] := by
    decide +kernel
  obtain ⟨lexeme, scanned, _, _, _, _, read, _, _, _, written⟩ := passes "'it''s'"
  rw [quotes] at scanned written
  obtain ⟨lexemes, scannedToo, tokens⟩ := except_map_ok.mp found
  exact ⟨⟨lexeme, scanned, read, written⟩, found,
    given _ lexemes _ scannedToo (tokens ▸ List.mem_singleton_self _)⟩

end ObjectQuery
