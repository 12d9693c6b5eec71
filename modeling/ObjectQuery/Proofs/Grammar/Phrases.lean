import Mathlib.Logic.Function.Iterate
import ObjectQuery.Proofs.Grammar.Accepting
import ObjectQuery.Proofs.Grammar.Rules
/-!
# Readers of phrases

`Takes` says that a reader reads every phrase of a kind, up to a size, in front of anything that does
not go on with it. Here are the rules for what the grammar builds phrases from: lists with commas,
rows of operands with operators between them, and signs before an operand.
-/
namespace ObjectQuery.Grammar

open Reader

variable {α β γ δ : Type}

/-- The reader reads every phrase of fewer than `size` tokens in front of a rest that does not go on
with it. -/
def Takes (reader : Reader α) (view : α → β) (phrase : Phrase β) (goesOn : Token → Bool)
    (size : Nat) : Prop :=
  ∀ ⦃word value rest⦄, phrase word value → word.length < size → Stops goesOn rest →
    Accepts reader word rest fun found => view found = value

/-- Every phrase has a first token, and it is as told. -/
def Begins (phrase : Phrase β) (first : Token → Prop) : Prop :=
  ∀ ⦃word value⦄, phrase word value → ∃ token others, word = token :: others ∧ first token

section Readers

variable {reader : Reader α} {view : α → β} {phrase : Phrase β} {goesOn : Token → Bool} {size : Nat}
  {word rest : List Token}

/-- The token comes first, and what is behind it is the phrase. -/
def Led (opening : Token) (phrase : Phrase β) : Phrase β :=
  fun word value => ∃ inside, word = opening :: inside ∧ phrase inside value

/-- A phrase led by a token is taken back from its words. -/
theorem led_takes (opening : Token) (takes : Takes reader view phrase goesOn size) :
    Takes (do Reader.token opening; reader) view (Led opening phrase) goesOn size := by
  rintro _ value rest ⟨inside, rfl, derived⟩ short stops
  rw [List.length_cons] at short
  exact .behind (takes derived (by omega) stops)

/-- A phrase led by a token begins with it. -/
theorem led_begins (opening : Token) (phrase : Phrase β) :
    Begins (Led opening phrase) (· = opening) := by
  rintro _ value ⟨inside, rfl, _⟩
  exact ⟨opening, inside, rfl, rfl⟩

/-- A phrase between marks is taken back from its words. -/
theorem between_accepts {tells : α → Prop} {opening closing : Mark}
    (accepted : Accepts reader word (.mark closing :: rest) tells) :
    Accepts (Reader.between opening closing reader) (.mark opening :: word ++ [.mark closing]) rest
      tells := by
  refine .behind (.bind accepted fun value told => ?_)
  exact .map (.token _) fun _ _ => told

/-- Phrases one after the other. -/
inductive IsSequence (IsItem : Phrase β) : Phrase (List β)
  | nil : IsSequence IsItem [] []
  | cons {word others : List Token} {item : β} {items : List β} (first : IsItem word item)
    (rest : IsSequence IsItem others items) : IsSequence IsItem (word ++ others) (item :: items)

/-- A sequence may have one item more. -/
theorem IsSequence.append {IsItem : Phrase β} {others : List Token} {items : List β} {item : β}
    (sequence : IsSequence IsItem word items) (last : IsItem others item) :
    IsSequence IsItem (word ++ others) (items ++ [item]) := by
  induction sequence with
  | nil =>
    have single := IsSequence.cons last .nil
    rwa [List.append_nil] at single
  | cons first _ ih =>
    rw [List.append_assoc]
    exact .cons first ih

/-- What follows an item, be it another or the rest, does not go on with it. -/
theorem IsSequence.stops {values : List β} (sequence : IsSequence phrase word values)
    (begins : Begins phrase fun token => goesOn token = false) (stops : Stops goesOn rest) :
    Stops goesOn (word ++ rest) := by
  cases sequence with
  | nil => exact stops
  | cons first _ =>
    obtain ⟨token, further, rfl, ended⟩ := begins first
    exact stops_cons.mpr ended

/-- A sequence is read item by item to its end. -/
theorem sequence_accepts (takes : Takes reader view phrase goesOn size)
    (begins : Begins phrase fun token => goesOn token = false) {values : List β}
    (sequence : IsSequence phrase word values) (short : word.length < size)
    (stops : Stops goesOn rest) (declined : Declines reader rest) :
    AcceptsAll reader word rest fun found => found.map view = values := by
  induction sequence with
  | nil => exact (AcceptsAll.nil declined).weaken fun found empty => by rw [empty, List.map_nil]
  | cons first further ih =>
    rw [List.length_append] at short
    refine (AcceptsAll.cons (takes first (by omega) (further.stops begins stops)) ?_
      (ih (by omega))).weaken ?_
    · rintro rfl
      obtain ⟨_, _, ⟨⟩, _⟩ := begins first
    · rintro _ ⟨value, values, rfl, rfl, rfl⟩
      rfl

/-- A list with commas is its first item and the others led by commas. -/
theorem isSeparated_split {values : List β} (separated : IsSeparated phrase word values) :
    ∃ begun others first further, word = begun ++ others ∧ phrase begun first ∧
      IsSequence (Led (.mark .comma) phrase) others further ∧ values = first :: further := by
  induction separated with
  | one first => exact ⟨_, [], _, [], by simp, first, .nil, rfl⟩
  | more first _ ih =>
    obtain ⟨begun, others, second, further, rfl, derived, sequence, rfl⟩ := ih
    exact ⟨_, _, _, _, rfl, first, .cons ⟨begun, rfl, derived⟩ sequence, rfl⟩

/-- A list goes on with a comma or like its items. -/
def listGoesOn (goesOn : Token → Bool) (token : Token) : Bool :=
  goesOn token || token = .mark .comma

/-- A list with commas is taken back from its words. -/
theorem commaSeparated_takes (takes : Takes reader view phrase goesOn size)
    (ended : goesOn (.mark .comma) = false) :
    Takes (commaSeparated reader) (List.map view) (IsSeparated phrase) (listGoesOn goesOn) size := by
  intro word values rest separated short stops
  obtain ⟨begun, others, first, further, rfl, derived, sequence, rfl⟩ := isSeparated_split separated
  rw [List.length_append] at short
  have begins : Begins (Led (.mark .comma) phrase) fun token => goesOn token = false := by
    rintro _ _ ⟨inside, rfl, _⟩
    exact ⟨_, inside, rfl, ended⟩
  have stopsItem : Stops goesOn rest := stops.mono fun token more => by simp [listGoesOn, more]
  have declined : Declines (do mark .comma; reader) rest :=
    .bind (.token (stops.not_head (by simp [listGoesOn])))
  refine .bind (takes derived (by omega) (sequence.stops begins stopsItem)) fun value viewed => ?_
  refine .map (.many (sequence_accepts (led_takes _ takes) begins sequence (by omega) stopsItem
    declined)) fun values viewedAll => ?_
  rw [List.map_cons, viewed, viewedAll]

/-- A row of operands is one operand, or a shorter row with an item behind it that is joined to all
of the row. -/
def IsRow (row phrase : Phrase β) (IsItem : Phrase δ) (joined : β → δ → β) : Prop :=
  ∀ ⦃word value⦄, row word value → phrase word value ∨ ∃ before left others item,
    word = before ++ others ∧ row before left ∧ IsItem others item ∧ value = joined left item

namespace IsRow

variable {row : Phrase β} {IsItem : Phrase δ} {joined : β → δ → β} {first : Token → Prop}

/-- The last item is split off first, so the induction is on the length of the row. -/
theorem split (rows : IsRow row phrase IsItem joined) (begins : Begins IsItem first) :
    ∀ {length : Nat} {word : List Token} {value : β}, word.length ≤ length → row word value →
      ∃ begun others operand found, word = begun ++ others ∧ phrase begun operand ∧
        IsSequence IsItem others found ∧ value = found.foldl joined operand := by
  intro length
  induction length with
  | zero =>
    intro word value bound derived
    rcases rows derived with single | ⟨before, left, others, item, rfl, _, last, _⟩
    · exact ⟨word, [], value, [], by simp, single, .nil, rfl⟩
    · obtain ⟨token, behind, rfl, _⟩ := begins last
      simp at bound
  | succ length ih =>
    intro word value bound derived
    rcases rows derived with single | ⟨before, left, others, item, rfl, shorter, last, rfl⟩
    · exact ⟨word, [], value, [], by simp, single, .nil, rfl⟩
    · have smaller : before.length ≤ length := by
        obtain ⟨token, behind, rfl, _⟩ := begins last
        rw [List.length_append, List.length_cons] at bound
        omega
      obtain ⟨begun, between, operand, found, rfl, single, sequence, rfl⟩ := ih smaller shorter
      refine ⟨begun, between ++ others, operand, found ++ [item], by simp, single,
        sequence.append last, ?_⟩
      rw [List.foldl_append]
      rfl

/-- A row begins as its operands do. -/
theorem begins {start : Token → Prop} (rows : IsRow row phrase IsItem joined)
    (items : Begins IsItem first) (operands : Begins phrase start) : Begins row start := by
  intro word value derived
  obtain ⟨begun, others, operand, found, rfl, single, _⟩ := rows.split items (Nat.le_refl _) derived
  obtain ⟨token, further, rfl, starts⟩ := operands single
  exact ⟨token, further ++ others, rfl, starts⟩

end IsRow

/-- Operands with further ones behind them, which are joined from the left. -/
theorem row_takes {operand : Reader α} {further : Reader γ} {viewRow : α → β} {viewItem : γ → δ}
    {combine : α → γ → α} {joined : β → δ → β} {row : Phrase β} {IsItem : Phrase δ}
    {more : Token → Bool} (rows : IsRow row phrase IsItem joined)
    (operands : Takes operand viewRow phrase goesOn size)
    (items : Takes further viewItem IsItem goesOn size)
    (begins : Begins IsItem fun token => goesOn token = false)
    (larger : ∀ token, goesOn token = true → more token = true)
    (declines : ∀ {rest}, Stops more rest → Declines further rest)
    (combined : ∀ left item, viewRow (combine left item) = joined (viewRow left) (viewItem item)) :
    Takes (do
      let first ← operand
      let rest ← many further
      return rest.foldl combine first) viewRow row more size := by
  have folded : ∀ (found : List γ) (first : α),
      viewRow (found.foldl combine first) = (found.map viewItem).foldl joined (viewRow first) := by
    intro found
    induction found with
    | nil => exact fun first => rfl
    | cons item found ih =>
      intro first
      rw [List.foldl_cons, ih, combined, List.map_cons, List.foldl_cons]
  intro word value rest derived short stops
  obtain ⟨begun, others, first, found, rfl, single, sequence, rfl⟩ :=
    rows.split begins (Nat.le_refl _) derived
  rw [List.length_append] at short
  have stopsItem : Stops goesOn rest := stops.mono larger
  refine .bind (operands single (by omega) (sequence.stops begins stopsItem)) fun value viewed => ?_
  refine .map (.many (sequence_accepts items begins sequence (by omega) stopsItem (declines stops)))
    fun values viewedAll => ?_
  rw [folded, viewed, viewedAll]

/-- What may have signs in front is a number of signs before an operand, wrapped as often. -/
theorem exists_replicate_of_signed {sign : Token} {wrapped : β → β} {phrase signed : Phrase β}
    (invert : ∀ {word value}, signed word value → phrase word value ∨ ∃ others inside,
      word = sign :: others ∧ signed others inside ∧ value = wrapped inside) :
    ∀ {word : List Token} {value : β}, signed word value → ∃ count others first,
      word = List.replicate count sign ++ others ∧ phrase others first ∧
        value = wrapped^[count] first := by
  intro word
  induction word with
  | nil =>
    intro value derived
    rcases invert derived with single | ⟨_, _, ⟨⟩, _⟩
    exact ⟨0, [], value, rfl, single, rfl⟩
  | cons token others ih =>
    intro value derived
    rcases invert derived with single | ⟨_, inside, same, shorter, rfl⟩
    · exact ⟨0, _, value, rfl, single, rfl⟩
    · obtain ⟨rfl, rfl⟩ := List.cons.inj same
      obtain ⟨count, others, first, rfl, single, rfl⟩ := ih shorter
      exact ⟨count + 1, others, first, rfl, single, (Function.iterate_succ_apply' ..).symm⟩

/-- A number of signs is accepted as so many, where no further sign follows. -/
theorem signs_accept {sign : Token} (count : Nat) {rest : List Token} (other : sign ∉ rest.head?) :
    AcceptsAll (spanned (Reader.token sign)) (List.replicate count sign) rest
      fun found => found.length = count := by
  induction count with
  | zero =>
    refine (AcceptsAll.nil (.spanned (.token other))).weaken ?_
    rintro _ rfl
    rfl
  | succ count ih =>
    refine (AcceptsAll.cons (.spanned _ (.token sign)) (List.cons_ne_nil sign []) ih).weaken ?_
    rintro _ ⟨value, values, rfl, _, rfl⟩
    rfl

/-- Wrapping an operand in signs shows as wrapping what the operand shows as, as often. -/
theorem view_foldr {wrap : Unit × Span → α → α} {wrapped : β → β}
    (viewed : ∀ span found, view (wrap span found) = wrapped (view found))
    (found : List (Unit × Span)) (first : α) :
    view (found.foldr wrap first) = wrapped^[found.length] (view first) := by
  induction found with
  | nil => rfl
  | cons span found ih =>
    rw [List.foldr_cons, viewed, ih, List.length_cons, Function.iterate_succ_apply']

/-- Signs before an operand, each of which wraps what comes behind it. -/
theorem signs_take {sign : Token} {operand : Reader α} {wrap : Unit × Span → α → α}
    {wrapped : β → β} {signed : Phrase β} (operands : Takes operand view phrase goesOn size)
    (begins : Begins phrase (· ≠ sign))
    (invert : ∀ {word value}, signed word value → phrase word value ∨ ∃ others inside,
      word = sign :: others ∧ signed others inside ∧ value = wrapped inside)
    (viewed : ∀ span found, view (wrap span found) = wrapped (view found)) :
    Takes (do
      let signs ← many (spanned (Reader.token sign))
      let found ← operand
      return signs.foldr wrap found) view signed goesOn size := by
  intro word value rest derived short stops
  obtain ⟨count, others, first, rfl, single, rfl⟩ := exists_replicate_of_signed invert derived
  rw [List.length_append] at short
  have other : sign ∉ (others ++ rest).head? := by
    obtain ⟨token, behind, rfl, different⟩ := begins single
    simpa using different
  refine .bind (.many (signs_accept count other)) fun found counted => ?_
  refine .map (operands single (by omega) stops) fun value same => ?_
  rw [view_foldr viewed, same, counted]

end Readers

end ObjectQuery.Grammar
