/-
  TemplateLint.Proofs.Endings — texts that end too early.

  Three errors have no place of their own: there is no element, an element is
  still open at the end, or the text ends inside a construct.  All three come
  from a text that is over too early.  Only the first is said to be at the end
  of the text; the other two are said to be at line 1, column 1, where no such
  text ends.

  Main result: `early_end_located_iff`.
-/
import TemplateLint.Proofs.Independence
import TemplateLint.Proofs.Messages

namespace TemplateLint

open Location

/-! ## §1. The place that a message ends with -/

namespace Location

/-- What is recognised in the back of a text is recognised in the text. -/
theorem occurrences_suffix {α : Type} (find : List Char → Option α) (xs ys : List Char) :
    occurrences find ys <:+ occurrences find (xs ++ ys) := by
  induction xs with
  | nil => exact List.suffix_refl _
  | cons c xs ih =>
    rw [List.cons_append, occurrences_cons]
    exact ih.trans (List.suffix_append _ _)

/-- Behind a quiet text one place is spelled out, so the text ends with no other. -/
theorem eq_of_spelled_suffix {front : List Char} {row column row' column' : Nat}
    (hfront : Quiet front)
    (h : spelled (Decimal.digits row') (Decimal.digits column')
      <:+ front ++ spelled (Decimal.digits row) (Decimal.digits column)) :
    row' = row ∧ column' = column := by
  have hone : ∀ {front : List Char} {row column : Nat}, Quiet front →
      occurrences lineColumnAt? (front ++ spelled (Decimal.digits row) (Decimal.digits column))
        = [(Decimal.digits row, Decimal.digits column)] := by
    intro front row column hfront
    have hspelled : occurrences lineColumnAt?
        (front ++ (spelled (Decimal.digits row) (Decimal.digits column) ++ []))
        = [(Decimal.digits row, Decimal.digits column)] :=
      occurrences_lineColumnAt?_spelled hfront rfl
    rwa [List.append_nil] at hspelled
  obtain ⟨before, hbefore⟩ := h
  have hsuffix := occurrences_suffix lineColumnAt? before
    ([] ++ spelled (Decimal.digits row') (Decimal.digits column'))
  rw [hone .nil, List.nil_append, hbefore, hone hfront] at hsuffix
  have heq := hsuffix.eq_of_length rfl
  simp only [List.cons.injEq, Prod.mk.injEq, and_true] at heq
  -- numbers are known from their digits
  rw [← Decimal.value_digits row', ← Decimal.value_digits column', heq.1, heq.2,
    Decimal.value_digits, Decimal.value_digits]
  exact ⟨rfl, rfl⟩

end Location

/-! ## §2. Texts that end at the start -/

/-- Only the empty text ends where it starts. -/
theorem Position.eq_nil_of_endOf {text : List Char} (h : endOf text = start) : text = [] := by
  have hrow : text.count '\n' + 1 = 1 := congrArg Position.row h
  have hcolumn : (text.reverse.takeWhile (· != '\n')).length + 1 = 1 := congrArg Position.column h
  cases hlast : text.reverse with
  | nil => exact List.reverse_eq_nil_iff.1 hlast
  | cons c front =>
    -- the last character is no line feed, so it takes a column
    have hc : c ≠ '\n' := by
      rintro rfl
      have hmem : '\n' ∈ text := List.mem_reverse.1 (hlast ▸ List.mem_cons_self)
      have hpos := List.count_pos_iff.2 hmem
      omega
    have hstep : (c :: front).takeWhile (· != '\n') = c :: front.takeWhile (· != '\n') :=
      List.takeWhile_cons_of_pos (bne_iff_ne.2 hc)
    rw [hlast, hstep, List.length_cons] at hcolumn
    omega

/-- In the empty text no element is found. -/
theorem readPrepared_empty : readPrepared "" = .error (.malformed .noRoot) :=
  eq_error_of_map (by decide +kernel)

/-- A text that is rejected for any other reason has an end of its own. -/
theorem endOf_ne_start {source : String} {error : SyntaxError}
    (hread : readPrepared source = .error (.malformed error)) (hne : error ≠ .noRoot) :
    Position.endOf source.toList ≠ Position.start := by
  intro hend
  have hsource : source = "" := String.toList_eq_nil_iff.1 (Position.eq_nil_of_endOf hend)
  rw [hsource, readPrepared_empty] at hread
  cases hread
  exact hne rfl

/-! ## §3. Where an early end is said to be -/

/-- Where the message of an error without a place says that it is. -/
def SyntaxError.saidAt (source : List Char) (error : SyntaxError) : Position :=
  if error = .noRoot then Position.endOf source else Position.start

/-- The place in the prepared text, moved back by the injected lines, is that
place: the end of the source, or line 1 whatever is taken off it. -/
theorem shifted_reported (path : Path) (source : String) (exclude : Option String)
    {error : SyntaxError} (hplaceless : error.IsPlaceless)
    (hfits : error = .noRoot →
      (Position.endOf (Template.prepare path source exclude).content.toList).Fits) :
    shifted (Template.prepare path source exclude).offset (Decimal.digits
        (reported (Template.prepare path source exclude).content.toList error).row)
      = Decimal.digits (error.saidAt source.toList).row ∧
    (reported (Template.prepare path source exclude).content.toList error).column
      = (error.saidAt source.toList).column := by
  have hstart : ∀ offset, shifted offset (Decimal.digits 1) = Decimal.digits 1 := by
    intro offset
    unfold shifted
    rw [Decimal.value_digits, if_pos (by decide), Nat.max_eq_right (Nat.sub_le 1 offset)]
  cases error with
  | located fault mark => cases hplaceless
  | noRoot =>
    have hcontent := Position.ofMark_zero (Template.prepare path source exclude).content.toList
    rw [Template.ofMark_prepare path source exclude (Nat.zero_le _)] at hcontent
    have hsaid : SyntaxError.noRoot.saidAt source.toList = Position.ofMark source.toList 0 := by
      rw [Position.ofMark_zero]
      exact if_pos rfl
    -- a row of 32 bits fits into the numbers that are moved
    have hrow := (hfits rfl).1
    rw [← hcontent] at hrow
    have hmax : UInt32.size ≤ maxLine := by decide
    rw [reported_noRoot (hfits rfl), ← hcontent, hsaid]
    exact ⟨shifted_digits (Nat.le_add_left 1 _) (Nat.le_trans (Nat.le_of_lt hrow) hmax), rfl⟩
  | unclosedRoot => exact ⟨hstart _, rfl⟩
  | endOfText => exact ⟨hstart _, rfl⟩

/-- **Only a missing element is missed at the end.**  A template is rejected
with an error that has no place of its own, since the text ends too early.  Where
no element was found, the end is told in 32 bits, and its row and column are such
numbers.  The one finding has the wording of the error and behind it a place.
That place is the end of the source, which is the line after all its line feeds
and the column after all characters behind the last of them, if no element was
found, and only then; for the other two errors it is line 1, column 1, and the
source does not end there. -/
theorem early_end_located_iff (path : Path) (source : String) (exclude : Option String)
    (checks : List Check) (error : SyntaxError)
    (hdocument : (Template.prepare path source exclude).document = .error (.malformed error))
    (hplaceless : error.IsPlaceless)
    (hfits : error = .noRoot →
      (Position.endOf (Template.prepare path source exclude).content.toList).Fits) :
    ∃ message : List Char,
      (Template.prepare path source exclude).lint checks
        = some [.malformed path (String.ofList message)] ∧
      message = (error.message source.toList).toList ++ ", ".toList
        ++ spelled (Decimal.digits (error.saidAt source.toList).row)
          (Decimal.digits (error.saidAt source.toList).column) ∧
      (", ".toList ++ spelled (Decimal.digits (source.toList.count '\n' + 1))
          (Decimal.digits ((source.toList.reverse.takeWhile (· != '\n')).length + 1)) <:+ message ↔
        error = .noRoot) := by
  have hwording : error.message (Template.prepare path source exclude).content.toList
      = error.message source.toList := by
    cases error with
    | located fault mark => cases hplaceless
    | noRoot => rfl
    | unclosedRoot => rfl
    | endOfText => rfl
  have hall := (all_message_of_isPlaceless hplaceless source.toList).1
  have hfront : Quiet ((error.message source.toList).toList ++ ", ".toList) :=
    quiet_of_all_not_isDigit (by rw [List.all_append, hall]; decide)
  obtain ⟨hrow, hcolumn⟩ := shifted_reported path source exclude hplaceless hfits
  refine ⟨_, ?_, rfl, ?_⟩
  · rw [Template.lint_of_rejected hdocument checks]
    unfold Template.errorMessage describe
    rw [errorMessage_placeless hplaceless, hwording, shiftLines_place hfront rfl, hrow, hcolumn,
      List.append_nil]
  · show ", ".toList ++ spelled (Decimal.digits (Position.endOf source.toList).row)
      (Decimal.digits (Position.endOf source.toList).column) <:+ _ ↔ _
    constructor
    · intro hsuffix
      by_contra hne
      have hsaid : error.saidAt source.toList = Position.start := if_neg hne
      rw [hsaid] at hsuffix
      have hplace := eq_of_spelled_suffix hfront ((List.suffix_append _ _).trans hsuffix)
      rw [Template.document_prepare] at hdocument
      exact endOf_ne_start hdocument hne (congrArg₂ Position.mk hplace.1 hplace.2)
    · rintro rfl
      rw [List.append_assoc]
      exact List.suffix_append _ _

/-- An element is open at the end of the second line, and the message is about
the first.  In a comment alone no element is found, and the message is about the
end of the comment, on the second line. -/
theorem early_end_located_iff_open_or_missing :
    ((Template.prepare ⟨[]⟩ "<p>\n" none).document = .error (.malformed .unclosedRoot) ∧
    ∃ message : List Char,
      (Template.prepare ⟨[]⟩ "<p>\n" none).lint []
        = some [.malformed ⟨[]⟩ (String.ofList message)] ∧
      message = "the root node was opened but never closed, line 1, column 1".toList ∧
      ¬ ", line 2, column 1".toList <:+ message) ∧
    (Template.prepare ⟨[]⟩ "<!--\n-->" none).document = .error (.malformed .noRoot) ∧
    (Position.endOf (Template.prepare ⟨[]⟩ "<!--\n-->" none).content.toList).Fits ∧
    ∃ message : List Char,
      (Template.prepare ⟨[]⟩ "<!--\n-->" none).lint []
        = some [.malformed ⟨[]⟩ (String.ofList message)] ∧
      ", line 2, column 4".toList <:+ message := by
  have hopen : (Template.prepare ⟨[]⟩ "<p>\n" none).document = .error (.malformed .unclosedRoot) :=
    eq_error_of_map (by decide +kernel)
  have hmissing : (Template.prepare ⟨[]⟩ "<!--\n-->" none).document
      = .error (.malformed .noRoot) :=
    eq_error_of_map (by decide +kernel)
  have hfits : (Position.endOf (Template.prepare ⟨[]⟩ "<!--\n-->" none).content.toList).Fits :=
    ⟨by decide +kernel, by decide +kernel⟩
  constructor
  · obtain ⟨message, hlint, hmessage, hiff⟩ :=
      early_end_located_iff ⟨[]⟩ "<p>\n" none [] .unclosedRoot hopen trivial nofun
    refine ⟨hopen, message, hlint, ?_, ?_⟩
    · rw [hmessage]
      decide +kernel
    · intro hsuffix
      have hend : ", line 2, column 1".toList
          = ", ".toList ++ spelled (Decimal.digits ("<p>\n".toList.count '\n' + 1))
            (Decimal.digits (("<p>\n".toList.reverse.takeWhile (· != '\n')).length + 1)) := by
        decide +kernel
      rw [hend] at hsuffix
      exact absurd (hiff.1 hsuffix) (by decide)
  · obtain ⟨message, hlint, -, hiff⟩ :=
      early_end_located_iff ⟨[]⟩ "<!--\n-->" none [] .noRoot hmissing trivial fun _ => hfits
    refine ⟨hmissing, hfits, message, hlint, ?_⟩
    have hend : ", line 2, column 4".toList
        = ", ".toList ++ spelled (Decimal.digits ("<!--\n-->".toList.count '\n' + 1))
          (Decimal.digits (("<!--\n-->".toList.reverse.takeWhile (· != '\n')).length + 1)) := by
      decide +kernel
    rw [hend]
    exact hiff.2 rfl

/-- A text that ends with an element open, and one that ends inside a tag: both
messages are about line 1, column 1, where neither text ends. -/
theorem early_ends_said_at_start :
    (Template.prepare (.ofString "t.pt") "<p>\n" none).lint Check.all
      = some [⟨.ofString "t.pt", none, Finding.syntaxErrorRule,
        "the root node was opened but never closed, line 1, column 1"⟩] ∧
    Position.endOf "<p>\n".toList = ⟨2, 1⟩ ∧
    (Template.prepare (.ofString "t.pt") "<p\na" none).lint Check.all
      = some [⟨.ofString "t.pt", none, Finding.syntaxErrorRule,
        "unexpected end of stream, line 1, column 1"⟩] ∧
    Position.endOf "<p\na".toList = ⟨2, 2⟩ := by
  decide +kernel

end TemplateLint
