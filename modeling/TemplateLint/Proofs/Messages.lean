/-
  TemplateLint.Proofs.Messages — the message of a template that cannot be read.

  The wording of an error goes through three rewritings: its place is cut off
  the end, or spelled out where it stands, and the line is moved back by the
  injected lines.  Names of the template are quoted in it.  Whatever they are,
  the message names one place, which is where the error is in the file as
  written, and all else in it is the wording.

  Main result: `message_names_one_place`.
-/
import TemplateLint.Proofs.Injection
import TemplateLint.Proofs.Occurrences

namespace TemplateLint

open Location

/-! ## §1. Wordings are quiet -/

namespace Fault

/-- A character that is no digit is in no escape. -/
theorem notMem_toDigits {c : Char} (hc : ∀ d < 16, Nat.digitChar d ≠ c) (n : Nat) :
    c ∉ Nat.toDigits 16 n := by
  induction n using Nat.strongRecOn with
  | ind n ih =>
    rw [Nat.toDigits_eq_if (by decide)]
    split
    · next hlt => exact fun hmem => hc n hlt (List.mem_singleton.1 hmem).symm
    · rw [List.mem_append, not_or]
      have hlt : n % 16 < 16 := Nat.mod_lt n (by decide)
      exact ⟨ih (n / 16) (by omega), fun hmem => hc _ hlt (List.mem_singleton.1 hmem).symm⟩

theorem quiet_escaped (c : Char) : Quiet (escaped c).toList := by
  unfold escaped
  split
  · decide
  · refine quiet_of_space_notMem ?_
    simp only [Escape.braced, String.toList_append, String.toList_ofList, List.mem_append, not_or]
    exact ⟨⟨by decide, ⟨by decide, notMem_toDigits (by decide) _⟩, by decide⟩, by decide⟩

theorem head?_escaped (c : Char) : (escaped c).toList.head? = some '\'' := by
  unfold escaped
  split
  · rfl
  · simp only [String.toList_append, List.append_assoc]
    rfl

theorem notMem_of_all_isNameChar {c : Char} {name : List Char} (h : name.all isNameChar = true)
    (hc : isNameChar c = false) : c ∉ name := by
  intro hmem
  rw [List.all_eq_true.1 h c hmem] at hc
  cases hc

theorem all_not_isDigit_of_isWording {cs : List Char} (h : cs.all isWording = true) :
    cs.all (!·.isDigit) = true := by
  refine List.all_eq_true.2 fun c hc => ?_
  exact (Bool.and_eq_true_iff.1 (List.all_eq_true.1 h c hc)).1

/-- A name, which has no space, behind a wording that ends with a quote. -/
theorem quiet_name {xs name ys : List Char}
    (hx : (xs.all (!·.isDigit) && xs.getLast? == some '\'') = true)
    (hname : name.all isNameChar = true) (hy : Quiet ys) (hhead : ys.head? = some '\'') :
    Quiet (xs ++ (name ++ ys)) := by
  obtain ⟨hall, hlast⟩ := Bool.and_eq_true_iff.1 hx
  have hback : Quiet (name ++ ys) := by
    have hspace : ' ' ∉ name := notMem_of_all_isNameChar hname (by decide)
    refine (quiet_of_space_notMem hspace).append hy (.inr fun c hc => ?_)
    rw [hhead] at hc
    cases hc
    rfl
  refine (quiet_of_all_not_isDigit hall).append hback (.inl ?_)
  rw [beq_iff_eq.1 hlast]
  decide

/-- One character between quotes, be it a space, in a quiet text. -/
theorem quiet_quoted {xs ys : List Char} (c : Char) (hx : Quiet xs) (hy : Quiet ys) :
    Quiet (xs ++ ((quoted c).toList ++ ys)) := by
  -- a space between the quotes has a quote behind it
  have hquoted : (quoted c).toList = ['\'', Utf8.leadByte c, '\''] := by
    simp only [quoted, String.toList_append, String.toList_singleton]
    rfl
  have hclose : Quiet ('\'' :: ys) := hy.cons fun _ _ h => absurd h (by decide)
  rw [hquoted]
  refine hx.append ?_ (.inr fun d hd => by cases hd; rfl)
  exact (hclose.cons fun d hd _ => by cases hd; rfl).cons fun _ _ h => absurd h (by decide)

/-- **No name forges a place.**  What a plain fault says in front of its place
has no digit behind a space: between the quotes there is no space, and
elsewhere no digit. -/
theorem quiet_lead {fault : Fault} (h : fault.IsPlain) : Quiet fault.lead.toList := by
  cases fault with
  | namespaceRepeated pfx =>
    unfold lead
    simp only [String.toList_append, List.append_assoc]
    exact quiet_name (by decide) h (quiet_of_all_not_isDigit (by decide)) rfl
  | unknownPrefix pfx =>
    unfold lead
    simp only [String.toList_append, List.append_assoc]
    exact quiet_name (by decide) h (quiet_of_all_not_isDigit (by decide)) rfl
  | closeMismatch expected found =>
    unfold lead
    simp only [String.toList_append, List.append_assoc]
    have hfound : Quiet ("' tag, not '".toList ++ (found.toList ++ "'".toList)) :=
      quiet_name (by decide) h.2 (quiet_of_all_not_isDigit (by decide)) rfl
    exact quiet_name (by decide) h.1 hfound rfl
  | unknownEntity name =>
    unfold lead
    simp only [String.toList_append, List.append_assoc]
    exact quiet_name (by decide) h (quiet_of_all_not_isDigit (by decide)) rfl
  | attributeRepeated name =>
    unfold lead
    simp only [String.toList_append, List.append_assoc]
    exact quiet_name (by decide) h (quiet_of_all_not_isDigit (by decide)) rfl
  | invalidChar c =>
    unfold lead
    simp only [String.toList_append, List.append_assoc]
    have hback : Quiet ((escaped c).toList ++ " found".toList) :=
      (quiet_escaped c).append (quiet_of_all_not_isDigit (by decide))
        (.inr fun d hd => by cases hd; rfl)
    refine (quiet_of_all_not_isDigit (by decide)).append hback (.inr fun d hd => ?_)
    rw [List.head?_append, head?_escaped] at hd
    cases hd
    rfl
  | expectedChar expected found =>
    unfold lead
    simp only [String.toList_append, List.append_assoc]
    have hfound : Quiet (" not ".toList ++ ((quoted found).toList ++ [])) :=
      quiet_quoted found (quiet_of_all_not_isDigit (by decide)) .nil
    rw [List.append_nil] at hfound
    exact quiet_quoted expected (quiet_of_all_not_isDigit (by decide)) hfound
  | expectedClass expected found =>
    unfold lead
    simp only [String.toList_append, List.append_assoc]
    have hwords : Quiet ("expected ".toList ++ expected.toList ++ " not ".toList) := by
      refine quiet_of_all_not_isDigit ?_
      rw [List.all_append, List.all_append, all_not_isDigit_of_isWording h]
      decide
    have hlead : Quiet (("expected ".toList ++ expected.toList ++ " not ".toList)
        ++ ((quoted found).toList ++ [])) := quiet_quoted found hwords .nil
    simp only [List.append_nil, List.append_assoc] at hlead
    exact hlead
  | expectedText expected =>
    unfold lead
    simp only [String.toList_append]
    refine quiet_of_all_not_isDigit ?_
    rw [List.all_append, List.all_append, all_not_isDigit_of_isWording h]
    decide
  | _ => exact quiet_of_all_not_isDigit (by decide)

/-- What a fault says behind its place is always the same, without a digit. -/
theorem all_trail (fault : Fault) : fault.trail.toList.all (!·.isDigit) = true := by
  unfold trail
  split <;> decide

end Fault

/-! ## §2. The place in the wording -/

theorem stripSuffix?_append (xs ending : List Char) :
    stripSuffix? ending (xs ++ ending) = some xs := by
  unfold stripSuffix?
  rw [if_pos (List.isSuffixOf_iff_suffix.2 (List.suffix_append xs ending)), List.length_append,
    Nat.add_sub_cancel, List.take_left]

/-- An ending that ends otherwise is none. -/
theorem stripSuffix?_eq_none {ending text : List Char} (hne : ending ≠ [])
    (h : text.getLast? ≠ ending.getLast?) : stripSuffix? ending text = none := by
  unfold stripSuffix?
  refine if_neg fun hsuffix => h ?_
  obtain ⟨front, rfl⟩ := List.isSuffixOf_iff_suffix.1 hsuffix
  exact List.getLast?_append_of_ne_nil front hne

namespace SyntaxError

/-- The place of an error that has one; a missing element is missed at the end. -/
def mark? : SyntaxError → Option Mark
  | located _ mark => some mark
  | noRoot => some 0
  | _ => none

/-- The error has no place of its own: the text ends too early. -/
def IsPlaceless : SyntaxError → Prop
  | located _ _ => False
  | _ => True

theorem Within.mark_le {error : SyntaxError} {limit mark : Mark} (h : error.Within limit)
    (hplaced : error.mark? = some mark) : mark ≤ limit := by
  cases error with
  | located fault mark =>
    cases hplaced
    exact h.1
  | noRoot =>
    cases hplaced
    exact Nat.zero_le limit
  | unclosedRoot => cases hplaced
  | endOfText => cases hplaced

/-- How the wording of an error goes into its message: `front` and `back` are
what the message says around the place. -/
inductive Reworded (text : List Char) (error : SyntaxError) : (front back : List Char) → Prop
  /-- The place stands in mid-sentence, and stays there. -/
  | midSentence {lead back : List Char} (hback : back ≠ [])
      (h : (error.message text).toList
        = lead ++ (" at ".toList ++ ((error.position text).render.toList ++ back))) :
      Reworded text error (lead ++ " at ".toList) back
  /-- The place ends the wording, and is set off by a comma. -/
  | atEnd {lead : List Char}
      (h : (error.message text).toList = lead ++ (" at ".toList ++ (error.position text).render.toList)) :
      Reworded text error (lead ++ ", ".toList) []
  /-- The wording has no place, and one is added. -/
  | placeless (h : error = .noRoot) :
      Reworded text error ((error.message text).toList ++ ", ".toList) []

end SyntaxError

theorem Position.ofMark_zero (text : List Char) : ofMark text 0 = endOf text := by
  unfold ofMark
  rw [Nat.sub_zero, List.take_length]
  rfl

theorem Position.render_toList (p : Position) :
    p.render.toList = Decimal.digits p.row ++ ':' :: Decimal.digits p.column := by
  simp only [Position.render, Decimal.render, String.toList_append, String.toList_ofList,
    List.append_assoc]
  rfl

/-- The place of an error ends with a digit. -/
theorem Position.getLast?_render (p : Position) :
    ∃ d, (" at ".toList ++ p.render.toList).getLast? = some d ∧ d.isDigit = true := by
  obtain ⟨d, hd⟩ := Option.isSome_iff_exists.1 (List.getLast?_isSome.2 (Decimal.digits_ne_nil p.column))
  refine ⟨d, ?_, Decimal.isDigit_of_mem_digits (List.mem_of_getLast? hd)⟩
  rw [Position.render_toList, ← List.append_assoc, ← List.singleton_append, ← List.append_assoc,
    List.getLast?_append_of_ne_nil _ (Decimal.digits_ne_nil p.column)]
  exact hd

namespace Location

variable {text : List Char} {fault : Fault} {mark : Nat}

theorem hasPlace_of_quiet {cs : List Char} (h : Quiet cs) : hasPlace cs = false := by
  have hskips : Skips place? cs [] := announced_place?.skips_of_quiet (by simpa using h)
  rw [hasPlace_eq, occurrences_eq_nil hskips]
  rfl

theorem message_located (text : List Char) (fault : Fault) (mark : Mark) :
    ((SyntaxError.located fault mark).message text).toList
      = fault.lead.toList ++ (" at ".toList
        ++ ((Position.ofMark text mark).render.toList ++ fault.trail.toList)) := by
  simp only [SyntaxError.message, String.toList_append, List.append_assoc]

theorem reported_noRoot {text : List Char} (hfits : (Position.endOf text).Fits) :
    reported text .noRoot = Position.endOf text :=
  Position.narrow_of_fits hfits

theorem reported_eq {error : SyntaxError} (text : List Char) (hplaced : error.mark? = some mark)
    (hfits : error = .noRoot → (Position.endOf text).Fits) :
    reported text error = Position.ofMark text mark := by
  cases error with
  | located fault mark =>
    cases hplaced
    rfl
  | noRoot =>
    cases hplaced
    rw [Position.ofMark_zero, reported_noRoot (hfits rfl)]
  | unclosedRoot => cases hplaced
  | endOfText => cases hplaced

/-- A place at the end of the wording is cut off and spelled out. -/
theorem errorMessage_atEnd (hplain : fault.IsPlain) (htrail : fault.trail = "") :
    errorMessage text (.located fault mark) = fault.lead.toList ++ ", ".toList
      ++ (spelled (Decimal.digits (Position.ofMark text mark).row)
        (Decimal.digits (Position.ofMark text mark).column) ++ []) := by
  have hstrip : stripSuffix?
      (" at ".toList ++ ((SyntaxError.located fault mark).position text).render.toList)
      ((SyntaxError.located fault mark).message text).toList = some fault.lead.toList := by
    rw [message_located, htrail, String.toList_empty, List.append_nil]
    exact stripSuffix?_append _ _
  unfold errorMessage
  dsimp only
  rw [hstrip, Option.getD_some, hasPlace_of_quiet (Fault.quiet_lead hplain), if_neg Bool.false_ne_true,
    List.append_nil]
  rfl

/-- A wording that ends without a digit does not end with a place. -/
theorem stripSuffix?_message {error : SyntaxError} {c : Char}
    (hlast : (error.message text).toList.getLast? = some c) (hc : c.isDigit = false) :
    stripSuffix? (" at ".toList ++ (error.position text).render.toList)
      (error.message text).toList = none := by
  obtain ⟨d, hrender, hd⟩ := Position.getLast?_render (error.position text)
  refine stripSuffix?_eq_none (by simp) ?_
  rw [hrender, hlast]
  rintro ⟨⟩
  rw [hc] at hd
  cases hd

theorem hasPlace_of_place? {cs row column rest : List Char}
    (h : place? cs = some (row, column, rest)) : hasPlace cs = true := by
  cases cs with
  | nil => cases h
  | cons c cs =>
    unfold hasPlace
    rw [h]
    rfl

/-- Behind a quiet text the place of a wording is found and spelled out. -/
theorem spellPlaces_written {wording lead back : List Char} {row column : Nat}
    (hwording : wording = lead ++ (" at ".toList
      ++ (Decimal.digits row ++ ':' :: (Decimal.digits column ++ back))))
    (hlead : Quiet lead) (hback : back.all (!·.isDigit) = true) :
    hasPlace wording = true ∧
    spellPlaces wording = lead ++ " at ".toList
      ++ (spelled (Decimal.digits row) (Decimal.digits column) ++ back) := by
  have hplace : place? ("at ".toList ++ (Decimal.digits row ++ ':' :: (Decimal.digits column ++ back)))
      = some (Decimal.digits row, Decimal.digits column, back) := by
    refine place?_written fun c hc => ?_
    simpa using List.all_eq_true.1 hback c (List.mem_of_mem_head? hc)
  have hsplit : wording = (lead ++ [' '])
      ++ ("at ".toList ++ (Decimal.digits row ++ ':' :: (Decimal.digits column ++ back))) := by
    rw [hwording, List.append_assoc]
    rfl
  have hskips : Skips place? (lead ++ [' '])
      ("at ".toList ++ (Decimal.digits row ++ ':' :: (Decimal.digits column ++ back))) := by
    refine announced_place?.skips_of_quiet ?_
    show Quiet (lead ++ [' '] ++ "at ".toList)
    rw [List.append_assoc]
    exact hlead.append (quiet_of_all_not_isDigit (by decide)) (.inr fun c hc => by cases hc; rfl)
  constructor
  · rw [hsplit, hasPlace_eq, occurrences_append hskips, ← hasPlace_eq, hasPlace_of_place? hplace]
  · rw [hsplit, spellPlaces_append hskips, spellPlaces_of_place? hplace,
      spellPlaces_eq_self (announced_place?.skips_of_all_not_isDigit hback)]
    simp only [List.append_assoc]
    rfl

/-- A place in mid-sentence is spelled out where it stands. -/
theorem errorMessage_midSentence (hplain : fault.IsPlain) (htrail : fault.trail ≠ "") :
    errorMessage text (.located fault mark) = fault.lead.toList ++ " at ".toList
      ++ (spelled (Decimal.digits (Position.ofMark text mark).row)
        (Decimal.digits (Position.ofMark text mark).column) ++ fault.trail.toList) := by
  have hnonempty : fault.trail.toList ≠ [] := by
    intro h
    exact htrail (String.toList_eq_nil_iff.1 h)
  -- the place is not cut off, since the wording goes on behind it
  obtain ⟨c, hlast⟩ := Option.isSome_iff_exists.1 (List.getLast?_isSome.2 hnonempty)
  have hc : c.isDigit = false := by
    simpa using List.all_eq_true.1 (Fault.all_trail fault) c (List.mem_of_getLast? hlast)
  have hend : ((SyntaxError.located fault mark).message text).toList.getLast? = some c := by
    rw [message_located, ← List.append_assoc, ← List.append_assoc,
      List.getLast?_append_of_ne_nil _ hnonempty, hlast]
  have hwording := message_located text fault mark
  rw [Position.render_toList, List.append_assoc, List.cons_append] at hwording
  obtain ⟨hfound, hspelled⟩ :=
    spellPlaces_written hwording (Fault.quiet_lead hplain) (Fault.all_trail fault)
  unfold errorMessage
  dsimp only
  rw [stripSuffix?_message hend hc, Option.getD_none, if_pos hfound, hspelled]

/-- An error without a place is worded without a digit. -/
theorem all_message_of_isPlaceless {error : SyntaxError} (h : error.IsPlaceless)
    (text : List Char) :
    (error.message text).toList.all (!·.isDigit) = true ∧ (error.message text).toList ≠ [] := by
  cases error with
  | located fault mark => cases h
  | noRoot =>
    simp only [SyntaxError.message]
    decide
  | unclosedRoot =>
    simp only [SyntaxError.message]
    decide
  | endOfText =>
    simp only [SyntaxError.message]
    decide

/-- A wording without a place has the place where the error is said to be set
behind it. -/
theorem errorMessage_placeless {error : SyntaxError} (h : error.IsPlaceless) (text : List Char) :
    errorMessage text error = (error.message text).toList ++ ", ".toList
      ++ (spelled (Decimal.digits (reported text error).row)
        (Decimal.digits (reported text error).column) ++ []) := by
  obtain ⟨hall, hne⟩ := all_message_of_isPlaceless h text
  obtain ⟨c, hend⟩ := Option.isSome_iff_exists.1 (List.getLast?_isSome.2 hne)
  have hc : c.isDigit = false := by
    simpa using List.all_eq_true.1 hall c (List.mem_of_getLast? hend)
  unfold errorMessage
  dsimp only
  rw [stripSuffix?_message hend hc, Option.getD_none,
    hasPlace_of_quiet (quiet_of_all_not_isDigit hall), if_neg Bool.false_ne_true, List.append_nil]

/-- **One place before the lines are moved.**  The message of an error with a
place is its wording around that place. -/
theorem errorMessage_eq {error : SyntaxError} {limit : Mark} (text : List Char)
    (hwithin : error.Within limit) (hplaced : error.mark? = some mark)
    (hfits : error = .noRoot → (Position.endOf text).Fits) :
    ∃ front back, error.Reworded text front back ∧ Quiet front ∧ back.all (!·.isDigit) = true ∧
      errorMessage text error = front
        ++ (spelled (Decimal.digits (Position.ofMark text mark).row)
          (Decimal.digits (Position.ofMark text mark).column) ++ back) := by
  cases error with
  | located fault _ =>
    cases hplaced
    have hlead := Fault.quiet_lead hwithin.2
    -- only a wording that goes on behind its place keeps it there
    by_cases htrail : fault.trail = ""
    · refine ⟨_, _, .atEnd ?_, ?_, rfl, errorMessage_atEnd hwithin.2 htrail⟩
      · rw [message_located, htrail, String.toList_empty, List.append_nil]
        rfl
      · exact hlead.append (quiet_of_all_not_isDigit (by decide)) (.inr fun c hc => by cases hc; rfl)
    · refine ⟨_, _, .midSentence ?_ (message_located text fault mark), ?_, Fault.all_trail fault,
        errorMessage_midSentence hwithin.2 htrail⟩
      · exact fun h => htrail (String.toList_eq_nil_iff.1 h)
      · exact hlead.append (quiet_of_all_not_isDigit (by decide)) (.inr fun c hc => by cases hc; rfl)
  | noRoot =>
    cases hplaced
    refine ⟨_, _, .placeless rfl, ?_, rfl, ?_⟩
    · show Quiet ("the document does not have a root node".toList ++ ", ".toList)
      exact quiet_of_all_not_isDigit (by decide)
    · rw [Position.ofMark_zero, ← reported_noRoot (hfits rfl)]
      exact errorMessage_placeless (show SyntaxError.noRoot.IsPlaceless from trivial) text
  | unclosedRoot => cases hplaced
  | endOfText => cases hplaced

end Location

/-! ## §3. Lines small enough to be moved -/

theorem Utf8.length_le_length_encode (text : String) :
    text.toList.length ≤ (Utf8.encode text).length := by
  unfold Utf8.encode
  induction text.toList with
  | nil => exact Nat.le_refl _
  | cons c cs ih =>
    have hpos : 0 < (String.utf8EncodeChar c).length :=
      List.length_pos_iff.2 String.utf8EncodeChar_ne_nil
    rw [List.flatMap_cons, List.length_append, List.length_cons]
    omega

theorem mem_of_contains {needle cs : List Char} {c : Char} (h : contains needle cs = true)
    (hc : c ∈ needle) : c ∈ cs := by
  induction cs with
  | nil =>
    rw [List.isEmpty_iff.1 h] at hc
    exact hc
  | cons first cs ih =>
    rcases Bool.or_eq_true_iff.1 h with hprefix | hrest
    · exact (List.isPrefixOf_iff_prefix.1 hprefix).subset hc
    · exact List.mem_cons_of_mem first (ih hrest)

namespace Template

variable (path : Path) (source : String) (exclude : Option String)

/-- Every prepared text mentions a document type. -/
theorem lessThan_mem_content : '<' ∈ (prepare path source exclude).content.toList := by
  rw [prepare_content]
  unfold injectedPart
  split
  · next h => exact List.mem_append_right _ (mem_of_contains h (by decide))
  · exact List.mem_append_left _ (by decide +kernel)

/-- No row of a prepared text is larger than the number of its bytes. -/
theorem row_le_length_encode (mark : Mark) :
    (Position.ofMark (prepare path source exclude).content.toList mark).row
      ≤ (Utf8.encode (prepare path source exclude).content).length := by
  have hmem := lessThan_mem_content path source exclude
  have hbytes := Utf8.length_le_length_encode (prepare path source exclude).content
  generalize (prepare path source exclude).content.toList = text at *
  have htake : (text.take (text.length - mark)).count '\n' ≤ text.count '\n' :=
    (List.take_sublist _ _).count_le _
  have hle : text.count '\n' ≤ text.length := List.count_le_length
  -- not every character is a line feed
  have hne : text.count '\n' ≠ text.length := by
    intro heq
    exact absurd (List.count_eq_length.1 heq '<' hmem) (by decide)
  show (text.take (text.length - mark)).count '\n' + 1 ≤ _
  omega

end Template

/-! ## §4. The message -/

/-- A template that is rejected has its message as the one finding. -/
theorem Template.lint_of_rejected {path : Path} {source : String} {exclude : Option String}
    {error : SyntaxError}
    (h : (prepare path source exclude).document = .error (.malformed error))
    (checks : List Check) :
    (prepare path source exclude).lint checks
      = some [.malformed path ((prepare path source exclude).errorMessage error)] := by
  unfold lint
  rw [h, prepare_path]

/-- **One place, and the right one.**  A template is rejected with an error that
has a place, or for want of an element, whose place is the end.  The template
is a text in memory, which has no more bytes than the greatest signed number of
64 bits; where no element was found, the end is told in 32 bits, and its row and
column are such numbers.  The one finding has a message that is the wording of the
error, with the place spelled out as the row and column that it has in the source,
between `before` and `behind`.  There the message names a line and a column, and
nowhere else does it name a line or is there a place that is not spelled out.  The
row in the prepared text is the row in the source and the injected lines, so that
moving it back never stops at line 1. -/
theorem message_names_one_place (path : Path) (source : String) (exclude : Option String)
    (checks : List Check) (error : SyntaxError) (mark : Mark)
    (hdocument : (Template.prepare path source exclude).document = .error (.malformed error))
    (hplaced : error.mark? = some mark)
    (hmemory : (Utf8.encode (Template.prepare path source exclude).content).length ≤ maxLine)
    (hfits : error = .noRoot →
      (Position.endOf (Template.prepare path source exclude).content.toList).Fits) :
    ∃ before behind front back message : List Char,
      source.toList = before ++ behind ∧ behind.length = mark ∧
      reported (Template.prepare path source exclude).content.toList error
        = ⟨(Template.prepare path source exclude).offset + (Position.after before).row,
          (Position.after before).column⟩ ∧
      1 ≤ (Position.after before).row ∧
      (Template.prepare path source exclude).lint checks
        = some [.malformed path (String.ofList message)] ∧
      message = front ++ (spelled (Decimal.digits (Position.after before).row)
        (Decimal.digits (Position.after before).column) ++ back) ∧
      error.Reworded (Template.prepare path source exclude).content.toList front back ∧
      occurrences lineColumnAt? message = [(Decimal.digits (Position.after before).row,
        Decimal.digits (Position.after before).column)] ∧
      occurrences lineAt? message = [Decimal.digits (Position.after before).row] ∧
      hasPlace message = false := by
  have hwithin : error.Within source.toList.length := by
    have h := Template.document_ensures path source exclude
    rw [hdocument] at h
    exact h
  have hmark : mark ≤ source.toList.length := hwithin.mark_le hplaced
  have hposition := Template.ofMark_prepare path source exclude hmark
  -- the row fits into the numbers that are moved
  have hrow := Template.row_le_length_encode path source exclude mark
  rw [hposition] at hrow
  obtain ⟨front, back, hreworded, hfront, hback, hmessage⟩ :=
    errorMessage_eq (Template.prepare path source exclude).content.toList hwithin hplaced hfits
  rw [hposition] at hmessage
  have hpos : 1 ≤ (Position.ofMark source.toList mark).row := Nat.le_add_left 1 _
  refine ⟨source.toList.take (source.toList.length - mark),
    source.toList.drop (source.toList.length - mark), front, back, _,
    (List.take_append_drop _ _).symm, ?_, ?_, hpos, ?_, rfl, hreworded, ?_, ?_, ?_⟩
  · rw [List.length_drop]
    exact Nat.sub_sub_self hmark
  · rw [reported_eq _ hplaced hfits]
    exact hposition
  · rw [Template.lint_of_rejected hdocument checks]
    unfold Template.errorMessage describe
    rw [hmessage, shiftLines_spelled hfront hback hpos (Nat.le_trans hrow hmemory)]
    rfl
  · exact occurrences_lineColumnAt?_spelled hfront hback
  · exact occurrences_lineAt?_spelled hfront hback
  · exact hasPlace_spelled hfront hback

/-- An error is known from a result of which all but the error is left out. -/
theorem eq_error_of_map {ε α : Type} {r : Except ε α} {e : ε}
    (h : r.map (fun _ => ()) = .error e) : r = .error e := by
  cases r with
  | ok a => cases h
  | error e' => exact congrArg Except.error (Except.error.inj h)

/-- An attribute named `line7` is there twice: the wording has its place in
mid-sentence, and the name is not taken for a line.  In a text without an element,
the place is the end, on the second line. -/
theorem message_names_one_place_attribute_and_root :
    ((Template.prepare ⟨[]⟩ "<p>\n<a line7='' line7=''/></p>" none).document
      = .error (.malformed (.located (.attributeRepeated "line7") 14)) ∧
    ∃ message : List Char,
      (Template.prepare ⟨[]⟩ "<p>\n<a line7='' line7=''/></p>" none).lint []
        = some [.malformed ⟨[]⟩ (String.ofList message)] ∧
      occurrences lineColumnAt? message = [(['2'], ['1', '3'])] ∧
      occurrences lineAt? message = [['2']] ∧
      hasPlace message = false) ∧
    (Template.prepare ⟨[]⟩ "\n" none).document = .error (.malformed .noRoot) ∧
    (Position.endOf (Template.prepare ⟨[]⟩ "\n" none).content.toList).Fits ∧
    ∃ message : List Char,
      (Template.prepare ⟨[]⟩ "\n" none).lint [] = some [.malformed ⟨[]⟩ (String.ofList message)] ∧
      occurrences lineColumnAt? message = [(['2'], ['1'])] := by
  have hdocument : (Template.prepare ⟨[]⟩ "<p>\n<a line7='' line7=''/></p>" none).document
      = .error (.malformed (.located (.attributeRepeated "line7") 14)) :=
    eq_error_of_map (by decide +kernel)
  obtain ⟨before, -, -, -, message, -, -, hplace, -, hlint, -, -, hboth, hline, hnone⟩ :=
    message_names_one_place ⟨[]⟩ "<p>\n<a line7='' line7=''/></p>" none [] _ 14 hdocument rfl
      (by decide +kernel) nofun
  have hreported : reported
      (Template.prepare ⟨[]⟩ "<p>\n<a line7='' line7=''/></p>" none).content.toList
      (.located (.attributeRepeated "line7") 14)
      = ⟨(Template.prepare ⟨[]⟩ "<p>\n<a line7='' line7=''/></p>" none).offset + 2, 13⟩ := by
    decide +kernel
  rw [hreported, Position.mk.injEq] at hplace
  rw [← Nat.add_left_cancel hplace.1, ← hplace.2] at hboth
  rw [← Nat.add_left_cancel hplace.1] at hline
  refine ⟨⟨hdocument, message, hlint, hboth, hline, hnone⟩, ?_⟩
  have hmissing : (Template.prepare ⟨[]⟩ "\n" none).document = .error (.malformed .noRoot) :=
    eq_error_of_map (by decide +kernel)
  have hfits : (Position.endOf (Template.prepare ⟨[]⟩ "\n" none).content.toList).Fits :=
    ⟨by decide +kernel, by decide +kernel⟩
  obtain ⟨before, -, -, -, message, -, -, hplace, -, hlint, -, -, hboth, -⟩ :=
    message_names_one_place ⟨[]⟩ "\n" none [] .noRoot 0 hmissing rfl (by decide +kernel)
      fun _ => hfits
  have hreported : reported (Template.prepare ⟨[]⟩ "\n" none).content.toList .noRoot
      = ⟨(Template.prepare ⟨[]⟩ "\n" none).offset + 2, 1⟩ := by
    decide +kernel
  rw [hreported, Position.mk.injEq] at hplace
  rw [← Nat.add_left_cancel hplace.1, ← hplace.2] at hboth
  exact ⟨hmissing, hfits, message, hlint, hboth⟩

end TemplateLint
