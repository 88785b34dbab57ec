/-
  TemplateLint.Proofs.TextReports — the lines of a report as text.

  A report as text is meant to have one line a finding.  The guidance of the
  rules has no line feed, and neither have the names that an error quotes.  A
  character that was found where it cannot stand is quoted as it is, so a line
  feed found there breaks the report in two.

  Main result: `text_report_lines`.
-/
import TemplateLint.Proofs.Independence
import TemplateLint.Proofs.Messages
import TemplateLint.Proofs.Text.Utf8
import TemplateLint.Report

namespace TemplateLint

open Location

/-! ## §1. Lines of a text -/

/-- A separator more, a piece more. -/
theorem length_splitOn (separator : Char) (cs : List Char) :
    (cs.splitOn separator).length = cs.count separator + 1 := by
  induction cs with
  | nil => rfl
  | cons c cs ih =>
    rw [List.splitOn_cons_eq_if_modifyHead, List.count_cons]
    split
    · rw [List.length_cons, ih]
    · rw [List.length_modifyHead, ih]

theorem count_eq_zero_of_digits {digits : List Char} (h : ∀ c ∈ digits, c.isDigit = true) :
    digits.count '\n' = 0 := by
  refine List.count_eq_zero.2 fun hmem => ?_
  exact absurd (h _ hmem) (by decide)

/-- A character and the first byte of its encoding are the same line feed. -/
theorem Utf8.leadByte_eq_lineFeed_iff (c : Char) : leadByte c = '\n' ↔ c = '\n' := by
  constructor
  · intro h
    have hc : Char.ofNat c.val.toNat = c := Char.ofNat_toNat c
    have hvalid := toNat_valid c
    have hcases := utf8EncodeChar_cases c
    -- only a single byte is small enough to be a line feed
    have hbyte : ∀ n < 0x100, Char.ofNat (UInt8.ofNat n).toNat = '\n' → n = 10 := by decide +kernel
    unfold leadByte at h
    generalize c.val.toNat = v at *
    rcases hcases with ⟨hle, hencode⟩ | ⟨hge, hle, hencode⟩ | ⟨hge, hle, hencode⟩ | ⟨hge, hencode⟩
    · rw [hencode] at h
      rw [← hc, hbyte v (by omega) h]
    · rw [hencode] at h
      have heq := hbyte (v / 64 + 0xc0) (by omega) h
      omega
    · rw [hencode] at h
      have heq := hbyte (v / 64 / 64 + 0xe0) (by omega) h
      omega
    · rw [hencode] at h
      have heq := hbyte (v / 64 / 64 / 64 + 0xf0) (by omega) h
      omega
  · rintro rfl
    rfl

/-! ## §2. Line feeds in the wording of an error -/

namespace Fault

/-- The character that was found where another one has to stand. -/
def found? : Fault → Option Char
  | expectedChar _ found => some found
  | expectedClass _ found => some found
  | _ => none

theorem count_quoted (c : Char) : (quoted c).toList.count '\n' = if c = '\n' then 1 else 0 := by
  have hquoted : (quoted c).toList = ['\'', Utf8.leadByte c, '\''] := by
    simp only [quoted, String.toList_append, String.toList_singleton]
    rfl
  rw [hquoted]
  simp [List.count_cons, Utf8.leadByte_eq_lineFeed_iff]

theorem count_escaped (c : Char) : (escaped c).toList.count '\n' = 0 := by
  unfold escaped
  split
  · decide
  · refine List.count_eq_zero.2 ?_
    simp only [Escape.braced, String.toList_append, String.toList_ofList, List.mem_append, not_or]
    exact ⟨⟨by decide, ⟨by decide, notMem_toDigits (by decide) _⟩, by decide⟩, by decide⟩

theorem count_name {name : List Char} (h : name.all isNameChar = true) : name.count '\n' = 0 :=
  List.count_eq_zero.2 (notMem_of_all_isNameChar h (by decide))

theorem count_wording {cs : List Char} (h : cs.all isWording = true) : cs.count '\n' = 0 := by
  refine List.count_eq_zero.2 fun hmem => ?_
  exact absurd (List.all_eq_true.1 h _ hmem) (by decide)

/-- **Only what was found is quoted with its line feed.** -/
theorem count_lead {fault : Fault} (h : fault.IsPlain) :
    fault.lead.toList.count '\n' = if fault.found? = some '\n' then 1 else 0 := by
  cases fault with
  | namespaceRepeated pfx =>
    have hname : pfx.toList.count '\n' = 0 := count_name h
    unfold lead
    simp only [String.toList_append, List.count_append, hname]
    rfl
  | unknownPrefix pfx =>
    have hname : pfx.toList.count '\n' = 0 := count_name h
    unfold lead
    simp only [String.toList_append, List.count_append, hname]
    rfl
  | closeMismatch expected found =>
    have hexpected : expected.toList.count '\n' = 0 := count_name h.1
    have hfound : found.toList.count '\n' = 0 := count_name h.2
    unfold lead
    simp only [String.toList_append, List.count_append, hexpected, hfound]
    rfl
  | unknownEntity name =>
    have hname : name.toList.count '\n' = 0 := count_name h
    unfold lead
    simp only [String.toList_append, List.count_append, hname]
    rfl
  | attributeRepeated name =>
    have hname : name.toList.count '\n' = 0 := count_name h
    unfold lead
    simp only [String.toList_append, List.count_append, hname]
    rfl
  | invalidChar c =>
    unfold lead
    simp only [String.toList_append, List.count_append, count_escaped]
    rfl
  | expectedChar expected found =>
    have hexpected : (quoted expected).toList.count '\n' = 0 := by
      rw [count_quoted, if_neg (show expected ≠ '\n' from h)]
    unfold lead
    simp only [String.toList_append, List.count_append, hexpected, count_quoted, found?,
      Option.some.injEq]
    exact Nat.zero_add _
  | expectedClass expected found =>
    have hexpected : expected.toList.count '\n' = 0 := count_wording h
    unfold lead
    simp only [String.toList_append, List.count_append, hexpected, count_quoted, found?,
      Option.some.injEq]
    exact Nat.zero_add _
  | expectedText expected =>
    have hexpected : expected.toList.count '\n' = 0 := count_wording h
    unfold lead
    simp only [String.toList_append, List.count_append, hexpected]
    rfl
  | _ => rfl

theorem count_trail (fault : Fault) : fault.trail.toList.count '\n' = 0 := by
  unfold trail
  split <;> decide

end Fault

namespace SyntaxError

/-- The character that was found where another one has to stand. -/
def found? : SyntaxError → Option Char
  | located fault _ => fault.found?
  | _ => none

end SyntaxError

namespace Location

/-- A number that is moved is spelled with digits like any other. -/
theorem count_shifted (offset n : Nat) : (shifted offset (Decimal.digits n)).count '\n' = 0 := by
  unfold shifted
  split
  · exact count_eq_zero_of_digits fun _ => Decimal.isDigit_of_mem_digits
  · exact count_eq_zero_of_digits fun _ => Decimal.isDigit_of_mem_digits

/-- Spelling out a place and moving its line adds no line feed and takes none. -/
theorem count_shiftLines_place {front back : List Char} {row column : Nat} (offset : Nat)
    (hfront : Quiet front) (hback : back.all (!·.isDigit) = true) (hcount : back.count '\n' = 0) :
    (shiftLines offset (front ++ (spelled (Decimal.digits row) (Decimal.digits column) ++ back))).count
      '\n' = front.count '\n' := by
  have hcolumn : (Decimal.digits column).count '\n' = 0 :=
    count_eq_zero_of_digits fun _ => Decimal.isDigit_of_mem_digits
  rw [shiftLines_place hfront hback, spelled_append]
  simp only [List.count_append, count_shifted, hcolumn, hcount]
  rfl

/-- An error without a place is worded without a line feed. -/
theorem count_message_of_isPlaceless {error : SyntaxError} (h : error.IsPlaceless)
    (text : List Char) : (error.message text).toList.count '\n' = 0 ∧ error.found? = none := by
  cases error with
  | located fault mark => cases h
  | noRoot =>
    simp only [SyntaxError.message]
    decide
  | unclosedRoot =>
    simp only [SyntaxError.message]
    decide
  | endOfText =>
    simp only [SyntaxError.message]
    decide

/-- **The line feeds of a message.**  There is one if a line feed was found where
another character has to stand, and none otherwise. -/
theorem count_describe {error : SyntaxError} {limit : Mark} (text : List Char) (offset : Nat)
    (hwithin : error.Within limit) :
    (describe text offset error).toList.count '\n' = if error.found? = some '\n' then 1 else 0 := by
  unfold describe
  rw [String.toList_ofList]
  by_cases hplaceless : error.IsPlaceless
  · obtain ⟨hall, -⟩ := all_message_of_isPlaceless hplaceless text
    obtain ⟨hcount, hfound⟩ := count_message_of_isPlaceless hplaceless text
    have hfront : Quiet ((error.message text).toList ++ ", ".toList) :=
      quiet_of_all_not_isDigit (by rw [List.all_append, hall]; decide)
    rw [errorMessage_placeless hplaceless, count_shiftLines_place offset hfront rfl rfl,
      List.count_append, hcount, hfound]
    rfl
  · cases error with
    | located fault mark =>
      have hlead := Fault.quiet_lead hwithin.2
      have hcount := Fault.count_lead hwithin.2
      by_cases htrail : fault.trail = ""
      · have hfront : Quiet (fault.lead.toList ++ ", ".toList) :=
          hlead.append (quiet_of_all_not_isDigit (by decide)) (.inr fun c hc => by cases hc; rfl)
        rw [errorMessage_atEnd hwithin.2 htrail, count_shiftLines_place offset hfront rfl rfl,
          List.count_append, hcount]
        rfl
      · have hfront : Quiet (fault.lead.toList ++ " at ".toList) :=
          hlead.append (quiet_of_all_not_isDigit (by decide)) (.inr fun c hc => by cases hc; rfl)
        rw [errorMessage_midSentence hwithin.2 htrail,
          count_shiftLines_place offset hfront fault.all_trail fault.count_trail, List.count_append,
          hcount]
        rfl
    | noRoot => exact absurd trivial hplaceless
    | unclosedRoot => exact absurd trivial hplaceless
    | endOfText => exact absurd trivial hplaceless

end Location

/-! ## §3. Line feeds in a report -/

theorem count_toList_append {s t : String} (hs : s.toList.count '\n' = 0)
    (ht : t.toList.count '\n' = 0) : (s ++ t).toList.count '\n' = 0 := by
  rw [String.toList_append, List.count_append, hs, ht]

theorem count_toList_ofList {cs : List Char} (h : cs.count '\n' = 0) :
    (String.ofList cs).toList.count '\n' = 0 := by
  rw [String.toList_ofList, h]

theorem Rule.count_guidance (rule : Rule) : rule.guidance.toList.count '\n' = 0 := by
  -- piece by piece, since a long text takes long to be decoded
  cases rule <;>
    (show (_ ++ _ : String).toList.count '\n' = 0
     repeat' with_reducible apply count_toList_append) <;>
    exact count_toList_ofList (by decide)

/-- On the line of a finding, only the file and the message can have a line feed. -/
theorem Finding.count_render (f : Finding) :
    f.render.toList.count '\n' = f.file.display.toList.count '\n' + f.message.toList.count '\n' := by
  have hdigits : ∀ n, (Decimal.render n).toList.count '\n' = 0 := by
    intro n
    unfold Decimal.render
    rw [String.toList_ofList]
    exact count_eq_zero_of_digits fun _ => Decimal.isDigit_of_mem_digits
  unfold render
  split
  · simp only [String.toList_append, List.count_append, hdigits]
    rfl
  · simp only [String.toList_append, List.count_append]
    rfl

namespace Report

variable {findings : List Finding}

theorem render_text_eq_none_iff : render .text findings = none ↔ findings = [] := by
  cases findings with
  | nil => exact ⟨fun _ => rfl, fun _ => rfl⟩
  | cons f findings => exact ⟨nofun, nofun⟩

theorem eq_of_render_text {report : String} (h : render .text findings = some report) :
    findings ≠ [] ∧ report = "\n".intercalate (lines findings) := by
  cases findings with
  | nil => cases h
  | cons f findings =>
    cases h
    exact ⟨List.cons_ne_nil f findings, rfl⟩

/-- Findings that are lines are the lines of the report. -/
theorem splitOn_lines (hne : findings ≠ [])
    (hlines : ∀ f ∈ findings, f.render.toList.count '\n' = 0) :
    ("\n".intercalate (lines findings)).toList.splitOn '\n'
      = findings.map fun f => f.render.toList := by
  rw [String.toList_intercalate, lines, List.map_map]
  refine List.splitOn_intercalate '\n' ?_ (by simpa using hne)
  intro line hline
  obtain ⟨f, hf, rfl⟩ := List.mem_map.1 hline
  exact List.count_eq_zero.1 (hlines f hf)

theorem length_splitOn_lines_singleton (f : Finding) :
    (("\n".intercalate (lines [f])).toList.splitOn '\n').length
      = f.render.toList.count '\n' + 1 := by
  rw [length_splitOn, lines, List.map_singleton, String.intercalate_singleton]

end Report

namespace Template

/-- The template is rejected with an error that quotes a line feed: it was found
where another character has to stand. -/
def QuotesLineFeed (t : Template) : Prop :=
  ∃ error, t.document = .error (.malformed error) ∧ error.found? = some '\n'

variable {t : Template} {checks : List Check} {findings : List Finding}

theorem not_quotesLineFeed_of_document {d : Document} (h : t.document = .ok d) :
    ¬ t.QuotesLineFeed := by
  rintro ⟨error, herror, -⟩
  rw [h] at herror
  cases herror

theorem quotesLineFeed_iff {error : SyntaxError} (h : t.document = .error (.malformed error)) :
    t.QuotesLineFeed ↔ error.found? = some '\n' := by
  unfold QuotesLineFeed
  rw [h]
  constructor
  · rintro ⟨error', herror, hfound⟩
    cases herror
    exact hfound
  · intro hfound
    exact ⟨error, rfl, hfound⟩

/-- What the checks find is said on one line. -/
theorem count_render_of_document {d : Document} (h : t.document = .ok d)
    (hpath : t.path.display.toList.count '\n' = 0) (hlint : t.lint checks = some findings) :
    ∀ f ∈ findings, f.render.toList.count '\n' = 0 := by
  unfold lint at hlint
  rw [h] at hlint
  obtain rfl := Option.some.inj hlint
  intro f hf
  split at hf
  · cases hf
  · obtain ⟨e, rule, rfl⟩ := of_mem_runChecks hf
    rw [Finding.count_render]
    show t.path.display.toList.count '\n' + rule.guidance.toList.count '\n' = 0
    rw [hpath, rule.count_guidance]

/-- An error is said on one line, or on two if it quotes a line feed. -/
theorem count_render_of_malformed {error : SyntaxError} {limit : Mark}
    (h : t.document = .error (.malformed error)) (hwithin : error.Within limit)
    (hpath : t.path.display.toList.count '\n' = 0) (hlint : t.lint checks = some findings) :
    ∃ f, findings = [f] ∧
      f.render.toList.count '\n' = if error.found? = some '\n' then 1 else 0 := by
  unfold lint at hlint
  rw [h] at hlint
  refine ⟨_, (Option.some.inj hlint).symm, ?_⟩
  rw [Finding.count_render]
  show t.path.display.toList.count '\n' + (t.errorMessage error).toList.count '\n' = _
  rw [hpath, Nat.zero_add]
  exact count_describe _ _ hwithin

end Template

/-- **One line a finding, unless a line feed is quoted.**  Let the name of the
file be shown without a line feed.  The report as text is missing exactly if
there are no findings.  Otherwise its lines are the findings, each on its own
line and in their order, exactly if the template is not rejected for a line feed
that was found where another character has to stand.  If it is, its one finding
takes up two lines. -/
theorem text_report_lines (path : Path) (source : String) (exclude : Option String)
    (checks : List Check) (findings : List Finding) (hpath : '\n' ∉ path.display.toList)
    (hlint : (Template.prepare path source exclude).lint checks = some findings) :
    (Report.render .text findings = none ↔ findings = []) ∧
    ∀ report, Report.render .text findings = some report →
      (report.toList.splitOn '\n' = findings.map (fun f => f.render.toList) ↔
        ¬ (Template.prepare path source exclude).QuotesLineFeed) ∧
      ((Template.prepare path source exclude).QuotesLineFeed →
        findings.length = 1 ∧ (report.toList.splitOn '\n').length = 2) := by
  refine ⟨Report.render_text_eq_none_iff, fun report hreport => ?_⟩
  obtain ⟨hne, rfl⟩ := Report.eq_of_render_text hreport
  have hpath : (Template.prepare path source exclude).path.display.toList.count '\n' = 0 := by
    rw [Template.prepare_path]
    exact List.count_eq_zero.2 hpath
  have hensures := Template.document_ensures path source exclude
  cases hdocument : (Template.prepare path source exclude).document with
  | ok d =>
    have hlines := Report.splitOn_lines hne
      (Template.count_render_of_document hdocument hpath hlint)
    have hquotes := Template.not_quotesLineFeed_of_document hdocument
    exact ⟨⟨fun _ => hquotes, fun _ => hlines⟩, fun h => absurd h hquotes⟩
  | error rejection =>
    rw [hdocument] at hensures
    cases rejection with
    | overclosed =>
      rw [(Template.lint_eq_none_iff _ checks).2 hdocument] at hlint
      cases hlint
    | malformed error =>
      obtain ⟨f, rfl, hcount⟩ :=
        Template.count_render_of_malformed hdocument hensures hpath hlint
      rw [Template.quotesLineFeed_iff hdocument]
      by_cases hfound : error.found? = some '\n'
      · have hlength := Report.length_splitOn_lines_singleton f
        rw [hcount, if_pos hfound] at hlength
        refine ⟨⟨fun hlines => ?_, fun h => absurd hfound h⟩, fun _ => ⟨rfl, hlength⟩⟩
        -- one finding is not two lines
        rw [hlines] at hlength
        cases hlength
      · rw [if_neg hfound] at hcount
        have hlines := Report.splitOn_lines hne (List.forall_mem_singleton.2 hcount)
        exact ⟨⟨fun _ => hfound, fun _ => hlines⟩, fun h => absurd h hfound⟩

/-- Two images on two lines: the report has a line for each. -/
theorem text_report_lines_two_images :
    let findings : List Finding := [1, 2].map fun line => ⟨.ofString "t.pt", some line,
      "missing-image-description", Rule.missingImageDescription.guidance⟩
    (Template.prepare (.ofString "t.pt") "<p><img/>\n<img/></p>" none).lint [.imageDescription]
      = some findings ∧
    ∃ report, Report.render .text findings = some report ∧
      report.toList.splitOn '\n' = findings.map fun f => f.render.toList := by
  intro findings
  have hlint : (Template.prepare (.ofString "t.pt") "<p><img/>\n<img/></p>" none).lint
      [.imageDescription] = some findings := by
    decide +kernel
  have hok : (Template.prepare (.ofString "t.pt") "<p><img/>\n<img/></p>" none).document.toBool
      = true := by
    decide +kernel
  obtain ⟨-, hlines⟩ := text_report_lines (.ofString "t.pt") "<p><img/>\n<img/></p>" none
    [.imageDescription] findings (by decide) hlint
  refine ⟨hlint, _, rfl, (hlines _ rfl).1.2 ?_⟩
  rintro ⟨error, herror, -⟩
  rw [herror] at hok
  cases hok

/-- A line feed where a tag has to be closed is quoted as it is: the report on
one finding has two lines, and neither is that finding. -/
theorem quoted_line_feed_breaks_report :
    (Template.prepare (.ofString "t.pt") "<a/\n>" none).lint Check.all
      = some [⟨.ofString "t.pt", none, Finding.syntaxErrorRule,
        "expected '>' not '\n', line 1, column 4"⟩] ∧
    ∃ report, Report.render .text [⟨.ofString "t.pt", none, Finding.syntaxErrorRule,
        "expected '>' not '\n', line 1, column 4"⟩] = some report ∧
      report.toList.splitOn '\n'
        = ["t.pt: expected '>' not '".toList, "', line 1, column 4".toList] := by
  refine ⟨by decide +kernel, _, rfl, ?_⟩
  decide +kernel

end TemplateLint
