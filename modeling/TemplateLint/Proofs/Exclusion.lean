/-
  TemplateLint.Proofs.Exclusion — excluding a directory excludes what is below it.

  A prefix is compared with paths as they are shown, and a path that was found below
  a directory is shown with what is shown of the directory in front: the slash behind
  the directory ends every sequence of bytes that is under way there, be it well-formed
  or not.  So a prefix of the directory excludes every file that the directory stands
  for.  Of such files only errors are reported, the same as without the prefix.

  Main result: `excluded_directory_keeps_errors`.
-/
import TemplateLint.Proofs.Runs

namespace TemplateLint

/-! ## §1. A slash ends what is under way -/

namespace Utf8

/-- The sequence under way, if there is one, does not go on with an ASCII byte. -/
def RefusesAscii (state : Option Pending) : Prop :=
  ∀ p ∈ state, ∀ b : UInt8, b < 0x80 → p.accepts b = false

theorem refusesAscii_of_accepts {p : Pending}
    (h : ∀ b : UInt8, p.accepts b = true → 0x80 ≤ b.toNat) : RefusesAscii (some p) := by
  intro q hq b hb
  cases hq
  have hlow : b.toNat < 0x80 := UInt8.lt_iff_toNat_lt.1 hb
  cases haccepts : p.accepts b with
  | false => rfl
  | true =>
    have hhigh := h b haccepts
    omega

theorem refusesAscii_none : RefusesAscii none := by
  intro p hp
  cases hp

/-- **One byte.**  Whatever it opens or goes on with takes no ASCII byte next. -/
theorem step_refusesAscii (state : Option Pending) (b : UInt8) :
    RefusesAscii (step state b).2 := by
  have hbegin : RefusesAscii (begin b).2 := by
    unfold begin
    split
    · exact refusesAscii_none
    · cases hlead : Pending.ofLead? b with
      | none => exact refusesAscii_none
      | some p =>
        apply refusesAscii_of_accepts
        intro x hx
        exact (((Pending.opened_of_ofLead? hlead).accepts x).1 hx).1
  cases state with
  | none => exact hbegin
  | some p =>
    by_cases haccepts : p.accepts b = true
    · cases hmore : p.more with
      | zero =>
        rw [step_last hmore haccepts]
        exact refusesAscii_none
      | succ more =>
        rw [step_more hmore haccepts]
        apply refusesAscii_of_accepts
        intro x hx
        exact (accepts_next hx).1
    · rw [step_refuses haccepts]
      exact hbegin

variable {b : UInt8} {bs rest : List UInt8}

/-- **All bytes.**  In front of an ASCII byte the segments are those of the bytes alone. -/
theorem segmentsFrom_append_ascii {state : Option Pending} (hstate : RefusesAscii state)
    (hascii : b < 0x80) :
    segmentsFrom state (bs ++ b :: rest) = segmentsFrom state bs ++ segments (b :: rest) := by
  induction bs generalizing state with
  | nil =>
    cases state with
    | none => rfl
    | some p =>
      -- the piece that is broken off at the end is broken off here as well
      have hrefuses : ¬ p.accepts b = true := by
        rw [hstate p rfl b hascii]
        exact Bool.false_ne_true
      show (step (some p) b).1 ++ segmentsFrom (step (some p) b).2 rest = _
      rw [step_refuses hrefuses]
      rfl
  | cons x bs ih =>
    rw [List.cons_append, segmentsFrom, segmentsFrom, ih (step_refusesAscii state x),
      List.append_assoc]

theorem segments_append_ascii (hascii : b < 0x80) :
    segments (bs ++ b :: rest) = segments bs ++ segments (b :: rest) :=
  segmentsFrom_append_ascii refusesAscii_none hascii

theorem lossy_prefix_of_segments (h : segments bs <+: segments rest) :
    (lossy bs).toList <+: (lossy rest).toList := by
  unfold lossy
  rw [String.toList_ofList, String.toList_ofList]
  exact h.map _

end Utf8

/-! ## §2. Files below an excluded directory -/

namespace Path

/-- A path is shown with what is shown of its directory in front. -/
theorem display_prefix_join (p : Path) (name : Name) :
    p.display.toList <+: (p.join name).display.toList := by
  have hslash : slash < 0x80 := by decide
  apply Utf8.lossy_prefix_of_segments
  by_cases hempty : p.bytes = []
  · rw [hempty]
    exact List.nil_prefix
  · by_cases hlast : p.bytes.getLast? = some slash
    · -- the slash is there already, and the name is read from behind it
      obtain ⟨front, hfront⟩ := List.getLast?_eq_some_iff.1 hlast
      have hjoin : (p.join name).bytes = front ++ slash :: name := by
        simp [join, hfront]
      rw [hjoin, hfront, Utf8.segments_append_ascii hslash, Utf8.segments_append_ascii hslash,
        List.prefix_append_right_inj]
      exact ⟨Utf8.segments name, rfl⟩
    · have hjoin : (p.join name).bytes = p.bytes ++ slash :: name := by
        simp [join, hempty, hlast]
      rw [hjoin, Utf8.segments_append_ascii hslash]
      exact List.prefix_append _ _

theorem display_prefix_foldl_join (p : Path) (names : List Name) :
    p.display.toList <+: (names.foldl join p).display.toList := by
  induction names generalizing p with
  | nil => exact List.prefix_refl _
  | cons name names ih => exact (display_prefix_join p name).trans (ih (p.join name))

/-- A prefix of a directory excludes every file that the directory stands for. -/
theorem excludes_of_mem_targets {look : Lookup} {d q : Path} {entries : List (Name × Entry)}
    {start : String} (hlook : look d = .ok (.directory entries))
    (hstart : start.toList <+: d.display.toList) (hq : q ∈ d.targets look) :
    Excludes (some start) q := by
  rw [targets_of_directory hlook] at hq
  obtain ⟨names, -, heq⟩ := List.mem_map.1 hq
  refine ⟨start, rfl, ?_⟩
  rw [← heq]
  exact hstart.trans (display_prefix_foldl_join d names)

end Path

/-! ## §3. What is left of the findings -/

/-- Of an excluded template the error is left, if there is one. -/
theorem Template.lint_of_excluded {path : Path} {exclude : Option String}
    (hexcludes : Excludes exclude path) (source : String) (checks : List Check) :
    (prepare path source exclude).lint checks
      = ((prepare path source none).lint checks).map
          (Finding.ofRule Finding.syntaxErrorRule) := by
  cases hread : readPrepared source with
  | error rejection =>
    cases rejection with
    | malformed error =>
      rw [lint_of_malformed hread, lint_of_malformed hread, Option.map_some]
      rfl
    | overclosed =>
      rw [(lint_eq_none_iff _ _).2 (document_prepare.trans hread),
        (lint_eq_none_iff _ _).2 (document_prepare.trans hread), Option.map_none]
  | ok d =>
    rw [lint_of_excludes hread hexcludes, lint_of_not_excludes hread (not_excludes_none path),
      Option.map_some, ofRule_runChecks]

namespace Linter

variable {look : Lookup} {checks : List Check} {exclude : Option String}

theorem lintFile_of_excluded {q : Path} (hexcludes : Excludes exclude q) :
    ({ checks, exclude } : Linter).lintFile look q
      = (({ checks } : Linter).lintFile look q).map
          (Finding.ofRule Finding.syntaxErrorRule) := by
  by_cases htext : ∃ source, look.HasText q source
  · obtain ⟨source, htext⟩ := htext
    rw [lintFile_of_hasText htext, lintFile_of_hasText htext]
    simp only [Template.lint_of_excluded hexcludes source checks]
    cases (Template.prepare q source none).lint checks with
    | none => rfl
    | some findings => rfl
  · -- the prefix has nothing to do with the cause
    obtain ⟨cause, hcause, hfails⟩ := lintFile_of_unreadable htext (r := { checks, exclude })
    obtain ⟨cause', hcause', hfails'⟩ := lintFile_of_unreadable htext (r := { checks })
    rw [hcause, Except.error.injEq] at hcause'
    rw [hfails, hfails', hcause']
    rfl

/-- File by file, so for a run: what each file keeps is what the run keeps. -/
theorem lintAll_of_excluded {files : List Path} (hexcludes : ∀ q ∈ files, Excludes exclude q) :
    ({ checks, exclude } : Linter).lintAll look files
      = (({ checks } : Linter).lintAll look files).map
          (Finding.ofRule Finding.syntaxErrorRule) := by
  induction files with
  | nil => rfl
  | cons q files ih =>
    rw [List.forall_mem_cons] at hexcludes
    have hfile : ({ checks, exclude } : Linter).lintFile look q = _ :=
      lintFile_of_excluded hexcludes.1
    cases hplain : ({ checks } : Linter).lintFile look q with
    | error failure =>
      rw [hplain] at hfile
      rw [lintAll_cons_error hplain, lintAll_cons_error hfile]
      rfl
    | ok first =>
      rw [hplain] at hfile
      rw [lintAll_cons_ok hplain, lintAll_cons_ok hfile, ih hexcludes.2]
      cases ({ checks } : Linter).lintAll look files with
      | error failure => rfl
      | ok later =>
        show Except.ok _ = Except.ok _
        rw [Finding.ofRule, Finding.ofRule, Finding.ofRule, List.filter_append]

end Linter

/-- **Excluding a directory excludes everything below it.**  Let a path lead to a
directory and let the path, as it is shown, begin with the prefix.  If a run over the
directory with the prefix succeeds, it reports only errors, and these are the errors
among what a run without the prefix reports.  A run with the prefix fails if and only
if one without it does, with the same failure. -/
theorem excluded_directory_keeps_errors (v : Volume) (checks : List Check) (d : Path)
    (entries : List (Name × Entry)) (start : String)
    (hlook : v.look d = .ok (.directory entries)) (hstart : start.toList <+: d.display.toList) :
    (∀ findings, ({ checks, exclude := some start } : Linter).run v.look [d] = .ok findings →
      (∀ f ∈ findings, f.isMalformed = true) ∧
      ∃ all, ({ checks, exclude := none } : Linter).run v.look [d] = .ok all ∧
        findings = all.filter Finding.isMalformed) ∧
    ∀ failure, ({ checks, exclude := some start } : Linter).run v.look [d] = .error failure ↔
      ({ checks, exclude := none } : Linter).run v.look [d] = .error failure := by
  have hrun : ({ checks, exclude := some start } : Linter).run v.look [d]
      = (({ checks, exclude := none } : Linter).run v.look [d]).map
          (Finding.ofRule Finding.syntaxErrorRule) := by
    apply Linter.lintAll_of_excluded
    intro q hq
    rw [List.flatMap_singleton] at hq
    exact Path.excludes_of_mem_targets hlook hstart hq
  rw [hrun]
  cases ({ checks, exclude := none } : Linter).run v.look [d] with
  | error failure => exact ⟨nofun, fun _ => Iff.rfl⟩
  | ok all =>
    refine ⟨?_, fun failure => ⟨nofun, nofun⟩⟩
    intro findings hfindings
    have hfilter : all.filter Finding.isMalformed = findings := Except.ok.inj hfindings
    refine ⟨?_, all, rfl, hfilter.symm⟩
    intro f hf
    rw [← hfilter] at hf
    exact (List.mem_filter.1 hf).2

/-- The first two bytes of a character that has three. -/
def brokenPath : Path := ⟨[0xe2, 0x82]⟩

/-- A volume in which the tangled directory has such a name. -/
def brokenVolume : Volume where
  root := .directory [(brokenPath.bytes, .directory tangled)]
  home := []

/-- Below a directory whose name is broken off and shown as U+FFFD, excluded by that
character: the image without a description is no longer reported, the error still is. -/
theorem excluded_directory_keeps_errors_broken :
    brokenVolume.look brokenPath = .ok (.directory tangled) ∧
    "\ufffd".toList <+: brokenPath.display.toList ∧
    ∃ findings all,
      ({ exclude := some "\ufffd" } : Linter).run brokenVolume.look [brokenPath] = .ok findings ∧
      ({} : Linter).run brokenVolume.look [brokenPath] = .ok all ∧
      findings = all.filter Finding.isMalformed ∧
      all.map (·.rule) = ["syntax-error", "missing-image-description"] := by
  have hlook : brokenVolume.look brokenPath = .ok (.directory tangled) := rfl
  have hstart : "\ufffd".toList <+: brokenPath.display.toList := by decide +kernel
  obtain ⟨hsome, hfails⟩ :=
    excluded_directory_keeps_errors brokenVolume Check.all brokenPath tangled "\ufffd" hlook hstart
  have hrun : ({} : Linter).run brokenVolume.look [brokenPath]
      = ({} : Linter).lintAll brokenVolume.look
        ([["a", "x.pt"], ["a.pt"]].map fun names =>
          (names.map Utf8.encode).foldl Path.join brokenPath) := by
    show Linter.lintAll _ _ ([brokenPath].flatMap _) = _
    rw [List.flatMap_singleton, Path.targets_of_directory hlook, templates_tangled]
    rfl
  have hrules : (({} : Linter).lintAll brokenVolume.look
      ([["a", "x.pt"], ["a.pt"]].map fun names =>
        (names.map Utf8.encode).foldl Path.join brokenPath)).toOption.map (·.map (·.rule))
      = some ["syntax-error", "missing-image-description"] := by
    decide +kernel
  obtain ⟨all, hall, hlist⟩ := Option.map_eq_some_iff.1 hrules
  have hplain : ({} : Linter).run brokenVolume.look [brokenPath] = .ok all :=
    hrun.trans (Command.eq_ok_of_toOption hall)
  cases hexcluded : ({ exclude := some "\ufffd" } : Linter).run brokenVolume.look [brokenPath] with
  | error failure =>
    have hfailed := (hfails failure).1 hexcluded
    rw [hplain] at hfailed
    cases hfailed
  | ok findings =>
    obtain ⟨-, all', hall', hfilter⟩ := hsome findings hexcluded
    rw [hplain, Except.ok.injEq] at hall'
    exact ⟨hlook, hstart, findings, all, rfl, hplain, by rw [hfilter, hall'], hlist⟩

end TemplateLint
