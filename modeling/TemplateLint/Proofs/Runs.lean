/-
  TemplateLint.Proofs.Runs — a run goes file by file.

  The arguments of a run stand for files, and a file that was found stands for
  itself.  Main result: `run_file_by_file`, over all volumes, linters and
  arguments: a run over the arguments is the run over the files, its findings are
  those of the files in order, and the first file that fails decides otherwise.
-/
import Mathlib.Data.List.Forall2
import TemplateLint.Proofs.Files.Templates
import TemplateLint.Proofs.Files.Walk
import TemplateLint.Proofs.Gate

namespace TemplateLint

/-! ## §1. A file stands for itself -/

namespace Path

variable {v : Volume} {p q : Path}

theorem targets_of_not_directory {look : Lookup}
    (h : ∀ entries, look p ≠ .ok (.directory entries)) : p.targets look = [p] := by
  unfold targets
  split
  · next entries hlook => exact absurd hlook (h entries)
  · rfl

theorem targets_of_mem_targets (htree : ∀ e, v.look p = .ok e → e.IsTree)
    (hq : q ∈ p.targets v.look) : q.targets v.look = [q] := by
  by_cases hdirectory : ∃ entries, v.look p = .ok (.directory entries)
  · obtain ⟨entries, hlook⟩ := hdirectory
    have hentries : (Entry.directory entries).IsTree := htree _ hlook
    rw [targets_of_directory hlook] at hq
    obtain ⟨names, hnames, heq⟩ := List.mem_map.1 hq
    obtain ⟨content, hcontent⟩ := ((Entry.mem_templates hentries).1 hnames).holdsFile
    apply targets_of_not_directory
    intro inner hinner
    -- the path leads to the file that was found, and to no directory
    rw [← heq] at hinner
    have hfile := Volume.look_foldl_join hlook hentries
      (Entry.HoldsFile.ne_nil ⟨content, hcontent⟩) hcontent hinner
    cases hfile
  · have hself : p.targets v.look = [p] := by
      apply targets_of_not_directory
      intro entries hentries
      exact hdirectory ⟨entries, hentries⟩
    rw [hself] at hq
    rw [List.mem_singleton.1 hq]
    exact hself

/-- Expanding the paths a second time changes nothing. -/
theorem flatMap_targets_idem {ps : List Path}
    (htrees : ∀ p ∈ ps, ∀ e, v.look p = .ok e → e.IsTree) :
    (ps.flatMap (targets v.look)).flatMap (targets v.look) = ps.flatMap (targets v.look) := by
  induction ps with
  | nil => rfl
  | cons p ps ih =>
    rw [List.forall_mem_cons] at htrees
    -- each of the first argument's files stands for itself
    have hfirst : (p.targets v.look).flatMap (targets v.look) = p.targets v.look := by
      rw [List.flatMap_congr fun q hq => targets_of_mem_targets htrees.1 hq]
      exact List.flatMap_singleton' _
    rw [List.flatMap_cons, List.flatMap_append, hfirst, ih htrees.2]

end Path

/-! ## §2. One file after the other -/

namespace Linter

variable {r : Linter} {look : Lookup} {p : Path} {files : List Path} {findings : List Finding}
  {failure : Failure}

/-- The findings of a run are those of its files, in their order. -/
theorem lintAll_eq_ok_iff : r.lintAll look files = .ok findings ↔
    ∃ parts, findings = parts.flatten ∧
      List.Forall₂ (fun file part => r.lintFile look file = .ok part) files parts := by
  -- file by file: the first one gives the first part, the later ones the others
  induction files generalizing findings with
  | nil =>
    constructor
    · intro h
      cases h
      exact ⟨[], rfl, .nil⟩
    · intro h
      obtain ⟨parts, hflatten, hparts⟩ := h
      cases hparts
      rw [hflatten]
      rfl
  | cons file files ih =>
    constructor
    · intro h
      cases hfile : r.lintFile look file with
      | error failure =>
        rw [lintAll_cons_error hfile] at h
        cases h
      | ok first =>
        rw [lintAll_cons_ok hfile] at h
        cases hfiles : r.lintAll look files with
        | error failure =>
          rw [hfiles] at h
          cases h
        | ok later =>
          rw [hfiles] at h
          obtain ⟨parts, hflatten, hparts⟩ := ih.1 hfiles
          refine ⟨first :: parts, ?_, .cons hfile hparts⟩
          rw [List.flatten_cons, ← hflatten, ← Except.ok.inj h]
    · intro h
      obtain ⟨parts, hflatten, hparts⟩ := h
      cases hparts with
      | cons hfile hrest =>
        rw [lintAll_cons_ok hfile, ih.2 ⟨_, rfl, hrest⟩, hflatten]
        rfl

theorem exists_lintAll_iff : (∃ findings, r.lintAll look files = .ok findings) ↔
    ∀ file ∈ files, ∃ findings, r.lintFile look file = .ok findings := by
  constructor
  · intro h
    induction files with
    | nil => simp
    | cons file files ih =>
      obtain ⟨findings, hfindings⟩ := h
      obtain ⟨parts, -, hparts⟩ := lintAll_eq_ok_iff.1 hfindings
      cases hparts with
      | cons hfile hrest =>
        exact List.forall_mem_cons.2 ⟨⟨_, hfile⟩, ih ⟨_, lintAll_eq_ok_iff.2 ⟨_, rfl, hrest⟩⟩⟩
  · exact exists_lintAll

/-- A file fails because it cannot be read, or because it is overclosed. -/
theorem lintFile_eq_error (h : r.lintFile look p = .error failure) :
    (∃ cause, failure = .unreadable ⟨p, cause⟩ ∧ (look p).bind Entry.text = .error cause) ∨
      (failure = .overclosed p ∧ IsOverclosed look p) := by
  by_cases htext : ∃ source, look.HasText p source
  · right
    obtain ⟨source, hsource⟩ := htext
    have hfailure := h
    rw [lintFile_of_hasText hsource] at hfailure
    split at hfailure
    · cases hfailure
    · -- a text without a result is overclosed
      have heq : failure = .overclosed p := (Except.error.inj hfailure).symm
      rw [heq] at h
      exact ⟨heq, isOverclosed_of_lintFile h⟩
  · left
    obtain ⟨cause, hcause, herror⟩ := lintFile_of_unreadable htext (r := r)
    rw [herror] at h
    exact ⟨cause, (Except.error.inj h).symm, hcause⟩

/-- A run over two lists is a run over the one and then the other, and the first
failure ends it. -/
theorem lintAll_append (files later : List Path) :
    r.lintAll look (files ++ later)
      = (r.lintAll look files).bind fun findings =>
          (r.lintAll look later).map (findings ++ ·) := by
  induction files with
  | nil =>
    have hnil : r.lintAll look [] = .ok [] := rfl
    rw [List.nil_append, hnil]
    show _ = (r.lintAll look later).map ([] ++ ·)
    cases r.lintAll look later with
    | error failure => rfl
    | ok findings => rfl
  | cons file files ih =>
    cases hfile : r.lintFile look file with
    | error failure =>
      rw [List.cons_append, lintAll_cons_error hfile, lintAll_cons_error hfile]
      rfl
    | ok first =>
      rw [List.cons_append, lintAll_cons_ok hfile, lintAll_cons_ok hfile, ih]
      cases r.lintAll look files with
      | error failure => rfl
      | ok findings =>
        cases r.lintAll look later with
        | error failure => rfl
        | ok rest =>
          show Except.ok (first ++ (findings ++ rest)) = .ok (first ++ findings ++ rest)
          rw [List.append_assoc]

end Linter

/-! ## §3. Runs over arguments -/

/-- **A run goes file by file.**  Let the arguments lead to trees, or nowhere, and let
`files` be what they stand for.  Expanding `files` again changes nothing, so that a
run over them is the run over the arguments.  It has a result if and only if every
file has, and then this is what the files give one after the other, each what its
text gives when it is linted.  Otherwise it fails as the first file that fails does:
with a file that cannot be read and the cause, unless this file is overclosed.
Further arguments are linted after the others, if these do not fail. -/
theorem run_file_by_file (v : Volume) (r : Linter) (ps : List Path)
    (htrees : ∀ p ∈ ps, ∀ e, v.look p = .ok e → e.IsTree) :
    let files := ps.flatMap (Path.targets v.look)
    (files.flatMap (Path.targets v.look) = files ∧ r.run v.look files = r.run v.look ps) ∧
    ((∃ findings, r.run v.look ps = .ok findings) ↔
      ∀ file ∈ files, ∃ findings, r.lintFile v.look file = .ok findings) ∧
    (∀ findings, r.run v.look ps = .ok findings →
      ∃ parts, findings = parts.flatten ∧ List.Forall₂ (fun file part =>
        r.lintFile v.look file = .ok part ∧
        ∃ source, Lookup.HasText v.look file source ∧
          (Template.prepare file source r.exclude).lint r.checks = some part) files parts) ∧
    (∀ failure, r.run v.look ps = .error failure →
      ∃ before file after, files = before ++ file :: after ∧
        (∀ earlier ∈ before, ∃ findings, r.lintFile v.look earlier = .ok findings) ∧
        r.lintFile v.look file = .error failure ∧
        ((∃ cause, failure = .unreadable ⟨file, cause⟩ ∧
            (v.look file).bind Entry.text = .error cause) ∨
          (failure = .overclosed file ∧ IsOverclosed v.look file))) ∧
    ∀ qs, r.run v.look (ps ++ qs) = (r.run v.look ps).bind fun findings =>
      (r.run v.look qs).map (findings ++ ·) := by
  intro files
  have hrun : ∀ qs, r.run v.look qs = r.lintAll v.look (qs.flatMap (Path.targets v.look)) :=
    fun _ => rfl
  have hidem : files.flatMap (Path.targets v.look) = files := Path.flatMap_targets_idem htrees
  refine ⟨⟨hidem, ?_⟩, ?_, ?_, ?_, ?_⟩
  · rw [hrun, hrun, hidem]
  · rw [hrun]
    exact Linter.exists_lintAll_iff
  · intro findings hfindings
    rw [hrun] at hfindings
    obtain ⟨parts, hflatten, hparts⟩ := Linter.lintAll_eq_ok_iff.1 hfindings
    refine ⟨parts, hflatten, hparts.imp ?_⟩
    intro file part hpart
    exact ⟨hpart, Linter.lintFile_eq_ok_iff.1 hpart⟩
  · intro failure hfailure
    rw [hrun] at hfailure
    obtain ⟨before, file, after, heq, hbefore, herror⟩ :=
      Linter.exists_first_of_lintAll_eq_error hfailure
    exact ⟨before, file, after, heq, hbefore, herror, Linter.lintFile_eq_error herror⟩
  · intro qs
    rw [hrun, hrun, hrun, List.flatMap_append, Linter.lintAll_append]

theorem isTree_tangledVolume : tangledVolume.root.IsTree := by
  unfold tangledVolume
  rw [Entry.isTree_cons_iff, Entry.isTree_cons_iff]
  exact ⟨by decide, .link _, by decide, isTree_tangled, Entry.isTree_nil⟩

theorem targets_tangledVolume :
    (["l/", "views/round/../views/a.pt"].map Path.ofString).flatMap (Path.targets tangledVolume.look)
      = ["l/a/x.pt", "l/a.pt", "views/round/../views/a.pt"].map Path.ofString := by
  have hdirectory : (Path.ofString "l/").targets tangledVolume.look
      = [.ofString "l/a/x.pt", .ofString "l/a.pt"] := by
    have hlook : tangledVolume.look (.ofString "l/") = .ok (.directory tangled) := rfl
    rw [Path.targets_of_directory hlook, templates_tangled]
    decide
  have hfile : (Path.ofString "views/round/../views/a.pt").targets tangledVolume.look
      = [.ofString "views/round/../views/a.pt"] := by
    decide +kernel
  rw [List.map_cons, List.flatMap_cons, hdirectory, List.map_singleton, List.flatMap_singleton, hfile]
  simp

/-- Through a link, dots and a missing file: the arguments are expanded once, and the
file that cannot be read ends the run, which has findings without it. -/
theorem run_file_by_file_tangled :
    let ps := ["l/", "views/round/../views/a.pt"].map Path.ofString
    (∀ p ∈ ps, ∀ e, tangledVolume.look p = .ok e → e.IsTree) ∧
    (∃ findings, ({} : Linter).run tangledVolume.look ps = .ok findings ∧ findings.map (·.rule)
      = ["syntax-error", "missing-image-description", "missing-image-description"]) ∧
    ({} : Linter).run tangledVolume.look (ps ++ [.ofString "gone.pt"])
      = .error (.unreadable ⟨.ofString "gone.pt", .notFound⟩) := by
  intro ps
  have htrees : ∀ p ∈ ps, ∀ e, tangledVolume.look p = .ok e → e.IsTree := by
    intro p _ e he
    exact Volume.isTree_of_look isTree_tangledVolume he
  obtain ⟨⟨-, hrun⟩, -, -, -, happend⟩ := run_file_by_file tangledVolume {} ps htrees
  -- the files are expanded already, so that a run over them can be computed
  rw [targets_tangledVolume] at hrun
  have hrules : (({} : Linter).run tangledVolume.look
      (["l/a/x.pt", "l/a.pt", "views/round/../views/a.pt"].map Path.ofString)).toOption.map
        (·.map (·.rule))
      = some ["syntax-error", "missing-image-description", "missing-image-description"] := by
    decide +kernel
  have hgone : ({} : Linter).run tangledVolume.look [.ofString "gone.pt"]
      = .error (.unreadable ⟨.ofString "gone.pt", .notFound⟩) := by
    decide +kernel
  obtain ⟨findings, hfindings, hlist⟩ := Option.map_eq_some_iff.1 hrules
  have hresult : ({} : Linter).run tangledVolume.look ps = .ok findings :=
    hrun.symm.trans (Command.eq_ok_of_toOption hfindings)
  refine ⟨htrees, ⟨findings, hresult, hlist⟩, ?_⟩
  rw [happend, hresult, hgone]
  rfl

/-- An overclosed file can be read, and still a run over it has neither findings nor
a file that cannot be read. -/
theorem overclosed_file_without_outcome :
    let v := Command.oneFile "t.pt" "<!DOCTYPE r [<!ENTITY e '<b></b></r>'>]><r>&e;</r>"
    Lookup.HasText v.look (.ofString "t.pt") "<!DOCTYPE r [<!ENTITY e '<b></b></r>'>]><r>&e;</r>" ∧
    (¬ ∃ findings, ({} : Linter).run v.look [.ofString "t.pt"] = .ok findings) ∧
    ¬ ∃ error, ({} : Linter).run v.look [.ofString "t.pt"] = .error (.unreadable error) := by
  intro v
  have htext : (v.look (.ofString "t.pt")).bind Entry.text
      = .ok "<!DOCTYPE r [<!ENTITY e '<b></b></r>'>]><r>&e;</r>" := by
    decide +kernel
  have hrun : ({} : Linter).run v.look [.ofString "t.pt"]
      = .error (.overclosed (.ofString "t.pt")) := by
    decide +kernel
  refine ⟨text_eq_ok_iff.1 htext, ?_, ?_⟩
  · intro h
    obtain ⟨findings, hfindings⟩ := h
    rw [hrun] at hfindings
    cases hfindings
  · intro h
    obtain ⟨error, herror⟩ := h
    rw [hrun] at herror
    cases herror

end TemplateLint
