/-
  TemplateLint.Proofs.Files.Templates — what a search below a directory finds.

  `IsTemplateAt` says which files below a directory are templates, through the
  names that lead to them.  Main results:

    • `mem_templates`, `sorted_templates` — a search finds exactly these, each
      once and in the order of the names, byte by byte,
    • `expansion_of_directory` — so do the paths that a directory stands for,
      whatever the order of the entries.

  Links are entries like others here: they are not followed, so that a search
  ends where the tree ends.
-/
import Mathlib.Data.List.Nodup
import TemplateLint.Linter
import TemplateLint.Proofs.Files.Tree
import TemplateLint.Proofs.Text.Utf8

namespace TemplateLint

/-! ## §1. Names of templates and of directories that are left out -/

namespace Name

/-- The name is something, a dot and the ending, in which there is no other dot. -/
def HasEnding (name : Name) (ending : List UInt8) : Prop :=
  ∃ stem, stem ≠ [] ∧ dot ∉ ending ∧ name = stem ++ dot :: ending

/-- The name is UTF-8 and one of those that are left out, or begins with a dot. -/
def IsLeftOut (name : Name) : Prop :=
  ∃ text, name = Utf8.encode text ∧
    (text ∈ skippedDirectories ∨ ∃ rest, text.toList = '.' :: rest)

variable {name : Name} {ending : List UInt8}

theorem extension?_of_hasEnding (h : HasEnding name ending) : extension? name = some ending := by
  obtain ⟨stem, hstem, hdot, hname⟩ := h
  have hrun : ∀ b ∈ ending.reverse, (b != dot) = true := by
    intro b hb
    rw [bne_iff_ne]
    intro hbdot
    rw [hbdot] at hb
    exact hdot (List.mem_reverse.1 hb)
  -- read from its end, the name is the ending up to the dot
  have hreverse : name.reverse = ending.reverse ++ dot :: stem.reverse := by
    rw [hname]
    simp
  have htake : name.reverse.takeWhile (· != dot) = ending.reverse := by
    rw [hreverse, List.takeWhile_append_of_pos hrun]
    simp
  have hlength : ending.reverse.length + 1 < name.length := by
    have hpos : 0 < stem.length := List.length_pos_iff.2 hstem
    rw [hname]
    simp
    omega
  simp only [extension?, htake]
  rw [if_pos hlength, List.reverse_reverse]

theorem hasEnding_of_extension? (h : extension? name = some ending) : HasEnding name ending := by
  simp only [extension?] at h
  have hsplit := List.takeWhile_append_dropWhile (p := (· != dot)) (l := name.reverse)
  have hrun := List.all_takeWhile (p := (· != dot)) (l := name.reverse)
  generalize name.reverse.takeWhile (· != dot) = run at h hsplit hrun
  by_cases hlength : run.length + 1 < name.length
  · rw [if_pos hlength, Option.some.injEq] at h
    have hcount : run.length + (name.reverse.dropWhile (· != dot)).length = name.length := by
      rw [← List.length_append, hsplit, List.length_reverse]
    cases hrest : name.reverse.dropWhile (· != dot) with
    | nil =>
      rw [hrest, List.length_nil] at hcount
      omega
    | cons b stem =>
      -- what stops the run of the ending is a dot
      have hb : b = dot := by
        have hhead := List.head_dropWhile_not (· != dot) (l := name.reverse) (by rw [hrest]; simp)
        simpa [hrest] using hhead
      refine ⟨stem.reverse, ?_, ?_, ?_⟩
      · intro hnil
        rw [hrest, List.reverse_eq_nil_iff.1 hnil, List.length_singleton] at hcount
        omega
      · intro hdot
        rw [← h, List.mem_reverse] at hdot
        have hne := List.all_eq_true.1 hrun dot hdot
        simp at hne
      · rw [← List.reverse_reverse name, ← hsplit, hrest, hb, ← h]
        simp
  · rw [if_neg hlength] at h
    cases h

theorem extension?_eq_some_iff : extension? name = some ending ↔ HasEnding name ending :=
  ⟨hasEnding_of_extension?, extension?_of_hasEnding⟩

theorem isTemplate_iff :
    isTemplate name = true ↔ ∃ ending ∈ templateEndings, HasEnding name ending := by
  unfold isTemplate
  rw [Option.any_eq_true]
  constructor
  · intro h
    obtain ⟨ending, hending, hmem⟩ := h
    exact ⟨ending, List.contains_iff_mem.1 hmem, extension?_eq_some_iff.1 hending⟩
  · intro h
    obtain ⟨ending, hmem, hending⟩ := h
    exact ⟨ending, extension?_eq_some_iff.2 hending, List.contains_iff_mem.2 hmem⟩

theorem isSkipped_iff : isSkipped name = true ↔ IsLeftOut name := by
  unfold isSkipped IsLeftOut
  rw [Option.any_eq_true]
  refine exists_congr fun text => ?_
  rw [Utf8.decode?_eq_some_iff, eq_comm (a := name), Bool.or_eq_true, List.contains_iff_mem,
    beq_iff_eq, List.head?_eq_some_iff]

end Name

/-! ## §2. The files that are found -/

namespace Entry

/-- The names lead to a regular file, through directories only. -/
def HoldsFile (e : Entry) (names : List Name) : Prop :=
  ∃ content, e.at? names = some (file content)

/-- The names lead to a template: a regular file with one of the four endings, and
no directory on the way is left out. -/
structure IsTemplateAt (e : Entry) (names : List Name) : Prop where
  holdsFile : e.HoldsFile names
  hasEnding : ∃ name ∈ names.getLast?, ∃ ending ∈ Name.templateEndings, name.HasEnding ending
  visible : ∀ name ∈ names.dropLast, ¬ name.IsLeftOut

variable {e : Entry} {entries : List (Name × Entry)} {name : Name} {names : List Name}

theorem HoldsFile.ne_nil (h : (directory entries).HoldsFile names) : names ≠ [] := by
  intro hnil
  obtain ⟨content, hcontent⟩ := h
  rw [hnil, at?_nil] at hcontent
  cases hcontent

theorem holdsFile_cons_iff (h : (entries.map Prod.fst).Nodup) :
    (directory entries).HoldsFile (name :: names) ↔
      ∃ inner, (name, inner) ∈ entries ∧ inner.HoldsFile names := by
  unfold HoldsFile
  simp only [at?_directory, Option.bind_eq_some_iff, find?_eq_some_iff h]
  constructor
  · intro hfile
    obtain ⟨content, inner, hinner, hcontent⟩ := hfile
    exact ⟨inner, hinner, content, hcontent⟩
  · intro hfile
    obtain ⟨inner, hinner, content, hcontent⟩ := hfile
    exact ⟨content, inner, hinner, hcontent⟩

theorem filesIn_eq_flatMap (entries : List (Name × Entry)) :
    filesIn entries = entries.flatMap fun entry => filesAs entry.1 entry.2 := by
  induction entries with
  | nil => rfl
  | cons entry entries ih => rw [filesIn, ih, List.flatMap_cons]

/-- The files that an entry is or holds, by its name and what it holds. -/
def FindsFiles (e : Entry) : Prop :=
  ∀ name names, names ∈ filesAs name e ↔
    ∃ rest, names = name :: rest ∧ e.HoldsFile rest ∧
      ∀ directory ∈ names.dropLast, ¬ Name.IsLeftOut directory

theorem mem_filesIn (hdistinct : (entries.map Prod.fst).Nodup)
    (hinner : ∀ entry ∈ entries, entry.2.FindsFiles) :
    names ∈ filesIn entries ↔ (directory entries).HoldsFile names ∧
      ∀ name ∈ names.dropLast, ¬ name.IsLeftOut := by
  rw [filesIn_eq_flatMap, List.mem_flatMap]
  constructor
  · intro h
    obtain ⟨⟨name, inner⟩, hmem, hnames⟩ := h
    -- names are distinct, so that the entry is the one that its name leads to
    obtain ⟨rest, heq, hfile, hvisible⟩ := (hinner _ hmem name names).1 hnames
    rw [heq] at hvisible ⊢
    exact ⟨(holdsFile_cons_iff hdistinct).2 ⟨inner, hmem, hfile⟩, hvisible⟩
  · intro h
    obtain ⟨hfile, hvisible⟩ := h
    cases names with
    | nil => exact absurd rfl hfile.ne_nil
    | cons name rest =>
      obtain ⟨inner, hmem, hrest⟩ := (holdsFile_cons_iff hdistinct).1 hfile
      exact ⟨(name, inner), hmem, (hinner _ hmem name _).2 ⟨rest, rfl, hrest, hvisible⟩⟩

/-- **One entry.**  The cases are those of a tree; a directory is the one that can be
left out. -/
theorem IsTree.findsFiles (h : e.IsTree) : e.FindsFiles := by
  induction h with
  | file content =>
    intro name names
    rw [filesAs, List.mem_singleton]
    constructor
    · intro heq
      rw [heq]
      exact ⟨[], rfl, ⟨content, rfl⟩, by simp⟩
    · intro h
      obtain ⟨rest, heq, ⟨inner, hinner⟩, -⟩ := h
      cases rest with
      | nil => exact heq
      | cons next rest => cases hinner
  | link target =>
    intro name names
    constructor
    · intro h
      cases h
    · intro h
      obtain ⟨rest, -, ⟨inner, hinner⟩, -⟩ := h
      cases rest with
      | nil => cases hinner
      | cons next rest => cases hinner
  | @directory entries distinct plain trees ih =>
    intro name names
    have hfilesIn : ∀ rest, rest ∈ filesIn entries ↔ (Entry.directory entries).HoldsFile rest ∧
        ∀ directory ∈ rest.dropLast, ¬ Name.IsLeftOut directory := by
      intro rest
      exact mem_filesIn distinct ih
    -- a file below the directory has the directory's name among those on its way
    have hvisible : ∀ rest, (Entry.directory entries).HoldsFile rest →
        ((∀ directory ∈ (name :: rest).dropLast, ¬ Name.IsLeftOut directory) ↔
          ¬ name.IsLeftOut ∧ ∀ directory ∈ rest.dropLast, ¬ Name.IsLeftOut directory) := by
      intro rest hfile
      rw [List.dropLast_cons_of_ne_nil hfile.ne_nil, List.forall_mem_cons]
    rw [filesAs]
    by_cases hskipped : name.isSkipped = true
    · rw [if_pos hskipped]
      constructor
      · intro h
        cases h
      · intro h
        obtain ⟨rest, heq, hfile, hall⟩ := h
        rw [heq] at hall
        exact absurd (Name.isSkipped_iff.1 hskipped) ((hvisible rest hfile).1 hall).1
    · rw [if_neg hskipped, List.mem_map]
      rw [Name.isSkipped_iff] at hskipped
      constructor
      · intro h
        obtain ⟨rest, hrest, heq⟩ := h
        obtain ⟨hfile, hall⟩ := (hfilesIn rest).1 hrest
        rw [← heq]
        exact ⟨rest, rfl, hfile, (hvisible rest hfile).2 ⟨hskipped, hall⟩⟩
      · intro h
        obtain ⟨rest, heq, hfile, hall⟩ := h
        rw [heq] at hall
        exact ⟨rest, (hfilesIn rest).2 ⟨hfile, ((hvisible rest hfile).1 hall).2⟩, heq.symm⟩

theorem head?_of_mem_filesAs (h : names ∈ filesAs name e) : names.head? = some name := by
  cases e with
  | file content =>
    rw [List.mem_singleton.1 h]
    rfl
  | link target => cases h
  | directory entries =>
    rw [filesAs] at h
    split at h
    · cases h
    · obtain ⟨rest, -, heq⟩ := List.mem_map.1 h
      rw [← heq]
      rfl

/-- Entries with different names share no file. -/
theorem nodup_filesIn (hdistinct : (entries.map Prod.fst).Nodup)
    (hinner : ∀ entry ∈ entries, (filesAs entry.1 entry.2).Nodup) : (filesIn entries).Nodup := by
  rw [filesIn_eq_flatMap, List.nodup_flatMap]
  refine ⟨hinner, ?_⟩
  apply (List.pairwise_map.1 hdistinct).imp
  -- a file begins with the name of the entry in which it was found
  intro first second hne names hfirst hsecond
  apply hne
  apply Option.some.inj
  rw [← head?_of_mem_filesAs hfirst, ← head?_of_mem_filesAs hsecond]

theorem IsTree.nodup_filesAs (h : e.IsTree) (name : Name) : (filesAs name e).Nodup := by
  induction h generalizing name with
  | file content => exact List.nodup_singleton _
  | link target => exact List.nodup_nil
  | directory distinct plain trees ih =>
    rw [filesAs]
    split
    · exact List.nodup_nil
    · apply List.Nodup.map (List.cons_injective)
      exact nodup_filesIn distinct fun entry hentry => ih entry hentry entry.1

/-! ## §3. The templates in their order -/

theorem mem_templates (h : (directory entries).IsTree) :
    names ∈ (directory entries).templates ↔ (directory entries).IsTemplateAt names := by
  cases h with
  | directory distinct plain trees =>
    unfold templates
    rw [List.mem_mergeSort, List.mem_filter, files,
      mem_filesIn distinct fun entry hentry => (trees entry hentry).findsFiles, Option.any_eq_true]
    simp only [Name.isTemplate_iff]
    constructor
    · intro hmem
      exact ⟨hmem.1.1, hmem.2, hmem.1.2⟩
    · intro htemplate
      exact ⟨⟨htemplate.holdsFile, htemplate.visible⟩, htemplate.hasEnding⟩

theorem nodup_templates (h : (directory entries).IsTree) :
    (directory entries).templates.Nodup := by
  cases h with
  | directory distinct plain trees =>
    have hfiles : (filesIn entries).Nodup :=
      nodup_filesIn distinct fun entry hentry => (trees entry hentry).nodup_filesAs entry.1
    exact (List.mergeSort_perm _ _).nodup_iff.2 (hfiles.filter _)

/-- **The order of a search.**  Names are compared one after the other, and two names
byte by byte. -/
theorem sorted_templates (h : (directory entries).IsTree) :
    (directory entries).templates.Pairwise (· < ·) := by
  have hle : (directory entries).templates.Pairwise (fun a b => decide (a ≤ b) = true) := by
    apply List.pairwise_mergeSort
    · intro a b c hab hbc
      exact decide_eq_true (List.le_trans (of_decide_eq_true hab) (of_decide_eq_true hbc))
    · intro a b
      simpa using List.le_total a b
  have hne : (directory entries).templates.Pairwise (· ≠ ·) := nodup_templates h
  apply (hle.and hne).imp
  intro a b hab
  by_cases hlt : a < b
  · exact hlt
  · -- then the two are equal, and no template is found twice
    exact absurd (List.le_antisymm (of_decide_eq_true hab.1) hlt) hab.2

/-- In strictly increasing order there is only one way to list the same names. -/
theorem eq_of_perm_of_sorted {xs ys : List (List Name)} (hperm : xs.Perm ys)
    (hxs : xs.Pairwise (· < ·)) (hys : ys.Pairwise (· < ·)) : xs = ys := by
  apply hperm.eq_of_pairwise _ hxs hys
  intro a b _ _ hab hba
  exact absurd hba (List.lt_asymm hab)

/-- Two trees with files at the same places have the same templates. -/
theorem templates_congr {entries' : List (Name × Entry)} (h : (directory entries).IsTree)
    (h' : (directory entries').IsTree)
    (hfiles : ∀ names, (directory entries').HoldsFile names ↔ (directory entries).HoldsFile names) :
    (directory entries').templates = (directory entries).templates := by
  have hmem : ∀ names, names ∈ (directory entries').templates ↔
      names ∈ (directory entries).templates := by
    intro names
    rw [mem_templates h, mem_templates h']
    constructor
    · intro htemplate
      exact ⟨(hfiles names).1 htemplate.holdsFile, htemplate.hasEnding, htemplate.visible⟩
    · intro htemplate
      exact ⟨(hfiles names).2 htemplate.holdsFile, htemplate.hasEnding, htemplate.visible⟩
  have hperm : (directory entries').templates.Perm (directory entries).templates :=
    (List.perm_ext_iff_of_nodup (nodup_templates h') (nodup_templates h)).2 hmem
  exact eq_of_perm_of_sorted hperm (sorted_templates h') (sorted_templates h)

end Entry

/-! ## §4. The paths that a directory stands for -/

theorem Path.targets_of_directory {look : Lookup} {d : Path} {entries : List (Name × Entry)}
    (h : look d = .ok (.directory entries)) :
    d.targets look = (Entry.directory entries).templates.map fun names => names.foldl join d := by
  simp only [targets, h]

/-- The paths that a directory stands for differ, since the names that lead to the
templates do. -/
theorem Path.nodup_targets {v : Volume} {d : Path} {entries : List (Name × Entry)}
    (hlook : v.look d = .ok (.directory entries)) (htree : (Entry.directory entries).IsTree) :
    (d.targets v.look).Nodup := by
  rw [targets_of_directory hlook]
  apply List.Nodup.map_on _ (Entry.nodup_templates htree)
  intro names hnames names' hnames' heq
  obtain ⟨content, hcontent⟩ := ((Entry.mem_templates htree).1 hnames).holdsFile
  obtain ⟨content', hcontent'⟩ := ((Entry.mem_templates htree).1 hnames').holdsFile
  exact foldl_join_injective (Volume.bytes_ne_nil_of_look hlook)
    (Entry.HoldsFile.ne_nil ⟨content, hcontent⟩) (Entry.HoldsFile.ne_nil ⟨content', hcontent'⟩)
    (htree.of_at? hcontent).2 (htree.of_at? hcontent').2 heq

/-- **A directory stands for its templates.**  Let a path lead to a directory, through
links or not, that is a tree.  It stands for the path joined with the names of every
template below the directory, and for no other path; the names come in strictly
increasing order, so that no path comes twice.  Another tree with files at the same
places gives the same paths, whatever the order in which its entries were made. -/
theorem expansion_of_directory (v : Volume) (d : Path) (entries : List (Name × Entry))
    (hlook : v.look d = .ok (.directory entries)) (htree : (Entry.directory entries).IsTree) :
    (∃ found : List (List Name),
      d.targets v.look = found.map (fun names => names.foldl Path.join d) ∧
      (∀ names, names ∈ found ↔ (Entry.directory entries).IsTemplateAt names) ∧
      found.Pairwise (· < ·)) ∧
    (d.targets v.look).Nodup ∧
    ∀ (v' : Volume) (entries' : List (Name × Entry)), v'.look d = .ok (.directory entries') →
      (Entry.directory entries').IsTree →
      (∀ names, (Entry.directory entries').HoldsFile names ↔
        (Entry.directory entries).HoldsFile names) →
      d.targets v'.look = d.targets v.look := by
  refine ⟨⟨(Entry.directory entries).templates, ?_, ?_, ?_⟩, ?_, ?_⟩
  · exact Path.targets_of_directory hlook
  · intro names
    exact Entry.mem_templates htree
  · exact Entry.sorted_templates htree
  · exact Path.nodup_targets hlook htree
  · intro v' entries' hlook' htree' hfiles
    rw [Path.targets_of_directory hlook, Path.targets_of_directory hlook',
      Entry.templates_congr htree htree' hfiles]

/-- The entries of a directory with a file, a directory before it in the order, a hidden
directory, a link that goes round and one that leads to itself. -/
def tangled : List (Name × Entry) :=
  [(Utf8.encode "a.pt", .file (Utf8.encode "<img/>")),
    (Utf8.encode "round", .link (.ofString ".")),
    (Utf8.encode "self.pt", .link (.ofString "self.pt")),
    (Utf8.encode ".h", .directory [(Utf8.encode "b.pt", .file [])]),
    (Utf8.encode "a", .directory [(Utf8.encode "x.pt", .file [])])]

/-- A volume in which a link leads to the tangled directory. -/
def tangledVolume : Volume where
  root := .directory [(Utf8.encode "l", .link (.ofString "views/round")),
    (Utf8.encode "views", .directory tangled)]
  home := []

theorem isTree_tangled : (Entry.directory tangled).IsTree := by
  unfold tangled
  repeat' rw [Entry.isTree_cons_iff]
  refine ⟨by decide, .file _, ?_⟩
  refine ⟨by decide, .link _, ?_⟩
  refine ⟨by decide, .link _, ?_⟩
  refine ⟨by decide, ⟨by decide, .file _, Entry.isTree_nil⟩, ?_⟩
  exact ⟨by decide, ⟨by decide, .file _, Entry.isTree_nil⟩, Entry.isTree_nil⟩

theorem templates_tangled : (Entry.directory tangled).templates
    = [["a", "x.pt"].map Utf8.encode, ["a.pt"].map Utf8.encode] := by
  have hperm : (Entry.directory tangled).templates.Perm
      [["a", "x.pt"].map Utf8.encode, ["a.pt"].map Utf8.encode] :=
    (List.mergeSort_perm _ _).trans (by decide)
  exact Entry.eq_of_perm_of_sorted hperm (Entry.sorted_templates isTree_tangled) (by decide)

/-- Through a link that goes round the two templates are found, and nothing is found
in the hidden directory or at the link that leads to itself. -/
theorem expansion_of_directory_tangled :
    tangledVolume.look (.ofString "l/") = .ok (.directory tangled) ∧
    (Entry.directory tangled).IsTree ∧
    ∃ found : List (List Name),
      (Path.ofString "l/").targets tangledVolume.look
        = found.map (fun names => names.foldl Path.join (.ofString "l/")) ∧
      found.Pairwise (· < ·) ∧
      ["a", "x.pt"].map Utf8.encode ∈ found ∧ ["a.pt"].map Utf8.encode ∈ found ∧
      [".h", "b.pt"].map Utf8.encode ∉ found ∧ ["self.pt"].map Utf8.encode ∉ found := by
  have hlook : tangledVolume.look (.ofString "l/") = .ok (.directory tangled) := rfl
  obtain ⟨⟨found, htargets, hfound, hsorted⟩, -⟩ :=
    expansion_of_directory tangledVolume _ _ hlook isTree_tangled
  refine ⟨hlook, isTree_tangled, found, htargets, hsorted, ?_, ?_, ?_, ?_⟩
  · apply (hfound _).2
    refine ⟨⟨[], rfl⟩, ⟨_, rfl, Utf8.encode "pt", by decide, Utf8.encode "x", by decide⟩, ?_⟩
    intro name hname
    rw [← Name.isSkipped_iff]
    rw [List.mem_singleton.1 hname]
    decide
  · apply (hfound _).2
    exact ⟨⟨Utf8.encode "<img/>", rfl⟩,
      ⟨_, rfl, Utf8.encode "pt", by decide, Utf8.encode "a", by decide⟩, by simp⟩
  · intro hmem
    apply ((hfound _).1 hmem).visible (Utf8.encode ".h") (by decide)
    exact ⟨".h", rfl, .inr ⟨['h'], rfl⟩⟩
  · intro hmem
    obtain ⟨content, hcontent⟩ := ((hfound _).1 hmem).holdsFile
    cases hcontent

end TemplateLint
