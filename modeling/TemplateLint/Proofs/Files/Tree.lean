/-
  TemplateLint.Proofs.Files.Tree — trees of files, and paths down into them.

  An entry is a tree if every directory in it holds each name once, and only
  names that a path can spell.  Main facts:

    • `find?_eq_some_iff`, `at?_append`, `IsTree.of_at?` — what names lead to,
    • `steps_foldl_join` — the steps of a path that was joined with names,
    • `foldl_join_injective` — other names make another path.
-/
import Mathlib.Data.List.Nodup
import TemplateLint.Files.Volume

namespace TemplateLint

/-! ## §1. Trees -/

/-- A name that a step of a path can spell: it is not empty, neither stays nor goes
up, and holds no slash. -/
structure Name.IsPlain (name : Name) : Prop where
  ne_nil : name ≠ []
  ne_dot : name ≠ [dot]
  ne_dots : name ≠ [dot, dot]
  slash_notMem : slash ∉ name

instance (name : Name) : Decidable name.IsPlain :=
  decidable_of_iff (name ≠ [] ∧ name ≠ [dot] ∧ name ≠ [dot, dot] ∧ slash ∉ name)
    ⟨fun h => ⟨h.1, h.2.1, h.2.2.1, h.2.2.2⟩,
      fun h => ⟨h.ne_nil, h.ne_dot, h.ne_dots, h.slash_notMem⟩⟩

namespace Entry

/-- Every directory holds each name once, and plain names only. -/
inductive IsTree : Entry → Prop
  | file (content : List UInt8) : IsTree (file content)
  | link (target : Path) : IsTree (link target)
  | directory {entries : List (Name × Entry)} (distinct : (entries.map Prod.fst).Nodup)
      (plain : ∀ entry ∈ entries, entry.1.IsPlain) (inner : ∀ entry ∈ entries, entry.2.IsTree) :
      IsTree (directory entries)

variable {e inner : Entry} {entries : List (Name × Entry)} {name : Name} {names : List Name}

theorem isTree_nil : (directory []).IsTree :=
  .directory List.nodup_nil (by simp) (by simp)

theorem isTree_cons_iff : (directory ((name, e) :: entries)).IsTree ↔
    (name.IsPlain ∧ name ∉ entries.map Prod.fst) ∧ e.IsTree ∧ (directory entries).IsTree := by
  constructor
  · intro h
    cases h with
    | directory distinct plain inner =>
      rw [List.map_cons, List.nodup_cons] at distinct
      rw [List.forall_mem_cons] at plain inner
      exact ⟨⟨plain.1, distinct.1⟩, inner.1, .directory distinct.2 plain.2 inner.2⟩
  · intro h
    obtain ⟨⟨hname, hnew⟩, he, hrest⟩ := h
    cases hrest with
    | directory distinct plain inner =>
      exact .directory (List.nodup_cons.2 ⟨hnew, distinct⟩) (List.forall_mem_cons.2 ⟨hname, plain⟩)
        (List.forall_mem_cons.2 ⟨he, inner⟩)

theorem find?_eq_some_iff (h : (entries.map Prod.fst).Nodup) :
    find? name entries = some e ↔ (name, e) ∈ entries := by
  unfold find?
  rw [Option.map_eq_some_iff]
  constructor
  · intro hfind
    obtain ⟨entry, hentry, heq⟩ := hfind
    have hname : entry.1 = name := by simpa using List.find?_some hentry
    rw [← hname, ← heq]
    exact List.mem_of_find?_eq_some hentry
  · intro hmem
    have hsome : (entries.find? (·.1 = name)).isSome = true :=
      List.find?_isSome.2 ⟨(name, e), hmem, decide_eq_true rfl⟩
    obtain ⟨entry, hentry⟩ := Option.isSome_iff_exists.1 hsome
    -- what is found has the name, and nothing else has it
    have hname : entry.1 = name := by simpa using List.find?_some hentry
    have heq : entry = (name, e) :=
      List.inj_on_of_nodup_map h (List.mem_of_find?_eq_some hentry) hmem hname
    exact ⟨entry, hentry, by rw [heq]⟩

@[simp] theorem at?_nil (e : Entry) : e.at? [] = some e := by
  cases e <;> rfl

@[simp] theorem at?_directory (entries : List (Name × Entry)) (name : Name) (names : List Name) :
    (directory entries).at? (name :: names) = (find? name entries).bind (·.at? names) := rfl

theorem at?_cons_eq_some (h : e.at? (name :: names) = some inner) :
    ∃ entries next, e = directory entries ∧ find? name entries = some next ∧
      next.at? names = some inner := by
  cases e with
  | file content => cases h
  | link target => cases h
  | directory entries =>
    rw [at?_directory, Option.bind_eq_some_iff] at h
    obtain ⟨next, hnext, hinner⟩ := h
    exact ⟨entries, next, rfl, hnext, hinner⟩

theorem at?_append (e : Entry) (front back : List Name) :
    e.at? (front ++ back) = (e.at? front).bind (·.at? back) := by
  induction front generalizing e with
  | nil => simp
  | cons name front ih =>
    cases e with
    | file content => rfl
    | link target => rfl
    | directory entries =>
      rw [List.cons_append, at?_directory, at?_directory]
      cases find? name entries with
      | none => rfl
      | some next => exact ih next

/-- What stands in a tree is a tree, and the names that lead to it are plain. -/
theorem IsTree.of_at? (h : e.IsTree) (hat : e.at? names = some inner) :
    inner.IsTree ∧ ∀ name ∈ names, name.IsPlain := by
  induction names generalizing e with
  | nil =>
    rw [at?_nil, Option.some.injEq] at hat
    rw [← hat]
    exact ⟨h, by simp⟩
  | cons name names ih =>
    obtain ⟨entries, next, heq, hfind, hnext⟩ := at?_cons_eq_some hat
    rw [heq] at h
    cases h with
    | directory distinct plain trees =>
      -- the first name is one of the directory, and the others lead on in what it holds
      have hmem : (name, next) ∈ entries := (find?_eq_some_iff distinct).1 hfind
      obtain ⟨htree, hplain⟩ := ih (trees _ hmem) hnext
      exact ⟨htree, List.forall_mem_cons.2 ⟨plain _ hmem, hplain⟩⟩

end Entry

/-! ## §2. Joined paths -/

namespace Path

variable {p : Path} {name : Name} {names : List Name}

theorem split_eq_splitOn (bytes : List UInt8) : split bytes = bytes.splitOn slash := by
  induction bytes with
  | nil => rfl
  | cons b bytes ih =>
    rw [split, ih, List.splitOn_cons_eq_if_modifyHead]
    by_cases hb : b = slash
    · simp [hb]
    · -- the byte goes in front of the first piece, and there always is one
      simp only [hb, if_false, beq_iff_eq]
      cases h : bytes.splitOn slash with
      | nil => exact absurd h (List.splitOn_ne_nil slash bytes)
      | cons first rest => rfl

theorem split_append_slash (front back : List UInt8) :
    split (front ++ slash :: back) = split front ++ split back := by
  rw [split_eq_splitOn, split_eq_splitOn, split_eq_splitOn]
  exact List.splitOn_append_cons_self front back

theorem split_of_slash_notMem (h : slash ∉ name) : split name = [name] := by
  rw [split_eq_splitOn]
  exact List.splitOn_eq_singleton h

/-- The steps of a path in front of a name that is joined to it: without the empty
one behind a slash at the end. -/
def base (p : Path) : List Name :=
  if p.bytes.getLast? = some slash then p.steps.dropLast else p.steps

theorem steps_of_getLast? (h : p.bytes.getLast? = some slash) : p.steps = p.base ++ [[]] := by
  obtain ⟨front, hfront⟩ := List.getLast?_eq_some_iff.1 h
  have hsteps : p.steps = split front ++ [[]] := by
    rw [steps, hfront, split_append_slash]
    rfl
  rw [base, if_pos h, hsteps, List.dropLast_concat]

theorem steps_join (hp : p.bytes ≠ []) (hname : slash ∉ name) :
    (p.join name).steps = p.base ++ [name] := by
  by_cases hlast : p.bytes.getLast? = some slash
  · -- the slash is there: the name takes the place of the empty step
    obtain ⟨front, hfront⟩ := List.getLast?_eq_some_iff.1 hlast
    have hjoin : p.join name = ⟨front ++ slash :: name⟩ := by
      simp [join, hfront]
    rw [hjoin, base, if_pos hlast, steps, steps, hfront, split_append_slash, split_append_slash,
      split_of_slash_notMem hname]
    show _ = (split front ++ [[]]).dropLast ++ [name]
    rw [List.dropLast_concat]
  · have hjoin : p.join name = ⟨p.bytes ++ slash :: name⟩ := by
      simp [join, hp, hlast]
    rw [hjoin, base, if_neg hlast, steps, split_append_slash, split_of_slash_notMem hname]
    rfl

theorem bytes_join (p : Path) (name : Name) : ∃ ending, (p.join name).bytes = p.bytes ++ ending := by
  unfold join
  split
  · exact ⟨name, rfl⟩
  · exact ⟨slash :: name, rfl⟩

/-- A path that a plain name was joined to does not end with a slash. -/
theorem base_join (hplain : name.IsPlain) : (p.join name).base = (p.join name).steps := by
  have hlast : (p.join name).bytes.getLast? = name.getLast? := by
    unfold join
    have hname := List.getLast?_eq_some_getLast hplain.ne_nil
    split <;> simp [List.getLast?_append, List.getLast?_cons, hname]
  unfold base
  rw [if_neg]
  intro hslash
  rw [hlast] at hslash
  exact hplain.slash_notMem (List.mem_of_getLast? hslash)

/-- **The steps of a joined path.**  The names follow the steps of the path. -/
theorem steps_foldl_join (hp : p.bytes ≠ []) (hne : names ≠ [])
    (hplain : ∀ name ∈ names, name.IsPlain) :
    (names.foldl join p).steps = p.base ++ names := by
  induction names generalizing p with
  | nil => exact absurd rfl hne
  | cons name names ih =>
    rw [List.forall_mem_cons] at hplain
    have hfirst : (p.join name).steps = p.base ++ [name] := steps_join hp hplain.1.slash_notMem
    rw [List.foldl_cons]
    cases names with
    | nil => exact hfirst
    | cons second rest =>
      -- behind a plain name the path ends without a slash, so that all its steps stay
      have hbytes : (p.join name).bytes ≠ [] := by
        obtain ⟨ending, hending⟩ := bytes_join p name
        rw [hending]
        simp [hp]
      rw [ih hbytes (by simp) hplain.2, base_join hplain.1, hfirst]
      simp

theorem bytes_foldl_join (p : Path) (names : List Name) :
    ∃ ending, (names.foldl join p).bytes = p.bytes ++ ending := by
  induction names generalizing p with
  | nil => exact ⟨[], by simp⟩
  | cons name names ih =>
    obtain ⟨first, hfirst⟩ := bytes_join p name
    obtain ⟨rest, hrest⟩ := ih (p.join name)
    exact ⟨first ++ rest, by rw [List.foldl_cons, hrest, hfirst, List.append_assoc]⟩

/-- Other names make another path. -/
theorem foldl_join_injective {names' : List Name} (hp : p.bytes ≠ []) (hne : names ≠ [])
    (hne' : names' ≠ []) (hplain : ∀ name ∈ names, name.IsPlain)
    (hplain' : ∀ name ∈ names', name.IsPlain)
    (h : names.foldl join p = names'.foldl join p) : names = names' := by
  have hsteps : p.base ++ names = p.base ++ names' := by
    rw [← steps_foldl_join hp hne hplain, ← steps_foldl_join hp hne' hplain', h]
  exact List.append_cancel_left hsteps

end Path

/-! ## §3. What a path leads to -/

namespace Volume

variable {v : Volume} {p : Path} {place : List Name} {e : Entry}

theorem locate_eq_ok_iff {ending : Ending} : v.locate ending p = .ok place ↔
    (0 ∉ p.bytes ∧ p.bytes ≠ [] ∧ p.bytes.length ≤ maxPath) ∧
      walk v.root ending maxLinks (v.start p) p.steps = .ok place := by
  unfold locate start
  by_cases hzero : p.bytes.contains 0 = true
  · have hmem : 0 ∈ p.bytes := List.contains_iff_mem.1 hzero
    simp [hmem]
  · have hmem : 0 ∉ p.bytes := fun h => hzero (List.contains_iff_mem.2 h)
    by_cases hempty : p.bytes = []
    · simp [hempty]
    · by_cases hlong : p.bytes.length ≤ maxPath
      · simp [hmem, hempty, hlong, Nat.not_lt.2 hlong]
      · simp [hmem, hempty, hlong, Nat.not_le.1 hlong]

theorem look_eq_ok_iff : v.look p = .ok e ↔
    ∃ place, v.locate .follow p = .ok place ∧ v.root.at? place = some e := by
  unfold look
  cases v.locate .follow p with
  | error cause => simp [bind, Except.bind]
  | ok place =>
    cases hat : v.root.at? place with
    | none => simp [bind, Except.bind, hat]
    | some inner => simp [bind, Except.bind, hat, pure, Except.pure]

theorem bytes_ne_nil_of_look (h : v.look p = .ok e) : p.bytes ≠ [] := by
  obtain ⟨place, hplace, -⟩ := look_eq_ok_iff.1 h
  exact (locate_eq_ok_iff.1 hplace).1.2.1

/-- In a volume whose root is a tree, every path leads to a tree or nowhere. -/
theorem isTree_of_look (hroot : v.root.IsTree) (h : v.look p = .ok e) : e.IsTree := by
  obtain ⟨place, -, hat⟩ := look_eq_ok_iff.1 h
  exact (hroot.of_at? hat).1

end Volume

end TemplateLint
