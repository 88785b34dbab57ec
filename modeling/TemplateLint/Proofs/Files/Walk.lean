/-
  TemplateLint.Proofs.Files.Walk — following a path that was joined with names.

  `move` says what one step of a walk does, whatever follows it: it stops, goes to
  a place, or jumps along a link.  From it:

    • `walk_append` — a walk goes on from where its first steps led,
    • `walk_skip` — an empty step in front of another one changes nothing,
    • `look_foldl_join` — a path joined with the names of a file in the tree leads
      to that file if it leads anywhere, through whatever links the path takes.
-/
import TemplateLint.Proofs.Files.Tree

namespace TemplateLint.Volume

/-! ## §1. One step -/

/-- What one step does. -/
inductive Move where
  /-- The walk ends here. -/
  | stop (error : FileError)
  /-- It goes on from a place. -/
  | go (place : List Name)
  /-- A link is followed: its steps come first. -/
  | jump (place steps : List Name)

/-- The move of a step from a place, where links are followed. -/
def move (root : Entry) (place : List Name) (step : Name) : Move :=
  match root.at? place with
  | some (.directory entries) =>
    if step = [] ∨ step = [dot] then .go place
    else if step = [dot, dot] then .go place.dropLast
    else if step.length > maxName then .stop .nameTooLong
    else
      match Entry.find? step entries with
      | none => .stop .notFound
      | some (.link target) => .jump (if target.isAbsolute then [] else place) target.steps
      | some _ => .go (place ++ [step])
  | some _ => .stop .notDirectory
  | none => .stop .notFound

/-- How a walk goes on after a move, with the steps that are left. -/
def Move.run (onward follow : List Name → List Name → Except FileError (List Name))
    (steps : List Name) : Move → Except FileError (List Name)
  | stop error => .error error
  | go place => onward place steps
  | jump place first => follow place (first ++ steps)

variable {root e : Entry} {place place' steps more names : List Name} {step name : Name}
  {follow : List Name → List Name → Except FileError (List Name)}

theorem walkSteps_cons : walkSteps root .follow follow place (step :: steps)
    = (move root place step).run (walkSteps root .follow follow) follow steps := by
  rw [walkSteps]
  unfold move
  cases root.at? place with
  | none => rfl
  | some here =>
    cases here with
    | file content => rfl
    | link target => rfl
    | directory entries =>
      simp only
      by_cases hstay : step = [] ∨ step = [dot]
      · rw [if_pos hstay, if_pos hstay]
        rfl
      rw [if_neg hstay, if_neg hstay]
      by_cases hup : step = [dot, dot]
      · rw [if_pos hup, if_pos hup]
        rfl
      rw [if_neg hup, if_neg hup]
      by_cases hlong : step.length > maxName
      · rw [if_pos hlong, if_pos hlong]
        rfl
      rw [if_neg hlong, if_neg hlong]
      cases Entry.find? step entries with
      | none => simp [Move.run]
      | some next => cases next <;> simp [Move.run]

/-! ## §2. Many steps -/

/-- A walk that came to a place goes on from there.  How many links it may still
follow depends on those behind it, so that `next` stays open. -/
theorem walkSteps_append
    (hfollow : ∀ place steps place', follow place steps = .ok place' →
      ∃ next, follow place (steps ++ more) = walkSteps root .follow next place' more)
    (h : walkSteps root .follow follow place steps = .ok place') :
    ∃ next, walkSteps root .follow follow place (steps ++ more)
      = walkSteps root .follow next place' more := by
  -- along the steps: a move depends on none of the steps behind it
  induction steps generalizing place with
  | nil =>
    rw [walkSteps, Except.ok.injEq] at h
    rw [List.nil_append, h]
    exact ⟨follow, rfl⟩
  | cons step steps ih =>
    rw [List.cons_append, walkSteps_cons]
    rw [walkSteps_cons] at h
    cases hmove : move root place step with
    | stop error =>
      rw [hmove] at h
      cases h
    | go onward =>
      rw [hmove] at h
      exact ih h
    | jump onward first =>
      rw [hmove] at h
      obtain ⟨next, hnext⟩ := hfollow onward (first ++ steps) place' h
      rw [List.append_assoc] at hnext
      exact ⟨next, hnext⟩

theorem walk_append {links : Nat} (h : walk root .follow links place steps = .ok place') :
    ∃ next, walk root .follow links place (steps ++ more)
      = walkSteps root .follow next place' more := by
  -- on the number of links that may still be followed: with none left no jump succeeds
  induction links generalizing place steps place' with
  | zero =>
    apply walkSteps_append _ h
    intro _ _ _ hfollow
    cases hfollow
  | succ links ih =>
    apply walkSteps_append _ h
    intro _ _ _ hfollow
    exact ih hfollow

/-- An empty step stays where it is, or fails as every other step would. -/
theorem move_nil (root : Entry) (place : List Name) :
    move root place [] = .go place ∨
      ∃ error, ∀ step, move root place step = .stop error := by
  unfold move
  cases root.at? place with
  | none => exact .inr ⟨.notFound, fun _ => rfl⟩
  | some here =>
    cases here with
    | file content => exact .inr ⟨.notDirectory, fun _ => rfl⟩
    | link target => exact .inr ⟨.notDirectory, fun _ => rfl⟩
    | directory entries => exact .inl (by simp)

theorem walkSteps_skip {front : List Name}
    (hfollow : ∀ place front, follow place (front ++ [] :: name :: more)
      = follow place (front ++ name :: more)) :
    walkSteps root .follow follow place (front ++ [] :: name :: more)
      = walkSteps root .follow follow place (front ++ name :: more) := by
  induction front generalizing place with
  | nil =>
    rw [List.nil_append, List.nil_append, walkSteps_cons]
    rcases move_nil root place with hstay | hstop
    · rw [hstay]
      rfl
    · obtain ⟨error, herror⟩ := hstop
      rw [walkSteps_cons, herror, herror]
      rfl
  | cons step front ih =>
    rw [List.cons_append, List.cons_append, walkSteps_cons, walkSteps_cons]
    cases move root place step with
    | stop error => rfl
    | go onward => exact ih
    | jump onward first =>
      -- the empty step stays where it is in what the link brings along
      show follow onward (first ++ (front ++ _)) = follow onward (first ++ (front ++ _))
      rw [← List.append_assoc, ← List.append_assoc, hfollow]

theorem walk_skip {links : Nat} {front : List Name} :
    walk root .follow links place (front ++ [] :: name :: more)
      = walk root .follow links place (front ++ name :: more) := by
  induction links generalizing place front with
  | zero => exact walkSteps_skip fun _ _ => rfl
  | succ links ih => exact walkSteps_skip fun _ _ => ih

/-! ## §3. Down to a file -/

/-- The names of a file lead down to it without a link, unless one is too long. -/
theorem walkSteps_of_file {content : List UInt8} (hhere : root.at? place = some e)
    (hfile : e.at? names = some (.file content)) (hplain : ∀ name ∈ names, name.IsPlain) :
    walkSteps root .follow follow place names = .ok (place ++ names) ∨
      walkSteps root .follow follow place names = .error .nameTooLong := by
  induction names generalizing place e with
  | nil =>
    left
    rw [walkSteps, List.append_nil]
  | cons name names ih =>
    obtain ⟨entries, next, heq, hfind, hnext⟩ := Entry.at?_cons_eq_some hfile
    rw [List.forall_mem_cons] at hplain
    obtain ⟨hname, hplain⟩ := hplain
    rw [heq] at hhere
    have hthere : root.at? (place ++ [name]) = some next := by
      rw [Entry.at?_append, hhere]
      simp [hfind]
    rw [walkSteps_cons]
    by_cases hlong : name.length > maxName
    · right
      simp [move, hhere, hname.ne_nil, hname.ne_dot, hname.ne_dots, hlong, Move.run]
    · -- what is there is no link, since the names that are left lead on to a file
      have hmove : move root place name = .go (place ++ [name]) := by
        simp only [move, hhere, hname.ne_nil, hname.ne_dot, hname.ne_dots, hlong, hfind, or_self,
          if_false]
        cases next with
        | file inner => rfl
        | directory inner => rfl
        | link target =>
          exfalso
          cases names with
          | nil => cases hnext
          | cons second rest => cases hnext
      rw [hmove]
      have hrest := ih hthere hnext hplain
      rw [List.append_assoc] at hrest
      exact hrest

theorem start_foldl_join {v : Volume} {p : Path} (hp : p.bytes ≠ []) (names : List Name) :
    v.start (names.foldl Path.join p) = v.start p := by
  obtain ⟨ending, hending⟩ := Path.bytes_foldl_join p names
  have hhead : (names.foldl Path.join p).bytes.head? = p.bytes.head? := by
    rw [hending, List.head?_append, List.head?_eq_some_head hp]
    rfl
  unfold start Path.isAbsolute
  rw [hhead]

/-- The walk along a joined path is the walk along the path and then the names. -/
theorem walk_foldl_join {links : Nat} {p : Path} (hp : p.bytes ≠ []) (hne : names ≠ [])
    (hplain : ∀ name ∈ names, name.IsPlain) :
    walk root .follow links place (names.foldl Path.join p).steps
      = walk root .follow links place (p.steps ++ names) := by
  rw [Path.steps_foldl_join hp hne hplain]
  by_cases hlast : p.bytes.getLast? = some slash
  · cases names with
    | nil => exact absurd rfl hne
    | cons name names =>
      rw [Path.steps_of_getLast? hlast, List.append_assoc]
      exact walk_skip.symm
  · rw [Path.base, if_neg hlast]

/-- **A found path.**  Let a path lead to a tree and names lead on to a file in it.
The path joined with the names leads to this file and to nothing else. -/
theorem look_foldl_join {v : Volume} {p : Path} {content : List UInt8} (hlook : v.look p = .ok e)
    (htree : e.IsTree) (hne : names ≠ []) (hfile : e.at? names = some (.file content))
    {inner : Entry} (hinner : v.look (names.foldl Path.join p) = .ok inner) :
    inner = .file content := by
  have hplain : ∀ name ∈ names, name.IsPlain := (htree.of_at? hfile).2
  have hp : p.bytes ≠ [] := bytes_ne_nil_of_look hlook
  obtain ⟨place, hplace, hhere⟩ := look_eq_ok_iff.1 hlook
  obtain ⟨place', hplace', hthere⟩ := look_eq_ok_iff.1 hinner
  have hwalk := (locate_eq_ok_iff.1 hplace).2
  have hwalk' := (locate_eq_ok_iff.1 hplace').2
  rw [start_foldl_join hp, walk_foldl_join hp hne hplain] at hwalk'
  -- the path leads to the tree as before, and the names lead on from there
  obtain ⟨next, hnext⟩ : ∃ next, walk v.root .follow maxLinks (v.start p) (p.steps ++ names)
      = walkSteps v.root .follow next place names := walk_append hwalk
  rw [hnext] at hwalk'
  rcases walkSteps_of_file hhere hfile hplain with hdown | hlong
  · rw [hdown, Except.ok.injEq] at hwalk'
    rw [← hwalk', Entry.at?_append, hhere, Option.bind_some, hfile, Option.some.injEq] at hthere
    exact hthere.symm
  · rw [hlong] at hwalk'
    cases hwalk'

end TemplateLint.Volume
