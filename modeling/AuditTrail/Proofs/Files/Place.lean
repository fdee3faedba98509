import AuditTrail.Files.Tree
import AuditTrail.Proofs.Failure
import Mathlib.Data.List.Infix
import Mathlib.Data.List.TakeWhile

/-!
# Where a path leads

A place in a directory tree is the list of the names that lead to it, the innermost first; the place without
its first name is the directory around it. What is at a place is read off the tree from the root down
(`FileTree.get?`). Following a path goes piece by piece instead, with the directories around the current
one at hand to go back to. The invariant of that walk is that they are the directories around the place the
walk has come to (`FileTree.Around`).

> A path that leads somewhere leads to its place (`Workspace.get?_place`), and what its parent is as a text
> has the same steps without the last one (`Path.steps_parent?`).

The steps of a path are its pieces that say something, the last one first, so that the paths above it have
the tails of its steps.
-/

namespace AuditTrail

/-! ## Places -/

namespace FileTree

/-- What is at a place. -/
def get? (root : FileTree) : (place : List String) → Option FileTree
  | [] => some root
  | name :: place =>
    match root.get? place with
    | some (.directory entries) => entries.lookup name
    | _ => none

/-- Whether there is a file at a place. -/
def isFileAt (root : FileTree) (place : List String) : Bool :=
  match root.get? place with
  | some (.file _) => true
  | _ => false

/-- There is a directory at a place. -/
def IsDirectoryAt (root : FileTree) (place : List String) : Prop :=
  ∃ entries, root.get? place = some (.directory entries)

/-- What is at a place, with the directories around it, the innermost first. -/
inductive Around (root : FileTree) : (place : List String) → FileTree → List FileTree → Prop
  | root : Around root [] root []
  | inside {place : List String} {entries : List (String × FileTree)} {around : List FileTree} {name : String}
      {t : FileTree} (outer : Around root place (.directory entries) around)
      (here : entries.lookup name = some t) : Around root (name :: place) t (.directory entries :: around)

theorem Around.get? {root t : FileTree} {place : List String} {around : List FileTree}
    (h : Around root place t around) : root.get? place = some t := by
  induction h with
  | root => rfl
  | inside _ here ih => rw [FileTree.get?, ih]; exact here

/-- Going up leads to the directory around. -/
theorem Around.up {root t parent : FileTree} {place : List String} {others : List FileTree}
    (h : Around root place t (parent :: others)) :
    Around root place.tail parent others ∧ ∃ entries, parent = .directory entries := by
  cases h with
  | inside outer _ => exact ⟨outer, _, rfl⟩

end FileTree

namespace Path

/-- The piece that leads up. -/
def up : List Char := ['.', '.']

/-- The pieces that say something, the last one first. -/
def stepsOf (pieces : List (List Char)) : List (List Char) :=
  (pieces.filter fun piece => !isIdle piece).reverse

/-- The steps of a path. -/
def steps (p : Path) : List (List Char) := stepsOf p.pieces

/-- The place that steps lead to from another one. -/
def placeFrom (base : List String) : (steps : List (List Char)) → List String
  | [] => base
  | piece :: outer => if piece = up then (placeFrom base outer).tail else String.ofList piece :: placeFrom base outer

variable {p q : Path} {piece : List Char} {pieces front back steps : List (List Char)} {base place : List String}

@[simp] theorem stepsOf_nil : stepsOf [] = [] := rfl

theorem stepsOf_append (front back : List (List Char)) :
    stepsOf (front ++ back) = stepsOf back ++ stepsOf front := by
  simp [stepsOf]

theorem stepsOf_idle (h : isIdle piece = true) : stepsOf [piece] = [] := by
  simp [stepsOf, h]

theorem stepsOf_telling (h : isIdle piece = false) : stepsOf [piece] = [piece] := by
  simp [stepsOf, h]

theorem stepsOf_eq_nil : stepsOf pieces = [] ↔ ∀ piece ∈ pieces, isIdle piece = true := by
  simp [stepsOf]

theorem placeFrom_append (inner outer : List (List Char)) :
    placeFrom base (inner ++ outer) = placeFrom (placeFrom base outer) inner := by
  induction inner with
  | nil => rfl
  | cons piece inner ih => rw [List.cons_append, placeFrom, ih, placeFrom]

theorem placeFrom_stepsOf_cons (piece : List Char) (rest : List (List Char)) :
    placeFrom base (stepsOf (piece :: rest)) = placeFrom (placeFrom base (stepsOf [piece])) (stepsOf rest) := by
  rw [← List.singleton_append, stepsOf_append, placeFrom_append]

/-- Steps that do not lead up only add names. -/
theorem placeFrom_eq_append (h : up ∉ steps) : placeFrom base steps = steps.map String.ofList ++ base := by
  induction steps with
  | nil => rfl
  | cons piece outer ih =>
    rw [List.mem_cons, not_or] at h
    rw [placeFrom, if_neg (Ne.symm h.1), ih h.2, List.map_cons, List.cons_append]

/-! ## Children and parents -/

/-- The text is a name: it says something and does not lead up. -/
def IsName (name : String) : Prop := isIdle name.toList = false ∧ name.toList ≠ up

/-- The path of something in a directory has its name as the last piece; an empty piece gives way to it. -/
theorem child_eq (p : Path) (name : String) :
    ∃ front, (p.pieces = front ∨ p.pieces = front ++ [[]]) ∧ p.child name = ⟨p.absolute, front ++ [name.toList]⟩ := by
  unfold child
  split
  case h_1 others hpieces =>
    refine ⟨others.reverse, .inr ?_, by rw [List.reverse_cons]⟩
    rw [← List.reverse_reverse p.pieces, hpieces, List.reverse_cons]
  case h_2 => exact ⟨p.pieces, .inl rfl, rfl⟩

theorem absolute_child (p : Path) (name : String) : (p.child name).absolute = p.absolute := by
  obtain ⟨front, -, hchild⟩ := child_eq p name
  rw [hchild]

theorem steps_child (p : Path) {name : String} (hname : IsName name) :
    (p.child name).steps = name.toList :: p.steps := by
  obtain ⟨front, hfront, hchild⟩ := child_eq p name
  have hsteps : p.steps = stepsOf front := by
    rcases hfront with hfront | hfront
    · rw [steps, hfront]
    · rw [steps, hfront, stepsOf_append, stepsOf_idle rfl, List.nil_append]
  rw [hsteps, hchild, steps, stepsOf_append, stepsOf_telling hname.1, List.singleton_append]

theorem exists_idle_end (pieces : List (List Char)) :
    ∃ idles, (∀ piece ∈ idles, isIdle piece = true) ∧ pieces = (pieces.reverse.dropWhile isIdle).reverse ++ idles := by
  refine ⟨(pieces.reverse.takeWhile isIdle).reverse, ?_, ?_⟩
  · intro piece hpiece
    exact List.mem_takeWhile_imp (List.mem_reverse.mp hpiece)
  · rw [← List.reverse_append, List.takeWhile_append_dropWhile, List.reverse_reverse]

theorem exists_trimmed (absolute : Bool) (pieces : List (List Char)) :
    ∃ idles, (∀ piece ∈ idles, isIdle piece = true) ∧ pieces = trimmed absolute pieces ++ idles := by
  unfold trimmed
  split
  · exact exists_idle_end pieces
  · split
    · exact ⟨[], by simp, rfl⟩
    · next first rest =>
      obtain ⟨idles, hidles, hrest⟩ := exists_idle_end rest
      exact ⟨idles, hidles, congrArg (first :: ·) hrest⟩

/-- The parent lacks one piece, and idle ones around it. -/
theorem parent?_eq_some (h : p.parent? = some q) :
    q.absolute = p.absolute ∧ ∃ idles piece more, (∀ piece ∈ idles, isIdle piece = true)
      ∧ (∀ piece ∈ more, isIdle piece = true) ∧ p.pieces = q.pieces ++ (idles ++ piece :: more) := by
  obtain ⟨more, hmore, hpieces⟩ := exists_trimmed p.absolute p.pieces
  unfold parent? at h
  split at h
  · exact absurd h (by simp)
  · next hnonempty =>
    split at h
    · exact absurd h (by simp)
    · obtain ⟨front, last, hlast⟩ := List.eq_nil_or_concat'  (trimmed p.absolute p.pieces) |>.resolve_left hnonempty
      obtain ⟨idles, hidles, hfront⟩ := exists_trimmed p.absolute front
      rw [hlast, List.dropLast_concat] at h
      cases h
      refine ⟨rfl, idles, last, more, hidles, hmore, ?_⟩
      calc p.pieces
        _ = front ++ [last] ++ more := by rw [← hlast]; exact hpieces
        _ = trimmed p.absolute front ++ idles ++ [last] ++ more := by rw [← hfront]
        _ = _ := by simp

theorem steps_eq_append {idles more : List (List Char)} (hidles : ∀ piece ∈ idles, isIdle piece = true)
    (hmore : ∀ piece ∈ more, isIdle piece = true) (hpieces : p.pieces = q.pieces ++ (idles ++ piece :: more)) :
    p.steps = stepsOf [piece] ++ q.steps := by
  rw [steps, hpieces, ← List.singleton_append, stepsOf_append, stepsOf_append, stepsOf_append,
    stepsOf_eq_nil.mpr hidles, stepsOf_eq_nil.mpr hmore, List.append_nil, List.nil_append]
  rfl

/-- The steps to the parent are those without the last one, unless the piece left out was no step. -/
theorem steps_parent? (h : p.parent? = some q) : (∃ piece, p.steps = piece :: q.steps) ∨ p.steps = q.steps := by
  obtain ⟨-, idles, piece, more, hidles, hmore, hpieces⟩ := parent?_eq_some h
  rw [steps_eq_append hidles hmore hpieces]
  cases hidle : isIdle piece with
  | true => exact .inr (by rw [stepsOf_idle hidle, List.nil_append])
  | false => exact .inl ⟨piece, by rw [stepsOf_telling hidle, List.singleton_append]⟩

/-- Only a path without steps has no parent. -/
theorem steps_of_parent?_eq_none (h : p.parent? = none) : p.steps = [] := by
  obtain ⟨idles, hidles, hpieces⟩ := exists_trimmed p.absolute p.pieces
  unfold parent? at h
  refine stepsOf_eq_nil.mpr ?_
  split at h
  · next hempty =>
    rw [hpieces, hempty]
    exact hidles
  · split at h
    · next hpoint =>
      simp only [Bool.and_eq_true, beq_iff_eq] at hpoint
      rw [hpieces, hpoint.2]
      simpa [isIdle] using hidles
    · exact absurd h (by simp)

/-- A path that ends in a step has a parent, without that step. -/
theorem exists_parent? (hpieces : p.pieces = front ++ [piece]) (htelling : isIdle piece = false) :
    ∃ q, p.parent? = some q ∧ p.steps = piece :: q.steps := by
  cases hparent : p.parent? with
  | none =>
    have hsteps := steps_of_parent?_eq_none hparent
    rw [steps, hpieces, stepsOf_append, stepsOf_telling htelling] at hsteps
    exact absurd hsteps (by simp)
  | some q =>
    obtain ⟨-, idles, last, more, hidles, hmore, hlast⟩ := parent?_eq_some hparent
    have hend : (idles ++ last :: more).getLast? = some piece := by
      have hends := congrArg List.getLast? (hpieces.symm.trans hlast)
      simpa using hends.symm
    refine ⟨q, rfl, ?_⟩
    -- Nothing idle stands behind the piece left out, because the path ends in a step.
    rcases more.eq_nil_or_concat' with rfl | ⟨others, idle, rfl⟩
    · obtain rfl : last = piece := by simpa using hend
      rw [steps_eq_append hidles hmore hlast, stepsOf_telling htelling, List.singleton_append]
    · obtain rfl : idle = piece := by simpa [List.getLast?_cons] using hend
      exact absurd (hmore idle (by simp)) (by simp [htelling])

end Path

/-! ## The walk -/

namespace FileTree

variable {root t t' : FileTree} {place : List String} {around around' : List FileTree}
  {piece : List Char} {pieces : List (List Char)}

theorem follow_append (front back : List (List Char)) (t : FileTree) (around : List FileTree) :
    t.follow (front ++ back) around = t.follow front around >>= fun reached => reached.1.follow back reached.2 := by
  induction front generalizing t around with
  | nil => rfl
  | cons piece rest ih =>
    rw [List.cons_append]
    cases t with
    | file content => rfl
    | directory entries =>
      simp only [follow]
      split
      · exact ih _ _
      · split
        · cases around with
          | nil => exact ih _ _
          | cons parent others => exact ih _ _
        · cases entries.lookup (String.ofList piece) with
          | none => rfl
          | some inner => exact ih _ _

/-- One piece of a walk: it starts in a directory and comes to the place that the piece leads to. -/
theorem Around.follow_one (h : Around root place t around) (hwalk : t.follow [piece] around = .ok (t', around')) :
    (∃ entries, t = .directory entries) ∧ Around root (Path.placeFrom place (Path.stepsOf [piece])) t' around' := by
  cases t with
  | file content => exact absurd hwalk (by simp [FileTree.follow])
  | directory entries =>
    refine ⟨⟨entries, rfl⟩, ?_⟩
    simp only [FileTree.follow] at hwalk
    split at hwalk
    case isTrue hidle =>
      cases hwalk
      rw [Path.stepsOf_idle hidle]
      exact h
    case isFalse htelling =>
      rw [Path.stepsOf_telling (by simpa using htelling), Path.placeFrom]
      split at hwalk
      case isTrue hup =>
        rw [if_pos (show piece = Path.up from hup), Path.placeFrom]
        cases around with
        | nil =>
          cases hwalk
          cases h
          exact .root
        | cons parent others =>
          cases hwalk
          exact h.up.1
      case isFalse hname =>
        rw [if_neg (show ¬ piece = Path.up from hname), Path.placeFrom]
        cases hlookup : entries.lookup (String.ofList piece) with
        | none => rw [hlookup] at hwalk; exact absurd hwalk (by simp)
        | some inner =>
          rw [hlookup] at hwalk
          cases hwalk
          exact .inside h hlookup

/-- A walk comes to the place that its steps lead to. -/
theorem Around.follow (h : Around root place t around) (hwalk : t.follow pieces around = .ok (t', around')) :
    Around root (Path.placeFrom place (Path.stepsOf pieces)) t' around' := by
  induction pieces generalizing place t around with
  | nil =>
    cases hwalk
    exact h
  | cons piece rest ih =>
    rw [← List.singleton_append, follow_append] at hwalk
    obtain ⟨reached, hone, hrest⟩ := Except.bind_eq_ok.mp hwalk
    rw [Path.placeFrom_stepsOf_cons]
    exact ih (h.follow_one hone).2 hrest

end FileTree

namespace Workspace

variable {w : Workspace} {p q : Path} {t : FileTree} {around : List FileTree}

/-- The place a path starts from. -/
def base (w : Workspace) (p : Path) : List String :=
  if p.absolute then [] else Path.placeFrom [] (Path.stepsOf (w.current.map String.toList))

theorem base_congr (w : Workspace) (h : q.absolute = p.absolute) : w.base q = w.base p := by
  rw [base, base, h]

/-- The place a path leads to. -/
def place (w : Workspace) (p : Path) : List String := Path.placeFrom (w.base p) p.steps

/-- Where the walk along a path starts. -/
def start (w : Workspace) (p : Path) : Except FileFault (FileTree × List FileTree) :=
  if p.absolute then .ok (w.root, []) else w.root.follow (w.current.map String.toList) []

/-- What the walk along a path comes to, with the directories around it. This is `at?` except that the empty
path leads to the working directory. -/
def reach (w : Workspace) (p : Path) : Except FileFault (FileTree × List FileTree) :=
  w.start p >>= fun start => start.1.follow p.pieces start.2

theorem at?_eq (w : Workspace) (p : Path) :
    w.at? p = if !p.absolute && p.pieces.all List.isEmpty then .error .notFound else (w.reach p).map Prod.fst := by
  unfold at? reach start
  split
  · rfl
  · cases p.absolute with
    | true => cases hfollow : w.root.follow p.pieces [] <;> simp [bind, Except.bind, Except.map, hfollow]
    | false =>
      cases hstart : w.root.follow (w.current.map String.toList) [] with
      | error f => rfl
      | ok start =>
        cases hfollow : start.1.follow p.pieces start.2 <;> simp [bind, Except.bind, Except.map, hfollow]

theorem reach_of_at? (h : w.at? p = .ok t) : ∃ around, w.reach p = .ok (t, around) := by
  rw [at?_eq] at h
  split at h
  · exact absurd h (by simp)
  · cases hreach : w.reach p with
    | error f => rw [hreach] at h; exact absurd h (by simp [Except.map])
    | ok found =>
      rw [hreach] at h
      cases h
      exact ⟨found.2, rfl⟩

theorem around_of_start {start : FileTree × List FileTree} (h : w.start p = .ok start) :
    FileTree.Around w.root (w.base p) start.1 start.2 := by
  unfold Workspace.start at h
  unfold base
  split at h
  case isTrue habsolute =>
    cases h
    rw [if_pos habsolute]
    exact .root
  case isFalse hrelative =>
    rw [if_neg hrelative]
    exact FileTree.Around.root.follow h

theorem around_of_reach (h : w.reach p = .ok (t, around)) : FileTree.Around w.root (w.place p) t around := by
  obtain ⟨start, hstart, hwalk⟩ := Except.bind_eq_ok.mp h
  exact (around_of_start hstart).follow hwalk

/-- A path that leads somewhere leads to its place. -/
theorem get?_place (h : w.at? p = .ok t) : w.root.get? (w.place p) = some t := by
  obtain ⟨around, hreach⟩ := reach_of_at? h
  exact (around_of_reach hreach).get?

/-- The path leads into a directory, the empty one into the working directory. -/
def Enters (w : Workspace) (p : Path) : Prop :=
  ∃ entries around, w.reach p = .ok (.directory entries, around)

theorem Enters.isDirectoryAt (h : w.Enters p) : w.root.IsDirectoryAt (w.place p) := by
  obtain ⟨entries, around, hreach⟩ := h
  exact ⟨entries, (around_of_reach hreach).get?⟩

theorem reach_append (w : Workspace) (absolute : Bool) (front back : List (List Char)) :
    w.reach ⟨absolute, front ++ back⟩
      = w.reach ⟨absolute, front⟩ >>= fun reached => reached.1.follow back reached.2 := by
  unfold reach start
  cases (if absolute then .ok (w.root, []) else w.root.follow (w.current.map String.toList) [] :
    Except FileFault (FileTree × List FileTree)) with
  | error f => rfl
  | ok start => exact FileTree.follow_append front back start.1 start.2

/-- Whatever a path goes on from is a directory. -/
theorem enters_of_reach {absolute : Bool} {front : List (List Char)} {piece : List Char}
    {back : List (List Char)} (h : w.reach ⟨absolute, front ++ piece :: back⟩ = .ok (t, around)) :
    w.Enters ⟨absolute, front⟩ := by
  rw [reach_append] at h
  obtain ⟨⟨t', around'⟩, hfront, hback⟩ := Except.bind_eq_ok.mp h
  cases t' with
  | file content => exact absurd hback (by simp [FileTree.follow])
  | directory entries => exact ⟨entries, around', hfront⟩

theorem enters_parent? (hparent : p.parent? = some q) (h : w.reach p = .ok (t, around)) : w.Enters q := by
  obtain ⟨habsolute, idles, piece, more, -, -, hpieces⟩ := Path.parent?_eq_some hparent
  have hp : p = ⟨q.absolute, q.pieces ++ (idles ++ piece :: more)⟩ := by rw [habsolute, ← hpieces]
  rw [hp] at h
  cases idles with
  | nil => exact enters_of_reach h
  | cons idle idles => exact enters_of_reach h

/-- Outer steps are the steps of a path above. -/
theorem Enters.exists_steps (h : w.Enters p) {outer : List (List Char)} (houter : outer <:+ p.steps) :
    ∃ q, w.Enters q ∧ q.absolute = p.absolute ∧ q.steps = outer := by
  obtain ⟨absolute, pieces⟩ := p
  induction pieces using List.reverseRecOn with
  | nil =>
    rw [Path.steps, Path.stepsOf_nil, List.suffix_nil] at houter
    exact ⟨_, h, rfl, houter.symm⟩
  | append_singleton front piece ih =>
    obtain ⟨entries, around, hreach⟩ := h
    rw [Path.steps, Path.stepsOf_append] at houter
    cases hidle : Path.isIdle piece with
    | true =>
      rw [Path.stepsOf_idle hidle] at houter
      exact ih (enters_of_reach hreach) houter
    | false =>
      rw [Path.stepsOf_telling hidle, List.singleton_append, List.suffix_cons_iff] at houter
      rcases houter with rfl | houter
      · refine ⟨_, ⟨entries, around, hreach⟩, rfl, ?_⟩
        rw [Path.steps, Path.stepsOf_append, Path.stepsOf_telling hidle, List.singleton_append]
      · exact ih (enters_of_reach hreach) houter

/-- A file is reached by a name. -/
theorem pieces_of_file {content : Bytes} (hroot : w.root.IsDirectoryAt []) (h : w.at? p = .ok (.file content)) :
    ∃ front piece, p.pieces = front ++ [piece] ∧ Path.isIdle piece = false ∧ piece ≠ Path.up := by
  obtain ⟨around, hreach⟩ := reach_of_at? h
  rcases p.pieces.eq_nil_or_concat' with hnil | ⟨front, piece, hpieces⟩
  · exfalso
    cases habsolute : p.absolute with
    | false =>
      rw [at?_eq, hnil, habsolute] at h
      exact absurd h (by simp)
    | true =>
      obtain ⟨entries, hentries⟩ := hroot
      have hentry := get?_place h
      rw [place, Path.steps, hnil, base, habsolute, if_pos rfl, Path.stepsOf_nil, Path.placeFrom, hentries] at hentry
      exact absurd hentry (by simp)
  · refine ⟨front, piece, hpieces, ?_⟩
    have hp : p = ⟨p.absolute, front ++ [piece]⟩ := by rw [← hpieces]
    rw [hp] at hreach
    obtain ⟨entries, outer, hfront⟩ := enters_of_reach hreach
    rw [reach_append, hfront] at hreach
    have hlast : (FileTree.directory entries).follow [piece] outer = .ok (.file content, around) := hreach
    simp only [FileTree.follow] at hlast
    split at hlast
    case isTrue => exact absurd hlast (by simp)
    case isFalse htelling =>
      refine ⟨by simpa using htelling, ?_⟩
      -- Going up leads to a directory, and at the root to the root.
      rintro rfl
      rw [if_pos (show Path.up = ['.', '.'] from rfl)] at hlast
      cases outer with
      | nil => exact absurd hlast (by simp)
      | cons parent others =>
        obtain ⟨-, entries', rfl⟩ := (around_of_reach hfront).up
        exact absurd hlast (by simp)

/-! ## What is in a directory -/

variable {name : String}

/-- A path followed by a name leads to what has that name in the directory. -/
theorem at?_child (h : w.Enters p) (hname : Path.IsName name) :
    w.at? (p.child name) = match w.root.get? (name :: w.place p) with
      | some t => .ok t
      | none => .error .notFound := by
  obtain ⟨entries, around, hreach⟩ := h
  obtain ⟨front, hfront, hchild⟩ := Path.child_eq p name
  have hdirectory : w.reach ⟨p.absolute, front⟩ = .ok (.directory entries, around) := by
    rcases hfront with rfl | hfront
    · exact hreach
    · have hempty : w.reach ⟨p.absolute, front ++ [[]]⟩ = .ok (.directory entries, around) := hfront ▸ hreach
      obtain ⟨entries', around', hreach'⟩ := enters_of_reach hempty
      rw [reach_append, hreach'] at hempty
      rw [hreach']
      exact hempty
  rw [at?_eq, if_neg ?_, hchild, reach_append, hdirectory, FileTree.get?,
    (around_of_reach hreach).get?]
  · show ((FileTree.directory entries).follow [name.toList] around).map Prod.fst = _
    simp only [FileTree.follow]
    rw [if_neg (by simp [hname.1]), if_neg (show ¬ name.toList = ['.', '.'] from hname.2), String.ofList_toList]
    cases entries.lookup name with
    | none => rfl
    | some inner => rfl
  · intro hall
    rw [hchild] at hall
    simp only [List.all_append, Bool.and_eq_true, List.all_cons] at hall
    exact absurd hname.1 (by simp [Path.isIdle, hall.2.2.1])

theorem place_child (w : Workspace) (p : Path) (hname : Path.IsName name) :
    w.place (p.child name) = name :: w.place p := by
  unfold place
  rw [Path.steps_child p hname, Path.placeFrom, if_neg hname.2, String.ofList_toList,
    base_congr w (Path.absolute_child p name)]

end Workspace

end AuditTrail
