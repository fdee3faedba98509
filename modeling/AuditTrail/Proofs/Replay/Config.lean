import AuditTrail.Proofs.Files.Place
import AuditTrail.Replay.Config
import Mathlib.Data.List.Infix

/-!
# Whose credentials are used

The configuration for some sources is looked for in a directory and in those above it. Which directories
these are is settled by the text of the path: each parent has one step less. So the places that are searched
are the places of the tails of the steps (`Workspace.searched`), the directory of the sources first.

> The first place with a configuration file decides, and no other file is read (`nearest_configuration`).

Where no step leads up, the places are the directories around the sources, up to the one the path starts
from: all of them for an absolute path, for a relative one none above the working directory. A step that
leads up is taken off like any other one, so that what is above `a/../b` includes `a`, which is not around
`b` (`outside_configuration`).
-/

namespace AuditTrail

open LocalConfig (fileNames)

/-! ## What the search is about -/

/-- The place of the configuration file in a directory. -/
def FileTree.configAt? (root : FileTree) (directory : List String) : Option (List String) :=
  (fileNames.map (· :: directory)).find? root.isFileAt

/-- The text of the file at a place. -/
def FileTree.textAt? (root : FileTree) (place : List String) : Option String :=
  match root.get? place with
  | some (.file content) => content.toString?
  | _ => none

/-- What a text configures. -/
def LocalConfig.read? (text : String) : Option LocalConfig :=
  if Text.isWhite text then some .default else (Yaml.Document.read? text).bind (·.localSection?)

namespace Workspace

/-- The place of the directory that holds the sources at a path. -/
def directory (w : Workspace) (p : Path) : List String :=
  if w.isFile p then (w.place p).tail else w.place p

/-- The places where a configuration file is looked for. -/
def searched (w : Workspace) (p : Path) : List (List String) :=
  (if w.isFile p then p.steps.tail else p.steps).tails.map (Path.placeFrom (w.base p))

end Workspace

namespace LocalConfig

variable {w : Workspace} {p q : Path} {t : FileTree}

/-! ## One directory -/

theorem isName_of_mem_fileNames : ∀ name ∈ fileNames, Path.IsName name := by
  simp [fileNames, Path.IsName, Path.isIdle, Path.up]

theorem isFile_child {name : String} (h : w.Enters p) (hname : Path.IsName name) :
    w.isFile (p.child name) = w.root.isFileAt (name :: w.place p) := by
  unfold Workspace.isFile FileTree.isFileAt
  rw [Workspace.at?_child h hname]
  cases w.root.get? (name :: w.place p) with
  | none => rfl
  | some t => cases t <;> rfl

theorem findIn?_eq (h : w.Enters p) : (findIn? w p).map w.place = w.root.configAt? (w.place p) := by
  have hnames : ∀ names : List String, (∀ name ∈ names, Path.IsName name) →
      ((names.map p.child).find? w.isFile).map w.place
        = (names.map (· :: w.place p)).find? w.root.isFileAt := by
    intro names hnames
    induction names with
    | nil => rfl
    | cons name rest ih =>
      have hname := hnames name List.mem_cons_self
      rw [List.map_cons, List.map_cons, List.find?_cons, List.find?_cons, isFile_child h hname]
      split
      · exact congrArg some (Workspace.place_child w p hname)
      · exact ih fun name hmem => hnames name (List.mem_cons_of_mem _ hmem)
  exact hnames fileNames isName_of_mem_fileNames

/-! ## The way up -/

theorem findSome?_cons_or {α β : Type} (f : α → Option β) (a : α) (rest : List α) :
    (a :: rest).findSome? f = (f a).or (rest.findSome? f) := by
  rw [List.findSome?_cons]
  cases f a <;> rfl

/-- A search through the tails of a list may look at the list itself once more. -/
theorem or_findSome?_tails {α β : Type} (f : List α → Option β) (l : List α) :
    (f l).or (l.tails.findSome? f) = l.tails.findSome? f := by
  cases l with
  | nil => rw [List.tails, findSome?_cons_or, ← Option.or_assoc, Option.or_self]
  | cons a rest => rw [List.tails_cons, findSome?_cons_or, ← Option.or_assoc, Option.or_self]

/-- The directories above a path, as it is written, are the places of the tails of its steps. -/
theorem findSome?_ancestorsUpTo (h : w.Enters p) (steps : Nat) (hsteps : p.pieces.length ≤ steps) :
    ((p.ancestorsUpTo steps).findSome? (findIn? w)).map w.place
      = p.steps.tails.findSome? fun outer => w.root.configAt? (Path.placeFrom (w.base p) outer) := by
  induction steps generalizing p with
  | zero =>
    have hnil : p.steps = [] := by
      rw [Path.steps, List.eq_nil_of_length_eq_zero (Nat.le_zero.mp hsteps), Path.stepsOf_nil]
    rw [Path.ancestorsUpTo, findSome?_cons_or, List.findSome?_nil, Option.or_none, findIn?_eq h, Workspace.place,
      hnil, List.tails, findSome?_cons_or, List.findSome?_nil, Option.or_none]
  | succ steps ih =>
    rw [Path.ancestorsUpTo, findSome?_cons_or, Option.map_or, findIn?_eq h, Workspace.place]
    cases hparent : p.parent? with
    | none =>
      rw [Path.steps_of_parent?_eq_none hparent, List.tails, findSome?_cons_or, List.findSome?_nil]
      rfl
    | some q =>
      obtain ⟨habsolute, idles, piece, more, -, -, hpieces⟩ := Path.parent?_eq_some hparent
      obtain ⟨_, _, hreach⟩ := h
      have hlength : q.pieces.length ≤ steps := by
        rw [hpieces] at hsteps
        simp only [List.length_append, List.length_cons] at hsteps
        omega
      rw [ih (Workspace.enters_parent? hparent hreach) hlength, Workspace.base_congr w habsolute]
      -- The piece left out may have been no step. Then the parent is the same place, looked at twice.
      rcases Path.steps_parent? hparent with ⟨last, hlast⟩ | hsame
      · rw [hlast, List.tails_cons, findSome?_cons_or]
      · rw [hsame]
        exact or_findSome?_tails (fun outer => w.root.configAt? (Path.placeFrom (w.base p) outer)) q.steps

/-! ## The whole search -/

theorem isFile_of_directory {entries : List (String × FileTree)} (hp : w.at? p = .ok (.directory entries)) :
    w.isFile p = false := by
  rw [Workspace.isFile, hp]

theorem isFile_of_file {content : Bytes} (hp : w.at? p = .ok (.file content)) : w.isFile p = true := by
  rw [Workspace.isFile, hp]

/-- The search starts in the directory of the sources. -/
theorem exists_start (hroot : w.root.IsDirectoryAt []) (hp : w.at? p = .ok t) :
    ∃ s, (if w.isFile p then p.parent? else some p) = some s ∧ w.Enters s ∧ s.absolute = p.absolute
      ∧ s.steps = (if w.isFile p then p.steps.tail else p.steps) ∧ w.place s = w.directory p := by
  obtain ⟨around, hreach⟩ := Workspace.reach_of_at? hp
  unfold Workspace.directory
  cases t with
  | directory entries =>
    rw [isFile_of_directory hp]
    exact ⟨p, rfl, ⟨entries, around, hreach⟩, rfl, rfl, rfl⟩
  | file content =>
    obtain ⟨front, piece, hpieces, htelling, hup⟩ := Workspace.pieces_of_file hroot hp
    obtain ⟨s, hparent, hsteps⟩ := Path.exists_parent? hpieces htelling
    have habsolute := (Path.parent?_eq_some hparent).1
    rw [isFile_of_file hp, if_pos rfl, if_pos rfl, if_pos rfl]
    refine ⟨s, hparent, Workspace.enters_parent? hparent hreach, habsolute, by rw [hsteps]; rfl, ?_⟩
    rw [Workspace.place, Workspace.place, hsteps, Path.placeFrom, if_neg hup, List.tail_cons,
      Workspace.base_congr w habsolute]

theorem find?_eq_bind (w : Workspace) (p : Path) :
    find? w p = (if w.isFile p then p.parent? else some p).bind fun s => s.ancestors.findSome? (findIn? w) := by
  unfold find?
  split <;> rfl

theorem find?_eq (hroot : w.root.IsDirectoryAt []) (hp : w.at? p = .ok t) :
    (find? w p).map w.place = (w.searched p).findSome? w.root.configAt? := by
  obtain ⟨s, hstart, henters, habsolute, hsteps, -⟩ := exists_start hroot hp
  rw [find?_eq_bind, hstart, Option.bind_some, Workspace.searched, List.findSome?_map, ← hsteps,
    ← Workspace.base_congr w habsolute]
  exact findSome?_ancestorsUpTo henters s.pieces.length le_rfl

/-- Only directories are searched. -/
theorem isDirectoryAt_of_mem_searched (hroot : w.root.IsDirectoryAt []) (hp : w.at? p = .ok t)
    {place : List String} (h : place ∈ w.searched p) : w.root.IsDirectoryAt place := by
  obtain ⟨s, -, henters, habsolute, hsteps, -⟩ := exists_start hroot hp
  rw [Workspace.searched, List.mem_map, ← hsteps, ← Workspace.base_congr w habsolute] at h
  obtain ⟨outer, houter, rfl⟩ := h
  obtain ⟨q, hq, habove, rfl⟩ := henters.exists_steps ((List.mem_tails _ _).mp houter)
  rw [← Workspace.base_congr w habove]
  exact hq.isDirectoryAt

theorem head?_searched (hroot : w.root.IsDirectoryAt []) (hp : w.at? p = .ok t) :
    (w.searched p).head? = some (w.directory p) := by
  obtain ⟨s, -, -, habsolute, hsteps, hplace⟩ := exists_start hroot hp
  rw [Workspace.searched, ← hsteps, ← hplace, Workspace.place, Workspace.base_congr w habsolute]
  cases s.steps <;> rfl

theorem filter_tails_append (names base : List String) :
    (names ++ base).tails.filter base.isSuffixOf = names.tails.map (· ++ base) := by
  induction names with
  | nil =>
    have hshorter : ∀ base inner : List String, inner <:+ base.tail → base ≠ [] → ¬ base <:+ inner := by
      intro base inner hinner hbase hsuffix
      have hlength := (hsuffix.trans hinner).length_le
      rw [List.length_tail] at hlength
      have := List.length_pos_iff.mpr hbase
      omega
    cases base with
    | nil => rfl
    | cons name outer =>
      rw [List.nil_append, List.tails_cons, List.filter_cons_of_pos (by simp), List.filter_eq_nil_iff.mpr]
      · rfl
      · intro inner hinner hsuffix
        exact hshorter (name :: outer) inner ((List.mem_tails _ _).mp hinner) (by simp)
          (List.isSuffixOf_iff_suffix.mp hsuffix)
  | cons name names ih =>
    rw [List.cons_append, List.tails_cons, List.tails_cons, List.map_cons, List.filter_cons_of_pos, ih, List.cons_append]
    exact List.isSuffixOf_iff_suffix.mpr (List.suffix_append (name :: names) base)

theorem map_placeFrom_tails {base : List String} {steps : List (List Char)} (h : Path.up ∉ steps) :
    steps.tails.map (Path.placeFrom base) = (Path.placeFrom base steps).tails.filter base.isSuffixOf := by
  rw [Path.placeFrom_eq_append h, filter_tails_append, List.map_tails, List.map_map]
  refine List.map_congr_left fun outer houter => Path.placeFrom_eq_append fun hmem => h ?_
  exact ((List.mem_tails _ _).mp houter).subset hmem

/-- Where no step leads up, the search goes through the directories around the sources, as far up as the
path starts. -/
theorem searched_eq (hroot : w.root.IsDirectoryAt []) (hp : w.at? p = .ok t) (hup : Path.up ∉ p.pieces) :
    w.searched p = (w.directory p).tails.filter (w.base p).isSuffixOf := by
  obtain ⟨s, -, -, habsolute, hsteps, hplace⟩ := exists_start hroot hp
  have hups : Path.up ∉ s.steps := by
    intro hmem
    have hmem' : Path.up ∈ p.steps := by
      rw [hsteps] at hmem
      split at hmem
      · exact List.mem_of_mem_tail hmem
      · exact hmem
    rw [Path.steps, Path.stepsOf, List.mem_reverse] at hmem'
    exact hup (List.mem_of_mem_filter hmem')
  rw [Workspace.searched, ← hsteps, ← hplace, Workspace.place, ← Workspace.base_congr w habsolute]
  exact map_placeFrom_tails hups

theorem searched_absolute (hroot : w.root.IsDirectoryAt []) (hp : w.at? p = .ok t) (hup : Path.up ∉ p.pieces)
    (habsolute : p.absolute = true) : w.searched p = (w.directory p).tails := by
  rw [searched_eq hroot hp hup, Workspace.base, if_pos habsolute]
  exact List.filter_eq_self.mpr fun place _ => List.isSuffixOf_iff_suffix.mpr List.nil_suffix

/-! ## What is read -/

theorem find?_isFile {q : Path} (h : find? w p = some q) : w.isFile q = true := by
  rw [find?_eq_bind, Option.bind_eq_some_iff] at h
  obtain ⟨s, -, hs⟩ := h
  obtain ⟨directory, -, hfound⟩ := List.exists_of_findSome?_eq_some hs
  exact List.find?_some hfound

theorem readText_eq (h : w.isFile q = true) : (w.readText q).toOption = w.root.textAt? (w.place q) := by
  unfold Workspace.isFile at h
  split at h
  case h_2 => exact absurd h (by simp)
  case h_1 content hcontent =>
    unfold Workspace.readText FileTree.textAt?
    rw [hcontent, Workspace.get?_place hcontent]
    cases hread : content.toString? <;> simp [bind, Except.bind, Except.toOption, hread]

theorem parse_eq (path text : String) : (parse path text).toOption = read? text := by
  unfold parse read?
  split
  · rfl
  · cases (Yaml.Document.read? text).bind (·.localSection?) <;> rfl

theorem load_eq (w : Workspace) (p : Path) :
    (load w p).toOption = match (find? w p).map w.place with
      | none => some .default
      | some place => (w.root.textAt? place).bind read? := by
  unfold load
  cases hfind : find? w p with
  | none => rfl
  | some q =>
    simp only [Option.map_some, ← readText_eq (find?_isFile hfind)]
    cases w.readText q with
    | error f => rfl
    | ok text => exact parse_eq q.text text

/-! ## The configuration of some sources -/

/-- The first searched directory with a configuration file decides. Where no step leads up, those searched
are the directories around the sources, as far up as the path starts. -/
theorem nearest_configuration (w : Workspace) (p : Path) (t : FileTree) (hroot : w.root.IsDirectoryAt [])
    (hp : w.at? p = .ok t) :
    (find? w p).map w.place = (w.searched p).findSome? w.root.configAt?
      ∧ (∀ q, find? w p = some q → w.isFile q = true)
      ∧ ((load w p).toOption = match (w.searched p).findSome? w.root.configAt? with
        | none => some .default
        | some place => (w.root.textAt? place).bind read?)
      ∧ (w.searched p).head? = some (w.directory p)
      ∧ (∀ place ∈ w.searched p, w.root.IsDirectoryAt place)
      ∧ (Path.up ∉ p.pieces → w.searched p = (w.directory p).tails.filter (w.base p).isSuffixOf)
      ∧ (Path.up ∉ p.pieces → p.absolute = true → w.searched p = (w.directory p).tails) := by
  refine ⟨find?_eq hroot hp, fun q hq => find?_isFile hq, ?_, head?_searched hroot hp,
    fun place hplace => isDirectoryAt_of_mem_searched hroot hp hplace, searched_eq hroot hp,
    searched_absolute hroot hp⟩
  rw [load_eq, find?_eq hroot hp]

/-- Two directories side by side, a configuration in the first one. -/
def besides : Workspace :=
  ⟨.directory [("a", .directory [("npl.yml", .file [])]), ("b", .directory [("x.npl", .file [])])], ["b"]⟩

theorem nearest_configuration_beside :
    besides.root.IsDirectoryAt [] ∧ (∃ t, besides.at? (.ofString "/a/./") = .ok t)
      ∧ (find? besides (.ofString "/a/./")).map besides.place = some ["npl.yml", "a"] := by
  have hroot : besides.root.IsDirectoryAt [] := ⟨_, rfl⟩
  have hp : besides.at? (.ofString "/a/./") = .ok (.directory [("npl.yml", .file [])]) := by rfl
  refine ⟨hroot, ⟨_, hp⟩, (nearest_configuration besides (.ofString "/a/./") _ hroot hp).1.trans ?_⟩
  rfl

/-- The configuration of a directory that is not around the sources is used for them. -/
theorem outside_configuration :
    besides.root.IsDirectoryAt [] ∧ (∃ t, besides.at? (.ofString "/a/../b") = .ok t)
      ∧ besides.directory (.ofString "/a/../b") = ["b"]
      ∧ (find? besides (.ofString "/a/../b")).map besides.place = some ["npl.yml", "a"]
      ∧ ["b"].tails.findSome? besides.root.configAt? = none := by
  refine ⟨⟨_, rfl⟩, ⟨_, rfl⟩, ?_, ?_, ?_⟩ <;> rfl

/-- Without steps that lead up, the spelling of an absolute path does not matter. -/
theorem configuration_respelled {u : FileTree} (hroot : w.root.IsDirectoryAt []) (hp : w.at? p = .ok t)
    (hq : w.at? q = .ok u) (hup : Path.up ∉ p.pieces) (hup' : Path.up ∉ q.pieces) (habsolute : p.absolute = true)
    (habsolute' : q.absolute = true) (hsame : w.directory p = w.directory q) :
    (find? w p).map w.place = (find? w q).map w.place ∧ (load w p).toOption = (load w q).toOption := by
  have hplace : (find? w p).map w.place = (find? w q).map w.place := by
    rw [find?_eq hroot hp, find?_eq hroot hq, searched_absolute hroot hp hup habsolute,
      searched_absolute hroot hq hup' habsolute', hsame]
  exact ⟨hplace, by rw [load_eq, load_eq, hplace]⟩

end LocalConfig

end AuditTrail
