import AuditTrail.Files.Tree
import Mathlib.Data.List.Perm.Basic

/-!
# In which order a directory lists its entries

The files in a tree are found under the names that lead to them (`FileTree.Holds`). A tree whose directories
list their entries in another order (`FileTree.Relisted`) has the same files under the same names, and still
no two entries of one name where there were none.
-/

namespace AuditTrail

namespace FileTree

/-- The names lead to a file in a tree. -/
inductive Holds : FileTree → (names : List String) → Bytes → Prop
  | here {content : Bytes} : Holds (.file content) [] content
  | inside {entries : List (String × FileTree)} {name : String} {t : FileTree} {names : List String}
      {content : Bytes} (entry : (name, t) ∈ entries) (inner : Holds t names content) :
      Holds (.directory entries) (name :: names) content

/-- No directory has two entries with one name. -/
inductive Distinct : FileTree → Prop
  | file (content : Bytes) : Distinct (.file content)
  | empty : Distinct (.directory [])
  | entry {name : String} {t : FileTree} {entries : List (String × FileTree)} (inner : Distinct t)
      (new : name ∉ entries.map Prod.fst) (others : Distinct (.directory entries)) :
      Distinct (.directory ((name, t) :: entries))

/-- The same tree, with the entries of its directories in another order. -/
inductive Relisted : FileTree → FileTree → Prop
  | refl (t : FileTree) : Relisted t t
  | swap (e e' : String × FileTree) (entries : List (String × FileTree)) :
      Relisted (.directory (e :: e' :: entries)) (.directory (e' :: e :: entries))
  | entry {name : String} {t t' : FileTree} {entries entries' : List (String × FileTree)} (inner : Relisted t t')
      (others : Relisted (.directory entries) (.directory entries')) :
      Relisted (.directory ((name, t) :: entries)) (.directory ((name, t') :: entries'))
  | trans {t t' t'' : FileTree} (first : Relisted t t') (second : Relisted t' t'') : Relisted t t''

variable {t t' : FileTree} {names : List String} {content : Bytes}

theorem holds_cons {name : String} {entries : List (String × FileTree)} :
    Holds (.directory ((name, t) :: entries)) names content
      ↔ (∃ rest, names = name :: rest ∧ Holds t rest content) ∨ Holds (.directory entries) names content := by
  constructor
  · rintro (_ | ⟨hentry, hinner⟩)
    rcases List.mem_cons.mp hentry with heq | hmem
    · cases heq
      exact .inl ⟨_, rfl, hinner⟩
    · exact .inr (.inside hmem hinner)
  · rintro (⟨rest, rfl, hinner⟩ | hothers)
    · exact .inside List.mem_cons_self hinner
    · cases hothers with
      | inside hmem hinner => exact .inside (List.mem_cons_of_mem _ hmem) hinner

/-- Another order of the entries leaves the files where they are. -/
theorem Relisted.holds_iff (h : Relisted t t') (names : List String) (content : Bytes) :
    Holds t names content ↔ Holds t' names content := by
  induction h generalizing names with
  | refl => exact Iff.rfl
  | swap e e' entries => rw [holds_cons, holds_cons, holds_cons, holds_cons, or_left_comm]
  | entry _ _ ihInner ihOthers => simp only [holds_cons, ihInner, ihOthers]
  | trans _ _ ihFirst ihSecond => exact (ihFirst names).trans (ihSecond names)

/-- The names of the entries of a directory. -/
def entryNames : FileTree → List String
  | .file _ => []
  | .directory entries => entries.map Prod.fst

theorem Relisted.entryNames_perm (h : Relisted t t') : t.entryNames.Perm t'.entryNames := by
  induction h with
  | refl => exact .refl _
  | swap e e' entries => exact .swap _ _ _
  | entry _ _ _ ihOthers => exact ihOthers.cons _
  | trans _ _ ihFirst ihSecond => exact ihFirst.trans ihSecond

theorem Distinct.relisted (hdistinct : Distinct t) (h : Relisted t t') : Distinct t' := by
  induction h with
  | refl => exact hdistinct
  | swap e e' entries =>
    cases hdistinct with
    | entry inner new others =>
      cases others with
      | entry inner' new' others' =>
        rw [List.map_cons, List.mem_cons, not_or] at new
        refine .entry inner' ?_ (.entry inner new.2 others')
        rw [List.map_cons, List.mem_cons, not_or]
        exact ⟨Ne.symm new.1, new'⟩
  | entry _ hothers ihInner ihOthers =>
    cases hdistinct with
    | entry inner new others =>
      exact .entry (ihInner inner) (fun hmem => new (hothers.entryNames_perm.mem_iff.mpr hmem)) (ihOthers others)
  | trans _ _ ihFirst ihSecond => exact ihSecond (ihFirst hdistinct)

end FileTree

end AuditTrail
