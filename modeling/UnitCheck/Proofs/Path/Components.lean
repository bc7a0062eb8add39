/-
The components of a path.

A slash divides the pieces of a path, and so it divides the components: those behind it do not depend
on what stands before it (`components_append_slash`).  A path that ends in a slash has the components
of the path without it, unless that is empty.  So an entry of a directory has the components of the
directory and its own name (`components_join`), however the path of the directory is spelled.
-/
import Mathlib.Data.List.Basic
import UnitCheck.FileTree.Basic
import UnitCheck.Path.Basic
import UnitCheck.Proofs.Text.Slice
import UnitCheck.Text.Bytes

namespace UnitCheck

namespace Path

/-- Can the text be the name of an entry? -/
structure IsName (text : List Char) : Prop where
  ne_nil : text ≠ []
  ne_current : text ≠ ['.']
  ne_parent : text ≠ ['.', '.']
  slash_not_mem : '/' ∉ text

instance (text : List Char) : Decidable (IsName text) :=
  decidable_of_iff (text ≠ [] ∧ text ≠ ['.'] ∧ text ≠ ['.', '.'] ∧ '/' ∉ text)
    ⟨fun ⟨h₁, h₂, h₃, h₄⟩ => ⟨h₁, h₂, h₃, h₄⟩, fun ⟨h₁, h₂, h₃, h₄⟩ => ⟨h₁, h₂, h₃, h₄⟩⟩

/-! ### Pieces -/

lemma pieces_eq_splitOn (path : List Char) : pieces path = path.splitOn '/' := by
  induction path with
  | nil => rfl
  | cons c path ih =>
    rw [pieces, List.splitOn_cons_eq_if_modifyHead, ih]
    obtain ⟨piece, rest, hpieces⟩ := List.exists_cons_of_ne_nil (List.splitOn_ne_nil '/' path)
    rw [hpieces]
    simp only [beq_iff_eq, List.modifyHead_cons]

lemma exists_pieces_eq_cons (path : List Char) : ∃ piece rest, pieces path = piece :: rest := by
  rw [pieces_eq_splitOn]
  exact List.exists_cons_of_ne_nil (List.splitOn_ne_nil '/' path)

lemma slash_not_mem_of_mem_pieces {path piece : List Char} (h : piece ∈ pieces path) :
    '/' ∉ piece := by
  rw [pieces_eq_splitOn] at h
  exact not_mem_of_mem_splitOn h

lemma pieces_of_slash_not_mem {text : List Char} (h : '/' ∉ text) : pieces text = [text] := by
  rw [pieces_eq_splitOn, List.splitOn_eq_singleton h]

lemma joinPieces_pieces (path : List Char) : joinPieces (pieces path) = path := by
  rw [pieces_eq_splitOn, joinPieces, List.intercalate_splitOn]

lemma joinPieces_cons (piece : List Char) (rest : List (List Char)) :
    joinPieces (piece :: rest) = piece ++ rest.flatMap ('/' :: ·) := by
  induction rest generalizing piece with
  | nil => simp [joinPieces]
  | cons next rest ih =>
    rw [joinPieces, List.intercalate_cons_cons, ← joinPieces, ih, List.flatMap_cons]
    simp

lemma pieces_joinPieces {ps : List (List Char)} (hps : ps ≠ []) (h : ∀ piece ∈ ps, '/' ∉ piece) :
    pieces (joinPieces ps) = ps := by
  rw [pieces_eq_splitOn, joinPieces, List.splitOn_intercalate '/' h hps]

/-- A slash divides the pieces. -/
lemma pieces_append_slash (path more : List Char) :
    pieces (path ++ '/' :: more) = pieces path ++ pieces more := by
  simp only [pieces_eq_splitOn, List.splitOn_append_cons_self]

/-! ### Components -/

lemma components_of_pieces {path piece : List Char} {rest : List (List Char)}
    (h : pieces path = piece :: rest) :
    components path =
      (firstComponent? piece (!rest.isEmpty)).toList ++ rest.filterMap laterComponent? := by
  rw [components, h, labelled, List.filterMap_cons, List.filterMap_map]
  cases firstComponent? piece (!rest.isEmpty) with
  | none => rfl
  | some component => rfl

/-- A piece that is not empty stands for the same whether or not a slash follows it. -/
lemma firstComponent?_of_ne_nil {piece : List Char} (h : piece ≠ []) (slash : Bool) :
    firstComponent? piece slash = firstComponent? piece false := by
  simp only [firstComponent?, if_neg h]

/-- The components behind a slash do not depend on what stands before it. -/
lemma components_append_slash (path more : List Char) :
    components (path ++ '/' :: more) =
      components (path ++ ['/']) ++ (pieces more).filterMap laterComponent? := by
  obtain ⟨piece, rest, hpieces⟩ := exists_pieces_eq_cons path
  obtain ⟨next, others, hmore⟩ := exists_pieces_eq_cons more
  have hlong : pieces (path ++ '/' :: more) = piece :: (rest ++ pieces more) := by
    rw [pieces_append_slash, hpieces, List.cons_append]
  have hshort : pieces (path ++ ['/']) = piece :: (rest ++ [[]]) := by
    rw [pieces_append_slash, hpieces, List.cons_append]
    rfl
  rw [components_of_pieces hlong, components_of_pieces hshort, List.filterMap_append,
    List.filterMap_append, hmore]
  cases rest with
  | nil => simp [laterComponent?]
  | cons last rest => simp [laterComponent?]

/-- A slash behind a path adds nothing to its components. -/
lemma components_concat_slash {path : List Char} (h : path ≠ []) :
    components (path ++ ['/']) = components path := by
  obtain ⟨piece, rest, hpieces⟩ := exists_pieces_eq_cons path
  have hlong : pieces (path ++ ['/']) = piece :: (rest ++ [[]]) := by
    rw [pieces_append_slash, hpieces, List.cons_append]
    rfl
  have hfirst : firstComponent? piece true = firstComponent? piece (!rest.isEmpty) := by
    cases rest with
    | nil =>
      -- the path is a single piece, which cannot be empty
      have hpath := joinPieces_pieces path
      rw [hpieces] at hpath
      have hpiece : piece = path := by simpa [joinPieces] using hpath
      exact firstComponent?_of_ne_nil (hpiece ▸ h) true
    | cons next rest => rfl
  rw [components_of_pieces hlong, components_of_pieces hpieces, List.filterMap_append, ← hfirst]
  cases rest with
  | nil => simp [laterComponent?]
  | cons last rest => simp [laterComponent?]

namespace IsName

variable {name : List Char}

lemma laterComponent?_eq (h : IsName name) : laterComponent? name = some (.name name) := by
  rw [laterComponent?, if_neg (not_or.2 ⟨h.ne_nil, h.ne_current⟩), if_neg h.ne_parent]

lemma filterMap_pieces (h : IsName name) :
    (pieces name).filterMap laterComponent? = [.name name] := by
  rw [pieces_of_slash_not_mem h.slash_not_mem]
  simp [h.laterComponent?_eq]

end IsName

end Path

/-! ### The path of a place -/

lemma Place.path_eq_joinPieces {place : Place} (h : place ≠ []) :
    place.path = Path.joinPieces ([] :: place) := by
  rw [path, if_neg (by simpa using h), Path.joinPieces_cons, List.nil_append]

/-- The path of a place begins in the root and goes through the names of the place. -/
lemma Place.components_path {place : Place} (h : ∀ name ∈ place, Path.IsName name) :
    Path.components place.path = .root :: place.map .name := by
  by_cases hplace : place = []
  · subst hplace
    rfl
  have hpieces : Path.pieces place.path = [] :: place := by
    rw [path_eq_joinPieces hplace, Path.pieces_joinPieces (by simp)]
    rintro piece hpiece
    rcases List.mem_cons.1 hpiece with rfl | hpiece
    · exact List.not_mem_nil
    · exact (h piece hpiece).slash_not_mem
  have hlater : place.filterMap Path.laterComponent? = place.map .name :=
    List.filterMap_eq_map_iff_forall_eq_some.2 fun name hname => (h name hname).laterComponent?_eq
  rw [Path.components_of_pieces hpieces, hlater]
  cases place with
  | nil => exact absurd rfl hplace
  | cons name place => rfl

end UnitCheck
