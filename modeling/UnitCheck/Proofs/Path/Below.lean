/-
Paths relative to a directory.

A path below a directory is shown without the pieces that lead to the directory.  Pieces that mean
nothing are dropped at both ends, and the others are left as they are spelled.  A piece that is not the
first one stands for the same component wherever it stands, so what is shown has the components that
the directory does not have (`exists_below?_eq_some`), and it is a part of the text of the path.
-/
import Mathlib.Data.List.DropRight
import Mathlib.Data.List.Infix
import UnitCheck.Proofs.Path.Components

namespace UnitCheck

namespace Path

/-- The path neither begins nor ends with a slash or with a piece `.`. -/
structure IsTrimmed (path : List Char) : Prop where
  head_ne_slash : path.head? ≠ some '/'
  getLast_ne_slash : path.getLast? ≠ some '/'
  head_ne_current : (pieces path).head? ≠ some ['.']
  getLast_ne_current : (pieces path).getLast? ≠ some ['.']

/-! ### Dropping pieces -/

lemma filterMap_dropComponents (n : Nat) (ps : List (List Char × Option Component)) :
    (dropComponents n ps).filterMap (·.2) = (ps.filterMap (·.2)).drop n := by
  fun_induction dropComponents n ps with
  | case1 => rfl
  | case2 => rfl
  | case3 n piece ps ih => simpa using ih
  | case4 n piece component ps ih => simpa using ih

lemma dropComponents_suffix (n : Nat) (ps : List (List Char × Option Component)) :
    dropComponents n ps <:+ ps := by
  fun_induction dropComponents n ps with
  | case1 => exact List.suffix_rfl
  | case2 => exact List.suffix_rfl
  | case3 n piece ps ih => exact ih.trans (List.suffix_cons _ _)
  | case4 n piece component ps ih => exact ih.trans (List.suffix_cons _ _)

/-- If a component is dropped, the first piece is. -/
lemma dropComponents_succ_suffix (n : Nat) (first : List Char × Option Component)
    (ps : List (List Char × Option Component)) : dropComponents (n + 1) (first :: ps) <:+ ps := by
  obtain ⟨piece, _ | component⟩ := first
  · exact dropComponents_suffix (n + 1) ps
  · exact dropComponents_suffix n ps

lemma filterMap_dropWhile_isNone (ps : List (List Char × Option Component)) :
    (ps.dropWhile (·.2.isNone)).filterMap (·.2) = ps.filterMap (·.2) := by
  induction ps with
  | nil => rfl
  | cons first ps ih =>
    obtain ⟨piece, _ | component⟩ := first
    · simpa using ih
    · rfl

lemma trimPieces_eq (ps : List (List Char × Option Component)) :
    trimPieces ps = (ps.dropWhile (·.2.isNone)).rdropWhile (·.2.isNone) := rfl

lemma filterMap_trimPieces (ps : List (List Char × Option Component)) :
    (trimPieces ps).filterMap (·.2) = ps.filterMap (·.2) := by
  rw [trimPieces, List.filterMap_reverse, filterMap_dropWhile_isNone, List.filterMap_reverse,
    List.reverse_reverse, filterMap_dropWhile_isNone]

lemma trimPieces_isInfix (ps : List (List Char × Option Component)) : trimPieces ps <:+: ps :=
  (List.rdropWhile_prefix _ _).isInfix.trans (List.dropWhile_suffix _).isInfix

lemma head_trimPieces {ps : List (List Char × Option Component)} {first : List Char × Option Component}
    (h : first ∈ (trimPieces ps).head?) : first.2.isSome := by
  obtain ⟨rest, hrest⟩ := List.rdropWhile_prefix (·.2.isNone) (ps.dropWhile (·.2.isNone))
  have hnot := List.head?_dropWhile_not (·.2.isNone) ps
  rw [← hrest, ← trimPieces_eq, List.head?_append, Option.mem_def.1 h] at hnot
  simpa using hnot

lemma getLast_trimPieces {ps : List (List Char × Option Component)}
    {last : List Char × Option Component} (h : last ∈ (trimPieces ps).getLast?) : last.2.isSome := by
  rw [trimPieces, List.getLast?_reverse] at h
  have hnot := List.head?_dropWhile_not (·.2.isNone) (ps.dropWhile (·.2.isNone)).reverse
  rw [Option.mem_def.1 h] at hnot
  simpa using hnot

/-! ### Pieces behind the first -/

/-- Pieces of a path with their components, the first piece of the path not among them. -/
def AreLater (ps : List (List Char × Option Component)) : Prop :=
  ∀ p ∈ ps, '/' ∉ p.1 ∧ p.2 = laterComponent? p.1

lemma areLater_tail_labelled (path : List Char) : AreLater (labelled (pieces path)).tail := by
  obtain ⟨piece, rest, hpieces⟩ := exists_pieces_eq_cons path
  rw [hpieces, labelled, List.tail_cons]
  rintro p hp
  obtain ⟨later, hlater, rfl⟩ := List.mem_map.1 hp
  exact ⟨slash_not_mem_of_mem_pieces (hpieces ▸ List.mem_cons_of_mem piece hlater), rfl⟩

lemma map_fst_labelled (ps : List (List Char)) : (labelled ps).map (·.1) = ps := by
  cases ps with
  | nil => rfl
  | cons piece rest => simp [labelled, Function.comp_def]

/-- A later piece that means something means the same as a first piece. -/
lemma firstComponent?_eq_laterComponent? {piece : List Char} (h : (laterComponent? piece).isSome)
    (slash : Bool) : firstComponent? piece slash = laterComponent? piece := by
  rw [laterComponent?] at h
  split at h
  · simp at h
  · next hidle =>
    rw [not_or] at hidle
    rw [firstComponent?, if_neg hidle.1, if_neg hidle.2]

lemma AreLater.pieces_joinPieces {ps : List (List Char × Option Component)} (h : AreLater ps)
    (hps : ps ≠ []) : pieces (joinPieces (ps.map (·.1))) = ps.map (·.1) := by
  refine Path.pieces_joinPieces (by simpa using hps) fun piece hpiece => ?_
  obtain ⟨p, hp, rfl⟩ := List.mem_map.1 hpiece
  exact (h p hp).1

/-- Later pieces keep their components when the first of them, which means something, becomes the first
piece of a path. -/
lemma AreLater.components_joinPieces {ps : List (List Char × Option Component)} (h : AreLater ps)
    (hfirst : ∀ first ∈ ps.head?, first.2.isSome) :
    components (joinPieces (ps.map (·.1))) = ps.filterMap (·.2) := by
  cases ps with
  | nil => rfl
  | cons first ps =>
    have hlater : first.2 = laterComponent? first.1 := (h first List.mem_cons_self).2
    have hrest : (ps.map (·.1)).filterMap laterComponent? = ps.filterMap (·.2) := by
      rw [List.filterMap_map]
      exact List.filterMap_congr fun p hp => (h p (List.mem_cons_of_mem first hp)).2.symm
    rw [components_of_pieces (h.pieces_joinPieces (List.cons_ne_nil _ _)), hrest,
      firstComponent?_eq_laterComponent? (hlater ▸ hfirst first rfl), ← hlater, List.filterMap_cons]
    cases first.2 with
    | none => rfl
    | some component => rfl

/-- A path is trimmed if its first and its last piece mean something. -/
lemma isTrimmed_of_pieces {path : List Char}
    (hfirst : ∀ piece ∈ (pieces path).head?, (laterComponent? piece).isSome)
    (hlast : ∀ piece ∈ (pieces path).getLast?, (laterComponent? piece).isSome) : IsTrimmed path where
  head_ne_slash h := by
    obtain ⟨more, rfl⟩ := List.head?_eq_some_iff.1 h
    simpa [laterComponent?] using hfirst [] rfl
  getLast_ne_slash h := by
    obtain ⟨before, rfl⟩ := List.getLast?_eq_some_iff.1 h
    have hempty : (pieces (before ++ ['/'])).getLast? = some [] := by
      rw [pieces_append_slash]
      exact List.getLast?_concat
    simpa [laterComponent?] using hlast [] hempty
  head_ne_current h := by simpa [laterComponent?] using hfirst _ h
  getLast_ne_current h := by simpa [laterComponent?] using hlast _ h

lemma AreLater.isTrimmed_joinPieces {ps : List (List Char × Option Component)} (h : AreLater ps)
    (hfirst : ∀ first ∈ ps.head?, first.2.isSome) (hlast : ∀ last ∈ ps.getLast?, last.2.isSome) :
    IsTrimmed (joinPieces (ps.map (·.1))) := by
  by_cases hps : ps = []
  · subst hps
    exact ⟨by decide, by decide, by decide, by decide⟩
  refine isTrimmed_of_pieces ?_ ?_
  · rw [h.pieces_joinPieces hps, List.head?_map]
    rintro piece hpiece
    obtain ⟨first, hmem, rfl⟩ := Option.map_eq_some_iff.1 hpiece
    rw [← (h first (List.mem_of_head? hmem)).2]
    exact hfirst first hmem
  · rw [h.pieces_joinPieces hps, List.getLast?_map]
    rintro piece hpiece
    obtain ⟨last, hmem, rfl⟩ := Option.map_eq_some_iff.1 hpiece
    rw [← (h last (List.mem_of_getLast? hmem)).2]
    exact hlast last hmem

/-- Pieces that stand together are a part of the text of all of them. -/
lemma joinPieces_isInfix {ps qs : List (List Char)} (h : ps <:+: qs) : joinPieces ps <:+: joinPieces qs := by
  obtain ⟨before, after, rfl⟩ := h
  cases ps with
  | nil => exact List.nil_infix
  | cons piece ps =>
    cases before with
    | nil => exact ⟨[], after.flatMap ('/' :: ·), by simp [joinPieces_cons]⟩
    | cons first before =>
      exact ⟨first ++ before.flatMap ('/' :: ·) ++ ['/'], after.flatMap ('/' :: ·),
        by simp [joinPieces_cons]⟩

/-! ### Below a directory -/

/-- A path that begins with the components of a directory has a path below it: a trimmed part of its
text with the components that remain. -/
lemma exists_below?_eq_some {directory path : List Char} (hdirectory : components directory ≠ [])
    (h : components directory <+: components path) :
    ∃ rest, below? directory path = some rest ∧
      components directory ++ components rest = components path ∧
      IsTrimmed rest ∧ rest <:+: path := by
  set ps := labelled (pieces path) with hps
  set kept := trimPieces (dropComponents (components directory).length ps) with hkept
  -- a component is dropped, so the first piece of the path is
  have hsuffix : dropComponents (components directory).length ps <:+ ps.tail := by
    obtain ⟨piece, rest, hpieces⟩ := exists_pieces_eq_cons path
    obtain ⟨n, hn⟩ := Nat.exists_eq_succ_of_ne_zero (List.length_eq_zero_iff.not.2 hdirectory)
    rw [hn, hps, hpieces, labelled]
    exact dropComponents_succ_suffix n _ _
  have hpart : kept <:+: ps.tail := (trimPieces_isInfix _).trans hsuffix.isInfix
  have hlater : AreLater kept := fun p hp => areLater_tail_labelled path p (hpart.subset hp)
  refine ⟨joinPieces (kept.map (·.1)), by rw [below?, if_pos h], ?_, ?_, ?_⟩
  · rw [hlater.components_joinPieces fun _ => head_trimPieces, hkept, filterMap_trimPieces,
      filterMap_dropComponents]
    exact List.prefix_append_drop h |>.symm
  · exact hlater.isTrimmed_joinPieces (fun _ => head_trimPieces) fun _ => getLast_trimPieces
  · have hpieces : kept.map (·.1) <:+: pieces path := by
      rw [← map_fst_labelled (pieces path)]
      exact (hpart.trans (List.tail_suffix ps).isInfix).map _
    rw [← joinPieces_pieces path]
    exact joinPieces_isInfix hpieces

/-! ### Names that go on -/

lemma IsName.append {name more : List Char} (hname : IsName name) (hmore : more ≠ [])
    (hslash : '/' ∉ more) : IsName (name ++ more) := by
  obtain ⟨c, rest, rfl⟩ := List.exists_cons_of_ne_nil hname.ne_nil
  refine ⟨List.cons_ne_nil _ _, ?_, ?_, ?_⟩
  · rintro h
    exact hmore (List.append_eq_nil_iff.1 (List.cons.inj h).2).2
  · rintro h
    obtain ⟨rfl, htail⟩ := List.cons.inj h
    obtain ⟨rfl, -⟩ | ⟨-, hnil⟩ := List.append_eq_singleton_iff.1 htail
    · exact hname.ne_current rfl
    · exact hmore hnil
  · exact List.not_mem_append hname.slash_not_mem hslash

lemma pieces_append {text more first : List Char} {others : List (List Char)} (htext : '/' ∉ text)
    (hmore : pieces more = first :: others) : pieces (text ++ more) = (text ++ first) :: others := by
  induction text with
  | nil => exact hmore
  | cons c text ih =>
    rw [List.mem_cons, not_or] at htext
    rw [List.cons_append, pieces, if_neg (Ne.symm htext.1), ih htext.2]
    rfl

/-- The first piece of a text that does not begin with a slash is not empty. -/
lemma pieces_head_ne_nil {more first : List Char} {others : List (List Char)} (hmore : more ≠ [])
    (hslash : more.head? ≠ some '/') (hpieces : pieces more = first :: others) : first ≠ [] := by
  rintro rfl
  have htext := joinPieces_pieces more
  rw [hpieces, joinPieces_cons] at htext
  subst htext
  cases others with
  | nil => exact hmore rfl
  | cons next others => exact hslash rfl

/-- A text that goes on after the last name of a directory, but not with a slash, has another name
there and does not begin with the components of the directory. -/
lemma not_components_prefix_append {place : Place} (hplace : ∀ name ∈ place, IsName name)
    (hne : place ≠ []) {more : List Char} (hmore : more ≠ []) (hslash : more.head? ≠ some '/') :
    ¬ components place.path <+: components (place.path ++ more) := by
  obtain ⟨before, name, rfl⟩ : ∃ before name, place = before ++ [name] :=
    ⟨_, _, (List.dropLast_append_getLast hne).symm⟩
  have hname : IsName name := hplace name (by simp)
  obtain ⟨first, others, hpieces⟩ := exists_pieces_eq_cons more
  have hfirst : first ≠ [] := pieces_head_ne_nil hmore hslash hpieces
  have hlonger : IsName (name ++ first) :=
    hname.append hfirst (slash_not_mem_of_mem_pieces (hpieces ▸ List.mem_cons_self))
  have hpath : Place.path (before ++ [name]) = before.flatMap ('/' :: ·) ++ '/' :: name := by
    simp [Place.path]
  rw [hpath, List.append_assoc, List.cons_append, components_append_slash,
    components_append_slash _ (name ++ more), hname.filterMap_pieces,
    pieces_append hname.slash_not_mem hpieces, List.filterMap_cons_some hlonger.laterComponent?_eq,
    List.prefix_append_right_inj, List.cons_prefix_cons]
  rintro ⟨hsame, -⟩
  exact hfirst (List.self_eq_append_right.1 (Component.name.inj hsame))

/-- **A path is shown so that it still names the same file.**

Let `place` be the working directory.  A path is shown with a space in front.  If its components begin
with those of the working directory, what is shown has the other components: behind the working
directory they make up the path again.  It is a part of the path as it is spelled, and neither begins
nor ends with a slash or a piece `.`.  Any other path is shown as it is; so is a path whose text begins
with the working directory but goes on within its last name. -/
theorem shown_names_same_file {place : Place} (hplace : ∀ name ∈ place, IsName name)
    (path : List Char) :
    ∃ rest, shown place.path path = ' ' :: rest ∧
      (components place.path <+: components path →
        components place.path ++ components rest = components path ∧
          IsTrimmed rest ∧ rest <:+: path) ∧
      (¬ components place.path <+: components path → rest = path) ∧
      ∀ more, place ≠ [] → more ≠ [] → more.head? ≠ some '/' → path = place.path ++ more →
        rest = path := by
  have hroot : components place.path ≠ [] := by
    rw [place.components_path hplace]
    exact List.cons_ne_nil _ _
  by_cases h : components place.path <+: components path
  · obtain ⟨rest, hbelow, hrest⟩ := exists_below?_eq_some hroot h
    refine ⟨rest, by rw [shown, hbelow, Option.getD_some], fun _ => hrest, absurd h, ?_⟩
    rintro more hne hmore hslash rfl
    exact absurd h (not_components_prefix_append hplace hne hmore hslash)
  · exact ⟨path, by rw [shown, below?, if_neg h, Option.getD_none], fun h' => absurd h' h,
      fun _ => rfl, fun _ _ _ _ _ => rfl⟩

/-- Below `/a/b`, a path with doubled slashes and one at its end is cut at both ends only; `/a/bc` is not
below it. -/
theorem shown_names_same_file_doubled :
    (∀ name ∈ [['a'], ['b']], IsName name) ∧
      (∃ rest, shown ['/', 'a', '/', 'b'] ['/', 'a', '/', 'b', '/', '/', 'c', '/', '/', 'd', '/'] =
          ' ' :: rest ∧
        rest = ['c', '/', '/', 'd'] ∧
        components ['/', 'a', '/', 'b'] ++ components rest =
          components ['/', 'a', '/', 'b', '/', '/', 'c', '/', '/', 'd', '/'] ∧
        IsTrimmed rest) ∧
      shown ['/', 'a', '/', 'b'] ['/', 'a', '/', 'b', 'c'] = [' ', '/', 'a', '/', 'b', 'c'] := by
  have hplace : ∀ name ∈ [['a'], ['b']], IsName name := by decide
  refine ⟨hplace, ?_, ?_⟩
  · obtain ⟨rest, hshown, hbelow, -⟩ :=
      shown_names_same_file hplace ['/', 'a', '/', 'b', '/', '/', 'c', '/', '/', 'd', '/']
    obtain ⟨hcomponents, htrimmed, -⟩ := hbelow (by decide)
    exact ⟨rest, hshown, (List.cons.inj hshown).2.symm.trans (by decide), hcomponents, htrimmed⟩
  · obtain ⟨rest, hshown, -, -, hnext⟩ := shown_names_same_file hplace ['/', 'a', '/', 'b', 'c']
    exact hshown.trans (congrArg _ (hnext ['c'] (by decide) (by decide) (by decide) rfl))

end Path

end UnitCheck
