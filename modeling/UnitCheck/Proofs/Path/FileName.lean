/-
The file name and the parent of a path, by its components.

Both are read off the end of the text, where slashes and pieces `.` are passed over.  What is passed over
has no components (`laterComponents_skipIdle`), and the piece in which the text then ends has one.  So the
file name is the last component, if that is a name (`fileName?_eq`), and the parent has the components
before the last (`components_parent`).
-/
import UnitCheck.Path.FileName
import UnitCheck.Proofs.Path.Below

namespace UnitCheck

/-- The text of a component that is a name. -/
def Component.name? : Component → Option (List Char)
  | .name text => some text
  | _ => none

namespace Path

/-- The components of a text that stands behind the start of a path. -/
def laterComponents (text : List Char) : List Component :=
  (pieces text).filterMap laterComponent?

lemma laterComponents_nil : laterComponents [] = [] := rfl

lemma laterComponents_append_slash (text more : List Char) :
    laterComponents (text ++ '/' :: more) = laterComponents text ++ laterComponents more := by
  rw [laterComponents, pieces_append_slash, List.filterMap_append]
  rfl

lemma laterComponents_of_pieces {text piece : List Char} {rest : List (List Char)}
    (h : pieces text = piece :: rest) :
    laterComponents text = (laterComponent? piece).toList ++ rest.filterMap laterComponent? := by
  rw [laterComponents, h, List.filterMap_cons]
  cases laterComponent? piece with
  | none => rfl
  | some component => rfl

lemma laterComponents_of_slash_not_mem {piece : List Char} (h : '/' ∉ piece) :
    laterComponents piece = (laterComponent? piece).toList := by
  rw [laterComponents_of_pieces (pieces_of_slash_not_mem h)]
  exact List.append_nil _

/-! ### The start of a path -/

/-- A path that begins neither with a slash nor with a piece `.` has no start of its own. -/
lemma components_eq_laterComponents {path : List Char} (hslash : path.head? ≠ some '/')
    (hcurrent : (pieces path).head? ≠ some ['.']) : components path = laterComponents path := by
  by_cases hpath : path = []
  · subst hpath
    rfl
  obtain ⟨piece, rest, hpieces⟩ := exists_pieces_eq_cons path
  have hne : piece ≠ [] := pieces_head_ne_nil hpath hslash hpieces
  have hdot : piece ≠ ['.'] := by
    rintro rfl
    exact hcurrent (by rw [hpieces]; rfl)
  rw [components_of_pieces hpieces, firstComponent?, if_neg hne, if_neg hdot,
    laterComponents_of_pieces hpieces]

/-- A path has the components of its start and those of its body. -/
lemma components_eq_start_append (path : List Char) :
    components path = components (splitStart path).1 ++ laterComponents (splitStart path).2 := by
  fun_cases splitStart path with
  | case1 body => exact components_append_slash [] body
  | case2 => rfl
  | case3 body =>
    have hbody : laterComponents ('/' :: body) = laterComponents body :=
      laterComponents_append_slash [] body
    rw [hbody]
    exact components_append_slash ['.'] body
  | case4 body hroot hdot hcurrent =>
    refine components_eq_laterComponents (fun hhead => ?_) fun hhead => ?_
    · obtain ⟨body, hbody⟩ := List.head?_eq_some_iff.1 hhead
      exact hroot body hbody
    · obtain ⟨rest, hpieces⟩ := List.head?_eq_some_iff.1 hhead
      have hpath := joinPieces_pieces path
      rw [hpieces, joinPieces_cons] at hpath
      cases rest with
      | nil => exact hdot hpath.symm
      | cons next rest => exact hcurrent _ hpath.symm

/-! ### The end of a path -/

/-- What is passed over at the end of a text has no components. -/
lemma laterComponents_skipIdle (back : List Char) :
    laterComponents (skipIdle back).reverse = laterComponents back.reverse := by
  fun_induction skipIdle back with
  | case1 back ih =>
    rw [ih, List.reverse_cons, laterComponents_append_slash, laterComponents_nil, List.append_nil]
  | case2 => rfl
  | case3 back ih =>
    rw [ih, List.reverse_cons, List.reverse_cons, List.append_assoc, List.singleton_append,
      laterComponents_append_slash]
    exact (List.append_nil _).symm
  | case4 => rfl

lemma skipIdle_suffix (back : List Char) : skipIdle back <:+ back := by
  fun_induction skipIdle back with
  | case1 back ih => exact ih.trans (List.suffix_cons _ _)
  | case2 => exact List.nil_suffix
  | case3 back ih => exact ih.trans ((List.suffix_cons _ _).trans (List.suffix_cons _ _))
  | case4 back => exact List.suffix_rfl

/-- If something is left behind a slash, it begins behind a slash. -/
lemma slash_cons_skipIdle_suffix {back : List Char} (h : skipIdle back ≠ []) :
    '/' :: skipIdle back <:+ '/' :: back := by
  fun_induction skipIdle back with
  | case1 back ih => exact (ih h).trans (List.suffix_cons _ _)
  | case2 => exact absurd rfl h
  | case3 back ih => exact (ih h).trans ((List.suffix_cons _ _).trans (List.suffix_cons _ _))
  | case4 back => exact List.suffix_rfl

/-- What is left begins with a piece that means something. -/
lemma exists_laterComponent?_skipIdle {back : List Char} (h : skipIdle back ≠ []) :
    ∃ component, laterComponent? ((skipIdle back).takeWhile (· != '/')).reverse = some component := by
  fun_induction skipIdle back with
  | case1 back ih => exact ih h
  | case2 => exact absurd rfl h
  | case3 back ih => exact ih h
  | case4 back hslash hdot hcurrent =>
    obtain ⟨c, rest, rfl⟩ := List.exists_cons_of_ne_nil h
    have hc : (c != '/') = true := bne_iff_ne.2 fun hc => hslash rest (by rw [hc])
    rw [List.takeWhile_cons, if_pos hc, List.reverse_cons, laterComponent?, if_neg]
    · split
      · exact ⟨_, rfl⟩
      · exact ⟨_, rfl⟩
    · rintro (hnil | hone)
      · exact absurd hnil (by simp)
      · -- a piece `.` would have been passed over
        obtain ⟨hrest, rfl⟩ : (rest.takeWhile (· != '/')).reverse = [] ∧ c = '.' := by
          simpa [List.append_eq_singleton_iff] using hone
        cases rest with
        | nil => exact hdot rfl
        | cons d rest =>
          by_cases hd : d = '/'
          · exact hcurrent rest (by rw [hd])
          · simp [hd] at hrest

/-- Behind the first piece of a text that is read backwards comes a slash, if anything. -/
lemma dropWhile_eq_nil_or_slash (back : List Char) :
    back.dropWhile (· != '/') = [] ∨ ∃ before, back.dropWhile (· != '/') = '/' :: before := by
  have hhead := List.head?_dropWhile_not (· != '/') back
  rcases hrest : back.dropWhile (· != '/') with _ | ⟨c, before⟩
  · exact Or.inl rfl
  · rw [hrest] at hhead
    obtain rfl : c = '/' := by simpa using hhead
    exact Or.inr ⟨before, rfl⟩

/-- A text that is read backwards has the component of its first piece behind those of what is left
without it. -/
lemma laterComponents_reverse {back : List Char} {component : Component}
    (h : laterComponent? (back.takeWhile (· != '/')).reverse = some component) :
    laterComponents back.reverse =
      laterComponents (skipIdle (back.dropWhile (· != '/'))).reverse ++ [component] := by
  set piece := (back.takeWhile (· != '/')).reverse with hpiece
  have hmem : '/' ∉ piece := by
    intro hmem
    exact absurd (List.mem_takeWhile_imp (List.mem_reverse.1 hmem)) (by simp)
  have hback : back.reverse = (back.dropWhile (· != '/')).reverse ++ piece := by
    rw [hpiece, ← List.reverse_append, List.takeWhile_append_dropWhile]
  have hlast : laterComponents piece = [component] := by
    rw [laterComponents_of_slash_not_mem hmem, h]
    rfl
  rw [hback, laterComponents_skipIdle]
  rcases dropWhile_eq_nil_or_slash back with hrest | ⟨before, hrest⟩
  · rw [hrest]
    exact hlast
  · rw [hrest, List.reverse_cons, List.append_assoc, List.singleton_append, laterComponents_append_slash, hlast,
      laterComponents_append_slash, laterComponents_nil, List.append_nil]

/-! ### The file name and the parent -/

lemma splitStart_append (path : List Char) : (splitStart path).1 ++ (splitStart path).2 = path := by
  fun_cases splitStart path with
  | case1 body => rfl
  | case2 => rfl
  | case3 body => rfl
  | case4 body => rfl

/-- The start of a path has at most one component, which is no name. -/
lemma components_start (path : List Char) :
    (components (splitStart path).1).dropLast = [] ∧
      (components (splitStart path).1).getLast?.bind Component.name? = none := by
  fun_cases splitStart path with
  | case1 body => exact ⟨rfl, rfl⟩
  | case2 => exact ⟨rfl, rfl⟩
  | case3 body => exact ⟨rfl, rfl⟩
  | case4 body => exact ⟨rfl, rfl⟩

lemma laterComponents_bodyFromEnd (path : List Char) :
    laterComponents (bodyFromEnd path).reverse = laterComponents (splitStart path).2 := by
  rw [bodyFromEnd, laterComponents_skipIdle, List.reverse_reverse]

/-- A path whose body means nothing has the components of its start. -/
lemma components_of_bodyFromEnd_eq_nil {path : List Char} (h : bodyFromEnd path = []) :
    components path = components (splitStart path).1 := by
  rw [components_eq_start_append, ← laterComponents_bodyFromEnd, h]
  exact List.append_nil _

/-- A body that means something ends in a component. -/
lemma exists_last_of_bodyFromEnd {path : List Char} (h : bodyFromEnd path ≠ []) :
    ∃ component,
      laterComponent? ((bodyFromEnd path).takeWhile (· != '/')).reverse = some component ∧
      laterComponents (splitStart path).2 =
        laterComponents (skipIdle ((bodyFromEnd path).dropWhile (· != '/'))).reverse ++ [component] := by
  obtain ⟨component, hcomponent⟩ := exists_laterComponent?_skipIdle h
  refine ⟨component, hcomponent, ?_⟩
  rw [← laterComponents_bodyFromEnd]
  exact laterComponents_reverse hcomponent

/-- Of the pieces that mean something, all but the one for the directory above are names. -/
lemma name?_of_laterComponent? {piece : List Char} {component : Component}
    (h : laterComponent? piece = some component) :
    component.name? = if piece = [] ∨ piece = ['.', '.'] then none else some piece := by
  rw [laterComponent?] at h
  split at h
  · exact absurd h (by simp)
  next hidle =>
    rw [not_or] at hidle
    split at h
    next hparent =>
      obtain rfl := Option.some.inj h
      rw [if_pos (.inr hparent)]
      rfl
    next hname =>
      obtain rfl := Option.some.inj h
      rw [if_neg (not_or.2 ⟨hidle.1, hname⟩)]
      rfl

/-- The file name is the last component, if that is a name. -/
lemma fileName?_eq (path : List Char) :
    fileName? path = (components path).getLast?.bind Component.name? := by
  by_cases h : bodyFromEnd path = []
  · rw [components_of_bodyFromEnd_eq_nil h, (components_start path).2, fileName?, h]
    rfl
  · obtain ⟨component, hcomponent, hbody⟩ := exists_last_of_bodyFromEnd h
    rw [components_eq_start_append, hbody, ← List.append_assoc, List.getLast?_concat, Option.bind_some,
      name?_of_laterComponent? hcomponent, fileName?]

/-- The body without its last component is a part of the body that ends in front of a slash. -/
lemma exists_append_slash {path : List Char}
    (h : skipIdle ((bodyFromEnd path).dropWhile (· != '/')) ≠ []) :
    ∃ more, (splitStart path).2 =
      (skipIdle ((bodyFromEnd path).dropWhile (· != '/'))).reverse ++ '/' :: more := by
  obtain ⟨before, hbefore⟩ := (dropWhile_eq_nil_or_slash (bodyFromEnd path)).resolve_left
    fun hnil => h (by rw [hnil]; rfl)
  have hsuffix : '/' :: skipIdle before <:+ (splitStart path).2.reverse := by
    rw [hbefore] at h
    calc '/' :: skipIdle before <:+ '/' :: before := slash_cons_skipIdle_suffix h
      _ <:+ bodyFromEnd path := hbefore ▸ List.dropWhile_suffix _
      _ <:+ (splitStart path).2.reverse := skipIdle_suffix _
  obtain ⟨idle, hidle⟩ := hsuffix
  refine ⟨idle.reverse, ?_⟩
  rw [hbefore, ← List.reverse_reverse (splitStart path).2, ← hidle]
  simp [skipIdle]

/-- The parent has the components before the last.  A path without a parent has no two components. -/
lemma components_parent (path : List Char) :
    components ((parent? path).getD []) = (components path).dropLast := by
  by_cases h : bodyFromEnd path = []
  · have hnil : (parent? path).getD [] = [] := by
      rw [parent?, if_pos h]
      split
      · rfl
      · rfl
    rw [hnil, components_of_bodyFromEnd_eq_nil h, (components_start path).1]
    rfl
  · obtain ⟨component, -, hbody⟩ := exists_last_of_bodyFromEnd h
    rw [parent?, if_neg h, Option.getD_some]
    set before := (skipIdle ((bodyFromEnd path).dropWhile (· != '/'))).reverse with hbefore
    by_cases hnil : before = []
    · rw [components_eq_start_append path, hbody, hnil, List.append_nil, laterComponents_nil,
        List.nil_append, List.dropLast_concat]
    · obtain ⟨more, hmore⟩ := exists_append_slash fun hskip => hnil (by rw [hbefore, hskip]; rfl)
      rw [← hbefore] at hmore
      -- the last component is all that stands behind the slash
      have hlast : laterComponents more = [component] := by
        rw [hmore, laterComponents_append_slash] at hbody
        exact List.append_cancel_left hbody
      have hpath : components path = components ((splitStart path).1 ++ before) ++ [component] := by
        conv_lhs => rw [← splitStart_append path, hmore, ← List.append_assoc, components_append_slash]
        rw [components_concat_slash (by simp [hnil]), ← hlast]
        rfl
      rw [hpath, List.dropLast_concat]

lemma fileName?_eq_some_iff {path name : List Char} :
    fileName? path = some name ↔ ∃ before, components path = before ++ [.name name] := by
  rw [fileName?_eq, Option.bind_eq_some_iff]
  constructor
  · rintro ⟨component, hlast, hname⟩
    cases component with
    | name text =>
      obtain rfl : text = name := Option.some.inj hname
      exact List.getLast?_eq_some_iff.1 hlast
    | root => exact absurd hname (by simp [Component.name?])
    | current => exact absurd hname (by simp [Component.name?])
    | parent => exact absurd hname (by simp [Component.name?])
  · rintro ⟨before, hbefore⟩
    exact ⟨.name name, List.getLast?_eq_some_iff.2 ⟨before, hbefore⟩, rfl⟩

/-- The file name of the parent is that of a path with the components before the last. -/
lemma bind_parent?_fileName? (path : List Char) :
    (parent? path).bind fileName? = fileName? ((parent? path).getD []) := by
  cases parent? path with
  | none => rfl
  | some parent => rfl

end Path

end UnitCheck
