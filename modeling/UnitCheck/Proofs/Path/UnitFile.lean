/-
Unit files are known by the last two components of their paths.

The extension of a name stands behind its last dot, if something stands before that dot
(`extension?_eq_some_iff`).  With the file name and the parent by components, this says which paths name
unit files.  How a path is spelled does not matter, since it does not matter for the components.
-/
import UnitCheck.Path.UnitFile
import UnitCheck.Proofs.Path.FileName

namespace UnitCheck

namespace Path

/-! ### Extensions -/

lemma bne_dot_of_mem_reverse {text : List Char} (h : '.' ∉ text) :
    ∀ c ∈ text.reverse, (c != '.') = true := by
  intro c hc
  rw [bne_iff_ne]
  rintro rfl
  exact h (List.mem_reverse.1 hc)

/-- The extension stands behind the last dot, unless nothing stands before the dot. -/
lemma extension?_append_dot (stem : List Char) {extension : List Char} (h : '.' ∉ extension) :
    extension? (stem ++ '.' :: extension) = if stem = [] then none else some extension := by
  have hall := bne_dot_of_mem_reverse h
  have hreverse : (stem ++ '.' :: extension).reverse = extension.reverse ++ '.' :: stem.reverse := by
    simp
  have hdrop : (extension.reverse ++ '.' :: stem.reverse).dropWhile (· != '.') = '.' :: stem.reverse := by
    rw [List.dropWhile_append_of_pos hall]
    rfl
  have htake : (extension.reverse ++ '.' :: stem.reverse).takeWhile (· != '.') = extension.reverse := by
    rw [List.takeWhile_append_of_pos hall]
    exact List.append_nil _
  rw [extension?, hreverse, hdrop, htake, List.reverse_reverse]
  induction stem using List.reverseRecOn with
  | nil => rfl
  | append_singleton stem c => simp

lemma extension?_of_dot_not_mem {name : List Char} (h : '.' ∉ name) : extension? name = none := by
  rw [extension?, List.dropWhile_eq_nil_iff.2 (bne_dot_of_mem_reverse h)]

/-- A name with a dot falls into two parts at its last dot. -/
lemma exists_append_dot {name : List Char} (h : '.' ∈ name) :
    ∃ stem extension, name = stem ++ '.' :: extension ∧ '.' ∉ extension := by
  obtain ⟨front, rest, hreverse, hfront⟩ := List.eq_append_cons_of_mem (List.mem_reverse.2 h)
  refine ⟨rest.reverse, front.reverse, ?_, fun hmem => hfront (List.mem_reverse.1 hmem)⟩
  rw [← List.reverse_reverse name, hreverse]
  simp

lemma extension?_eq_some_iff {name extension : List Char} :
    extension? name = some extension ↔
      ∃ stem, name = stem ++ '.' :: extension ∧ stem ≠ [] ∧ '.' ∉ extension := by
  constructor
  · intro h
    have hmem : '.' ∈ name := by
      by_contra hmem
      rw [extension?_of_dot_not_mem hmem] at h
      exact absurd h (by simp)
    obtain ⟨stem, behind, rfl, hbehind⟩ := exists_append_dot hmem
    rw [extension?_append_dot stem hbehind] at h
    split at h
    · exact absurd h (by simp)
    next hstem =>
      obtain rfl := Option.some.inj h
      exact ⟨stem, rfl, hstem, hbehind⟩
  · rintro ⟨stem, rfl, hstem, hextension⟩
    rw [extension?_append_dot stem hextension, if_neg hstem]

/-! ### The last two components -/

lemma isDropInDirectory_iff {name : List Char} :
    isDropInDirectory name ↔ ∃ front, name = front ++ ['.', 'd'] := by
  rw [isDropInDirectory, List.isSuffixOf_iff_suffix]
  exact ⟨fun ⟨front, h⟩ => ⟨front, h.symm⟩, fun ⟨front, h⟩ => ⟨front, h.symm⟩⟩

lemma mem_map_toList_iff {texts : List String} {text : List Char} :
    text ∈ texts.map (·.toList) ↔ String.ofList text ∈ texts := by
  rw [List.mem_map]
  constructor
  · rintro ⟨listed, hlisted, rfl⟩
    rwa [String.ofList_toList]
  · intro h
    exact ⟨_, h, String.toList_ofList⟩

/-- A unit file by the extension of its name and by the name of its parent. -/
lemma isUnitFile_iff (path : List Char) :
    isUnitFile path ↔ ∃ extension, (fileName? path).bind extension? = some extension ∧
      (String.ofList extension ∈ unitExtensions ∨ extension = "conf".toList ∧
        ∃ directory, (parent? path).bind fileName? = some directory ∧ isDropInDirectory directory) := by
  rw [isUnitFile]
  cases (fileName? path).bind extension? with
  | none => simp
  | some extension =>
    simp only [Bool.or_eq_true, Bool.and_eq_true, List.contains_iff_mem, mem_map_toList_iff, beq_iff_eq,
      Option.any_eq_true, Option.some.injEq, exists_eq_left']
    rfl

/-- The extension of the file name by components. -/
lemma bind_fileName?_extension?_eq_some_iff {path extension : List Char} :
    (fileName? path).bind extension? = some extension ↔
      ∃ before stem, components path = before ++ [.name (stem ++ '.' :: extension)] ∧ stem ≠ [] ∧
        '.' ∉ extension := by
  simp only [Option.bind_eq_some_iff, fileName?_eq_some_iff, extension?_eq_some_iff]
  constructor
  · rintro ⟨name, ⟨before, hpath⟩, stem, rfl, hstem, hextension⟩
    exact ⟨before, stem, hpath, hstem, hextension⟩
  · rintro ⟨before, stem, hpath, hstem, hextension⟩
    exact ⟨_, ⟨before, hpath⟩, stem, rfl, hstem, hextension⟩

/-- The file name of the parent is the component before the last. -/
lemma bind_parent?_fileName?_eq_some_iff {path directory : List Char} {before : List Component}
    {last : Component} (h : components path = before ++ [last]) :
    (parent? path).bind fileName? = some directory ↔ ∃ earlier, before = earlier ++ [.name directory] := by
  rw [bind_parent?_fileName?, fileName?_eq_some_iff, components_parent, h, List.dropLast_concat]

/-- A unit file by the components of its path. -/
lemma isUnitFile_iff_components (path : List Char) :
    isUnitFile path ↔ ∃ before stem extension,
      components path = before ++ [.name (stem ++ '.' :: extension)] ∧ stem ≠ [] ∧ '.' ∉ extension ∧
        (String.ofList extension ∈ unitExtensions ∨ extension = "conf".toList ∧
          ∃ earlier directory, before = earlier ++ [.name (directory ++ ".d".toList)]) := by
  rw [isUnitFile_iff]
  constructor
  · rintro ⟨extension, hextension, hkind⟩
    obtain ⟨before, stem, hpath, hstem, hdot⟩ := bind_fileName?_extension?_eq_some_iff.1 hextension
    refine ⟨before, stem, extension, hpath, hstem, hdot, hkind.imp_right ?_⟩
    rintro ⟨rfl, directory, hdirectory, hdropIn⟩
    obtain ⟨earlier, hearlier⟩ := (bind_parent?_fileName?_eq_some_iff hpath).1 hdirectory
    obtain ⟨front, rfl⟩ := isDropInDirectory_iff.1 hdropIn
    exact ⟨rfl, earlier, front, hearlier⟩
  · rintro ⟨before, stem, extension, hpath, hstem, hdot, hkind⟩
    have hextension : (fileName? path).bind extension? = some extension :=
      bind_fileName?_extension?_eq_some_iff.2 ⟨before, stem, hpath, hstem, hdot⟩
    refine ⟨extension, hextension, hkind.imp_right ?_⟩
    rintro ⟨rfl, earlier, front, hearlier⟩
    exact ⟨rfl, _, (bind_parent?_fileName?_eq_some_iff hpath).2 ⟨earlier, hearlier⟩,
      isDropInDirectory_iff.2 ⟨front, rfl⟩⟩

/-- Whether a path names a unit file depends only on its last component and on the one before that. -/
lemma isUnitFile_congr {path path' : List Char}
    (hlast : (components path).getLast? = (components path').getLast?)
    (hbefore : (components path).dropLast.getLast? = (components path').dropLast.getLast?) :
    isUnitFile path = isUnitFile path' := by
  have hname : fileName? path = fileName? path' := by rw [fileName?_eq, hlast, ← fileName?_eq]
  have hdirectory : (parent? path).bind fileName? = (parent? path').bind fileName? := by
    rw [bind_parent?_fileName?, bind_parent?_fileName?, fileName?_eq, fileName?_eq, components_parent,
      components_parent, hbefore]
  rw [isUnitFile, hname, hdirectory, ← isUnitFile]

/-! ### Other spellings -/

lemma isUnitFile_of_components_eq {path path' : List Char} (h : components path = components path') :
    isUnitFile path = isUnitFile path' :=
  isUnitFile_congr (by rw [h]) (by rw [h])

/-- Behind a slash, only what means something matters. -/
lemma isUnitFile_append_slash_congr (path : List Char) {more more' : List Char}
    (h : laterComponents more = laterComponents more') :
    isUnitFile (path ++ '/' :: more) = isUnitFile (path ++ '/' :: more') := by
  refine isUnitFile_of_components_eq ?_
  rw [components_append_slash, components_append_slash path more']
  exact congrArg _ h

lemma isUnitFile_concat_slash (path : List Char) : isUnitFile (path ++ ['/']) = isUnitFile path := by
  by_cases hpath : path = []
  · subst hpath
    rfl
  · exact isUnitFile_of_components_eq (components_concat_slash hpath)

/-- **A unit file is known by the last two components of its path, however the path is spelled.**

The last component must be a name with a dot that is not its first character.  What stands behind its
last dot is the extension of a unit file, or it is `conf` and the component before is a name that
ends in `.d`.  So paths with the same components agree, and so do paths of two or more components that
end in the same two.  In particular it does not matter whether slashes are doubled, whether there are
pieces `.` behind slashes, or whether the path ends in a slash. -/
theorem unit_file_known_by_last_two_components :
    (∀ path, isUnitFile path ↔ ∃ before stem extension,
      components path = before ++ [.name (stem ++ '.' :: extension)] ∧ stem ≠ [] ∧ '.' ∉ extension ∧
        (String.ofList extension ∈ unitExtensions ∨ extension = "conf".toList ∧
          ∃ earlier directory, before = earlier ++ [.name (directory ++ ".d".toList)])) ∧
    (∀ path path', components path = components path' → isUnitFile path = isUnitFile path') ∧
    (∀ path path' before before' directory last, components path = before ++ [directory, last] →
      components path' = before' ++ [directory, last] → isUnitFile path = isUnitFile path') ∧
    (∀ path more,
      isUnitFile (path ++ '/' :: '/' :: more) = isUnitFile (path ++ '/' :: more) ∧
      isUnitFile (path ++ '/' :: '.' :: '/' :: more) = isUnitFile (path ++ '/' :: more)) ∧
    ∀ path, isUnitFile (path ++ ['/']) = isUnitFile path ∧
      isUnitFile (path ++ ['/', '.']) = isUnitFile path := by
  refine ⟨isUnitFile_iff_components, fun path path' => isUnitFile_of_components_eq, ?_,
    fun path more => ⟨?_, ?_⟩, fun path => ⟨isUnitFile_concat_slash path, ?_⟩⟩
  · intro path path' before before' directory last hpath hpath'
    refine isUnitFile_congr ?_ ?_
    · simp [hpath, hpath']
    · simp [hpath, hpath']
  · exact isUnitFile_append_slash_congr path (laterComponents_append_slash [] more)
  · exact isUnitFile_append_slash_congr path (laterComponents_append_slash ['.'] more)
  · have hdot : isUnitFile (path ++ ['/', '.']) = isUnitFile (path ++ ['/']) :=
      isUnitFile_append_slash_congr path rfl
    rw [hdot, isUnitFile_concat_slash]

/-- Settings dropped into a directory, spelled with doubled slashes and pieces `.`, agree with the same
settings below another directory.  Settings behind a piece `..` are not in such a directory. -/
theorem unit_file_known_by_last_two_components_respelled :
    components "//e/./u.d//s.conf/.".toList =
        [.root, .name ['e']] ++ [.name "u.d".toList, .name "s.conf".toList] ∧
      components "../u.d/s.conf".toList =
        [.parent] ++ [.name "u.d".toList, .name "s.conf".toList] ∧
      isUnitFile "//e/./u.d//s.conf/.".toList = isUnitFile "../u.d/s.conf".toList ∧
      isUnitFile "../u.d/s.conf".toList ∧ ¬ isUnitFile "u.d/../s.conf".toList := by
  obtain ⟨hiff, -, hlast, -⟩ := unit_file_known_by_last_two_components
  have hlong : components "//e/./u.d//s.conf/.".toList =
      [.root, .name ['e']] ++ [.name "u.d".toList, .name "s.conf".toList] := by decide
  have hshort : components "../u.d/s.conf".toList =
      [.parent] ++ [.name "u.d".toList, .name "s.conf".toList] := by decide
  refine ⟨hlong, hshort, hlast _ _ _ _ _ _ hlong hshort, ?_, by decide⟩
  exact (hiff _).2 ⟨_, ['s'], "conf".toList, hshort, by decide, by decide,
    .inr ⟨rfl, [.parent], ['u'], rfl⟩⟩

end Path

end UnitCheck
