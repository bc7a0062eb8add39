/-
Results in any order.

The inputs of a check are read and judged on their own, and their results come in any order.  Each
result carries the number of its input, so sorting brings them into the order of the inputs
(`gather_of_perm_numbered`).  The first failure that comes ends the gathering
(`exists_gather_eq_error`).  What an input is read as does not depend on the others, as long as only
one of them asks for the standard input (`readAll_eq_map_read`).
-/
import Mathlib.Data.List.Forall2
import Mathlib.Data.List.Nodup
import Mathlib.Data.List.Perm.Basic
import Mathlib.Data.Set.List
import UnitCheck.Command.Check

namespace UnitCheck

/-! ### Reading -/

namespace UnitInput

/-- The name under which an input is shown. -/
def name : UnitInput → String
  | standardInput => "<stdin>"
  | file path => String.ofList path

/-- The bytes of an input, if the whole standard input is there for it. -/
def bytes (tree : FileTree) (workingDirectory : Place) (contents : StandardInput) :
    UnitInput → Except ReadError (List UInt8)
  | standardInput => contents
  | file path => (tree.read workingDirectory path).mapError .access

/-- What an input is read as: its decoded bytes under its name, or a failure that names it. -/
def read (tree : FileTree) (workingDirectory : Place) (contents : StandardInput)
    (input : UnitInput) : Except Failure Source :=
  match input.bytes tree workingDirectory contents with
  | .ok bytes => .ok ⟨input.name, String.ofList (Utf8.decode bytes), Utf8.isDamaged bytes⟩
  | .error error => .error (.read input.name error)

variable {tree : FileTree} {workingDirectory : Place} {inputs : List UnitInput}

lemma ofStandardInput_eq_read (contents : StandardInput) :
    Source.ofStandardInput contents = standardInput.read tree workingDirectory contents := by
  cases contents with
  | ok bytes => rfl
  | error error => rfl

lemma ofFile_eq_read (contents : StandardInput) (path : List Char) :
    Source.ofFile tree workingDirectory path =
      (file path).read tree workingDirectory contents := by
  rw [Source.ofFile, read, bytes]
  cases tree.read workingDirectory path with
  | ok bytes => rfl
  | error error => rfl

/-- Files are read in the same way whatever the standard input holds. -/
lemma readAll_of_not_mem (h : standardInput ∉ inputs) (contents contents' : StandardInput) :
    readAll tree workingDirectory contents inputs =
      inputs.map (read tree workingDirectory contents') := by
  induction inputs with
  | nil => rfl
  | cons input inputs ih =>
    rw [List.mem_cons, not_or] at h
    cases input with
    | standardInput => exact absurd rfl h.1
    | file path => rw [readAll, ih h.2, List.map_cons, ofFile_eq_read contents']

/-- If at most one input asks for the standard input, each is read on its own. -/
lemma readAll_eq_map_read (h : inputs.count standardInput ≤ 1) (contents : StandardInput) :
    readAll tree workingDirectory contents inputs =
      inputs.map (read tree workingDirectory contents) := by
  induction inputs with
  | nil => rfl
  | cons input inputs ih =>
    cases input with
    | standardInput =>
      -- it takes all that is there, but none of the inputs behind it asks for it
      have hnone : standardInput ∉ inputs := by
        rw [List.count_cons_self] at h
        exact List.count_eq_zero.1 (by omega)
      rw [readAll, readAll_of_not_mem hnone _ contents, List.map_cons, ofStandardInput_eq_read]
    | file path =>
      rw [List.count_cons_of_ne (by simp)] at h
      rw [readAll, ih h, List.map_cons, ofFile_eq_read contents]

end UnitInput

namespace Check

/-! ### Gathering -/

/-- A run through results that are all there keeps them all. -/
lemma mapM_id_map_ok {α : Type} (values : List α) :
    (values.map Except.ok : List (Except Failure α)).mapM id = .ok values := by
  induction values with
  | nil => rfl
  | cons value values ih =>
    rw [List.map_cons, List.mapM_cons, ih]
    rfl

/-- A run through results with a failure among them ends with one of the failures. -/
lemma exists_mapM_id_eq_error {α : Type} {results : List (Except Failure α)}
    (h : ∃ failure, Except.error failure ∈ results) :
    ∃ failure, Except.error failure ∈ results ∧ results.mapM id = .error failure := by
  induction results with
  | nil =>
    obtain ⟨failure, hmem⟩ := h
    exact absurd hmem List.not_mem_nil
  | cons result results ih =>
    cases result with
    | error failure =>
      refine ⟨failure, List.mem_cons_self, ?_⟩
      rw [List.mapM_cons]
      rfl
    | ok value =>
      have hrest : ∃ failure, Except.error failure ∈ results := by
        obtain ⟨failure, hmem⟩ := h
        rcases List.mem_cons.1 hmem with heq | hmem
        · exact absurd heq (by simp)
        · exact ⟨failure, hmem⟩
      obtain ⟨failure, hmem, heq⟩ := ih hrest
      refine ⟨failure, List.mem_cons_of_mem _ hmem, ?_⟩
      rw [List.mapM_cons, heq]
      rfl

lemma exists_gather_eq_error {results : List Delivery}
    (h : ∃ failure, Except.error failure ∈ results) :
    ∃ failure, Except.error failure ∈ results ∧ gather results = .error failure := by
  obtain ⟨failure, hmem, heq⟩ := exists_mapM_id_eq_error h
  refine ⟨failure, hmem, ?_⟩
  rw [gather, heq]
  rfl

/-- Results without a failure are values. -/
lemma exists_eq_map_ok {α : Type} {results : List (Except Failure α)}
    (h : ∀ result ∈ results, ∃ value, result = .ok value) :
    ∃ values : List α, results = values.map .ok := by
  have hrange : results ∈ Set.range (List.map (Except.ok : α → Except Failure α)) := by
    rw [Set.range_list_map]
    intro result hresult
    obtain ⟨value, rfl⟩ := h result hresult
    exact ⟨value, rfl⟩
  obtain ⟨values, rfl⟩ := hrange
  exact ⟨values, rfl⟩

/-- Values that come in another order are the same values in another order. -/
lemma exists_eq_map_ok_of_perm {α : Type} {results : List (Except Failure α)} {values : List α}
    (h : results.Perm (values.map .ok)) :
    ∃ values' : List α, results = values'.map .ok ∧ values'.Perm values := by
  obtain ⟨values', rfl⟩ : ∃ values' : List α, results = values'.map .ok := by
    refine exists_eq_map_ok fun result hresult => ?_
    obtain ⟨value, -, heq⟩ := List.mem_map.1 (h.subset hresult)
    exact ⟨value, heq.symm⟩
  exact ⟨values', rfl, (List.map_perm_map_iff fun _ _ heq => Except.ok.inj heq).1 h⟩

/-- Sorting brings values that carry different numbers into the order of the numbers. -/
lemma mergeSort_eq_of_perm {α : Type} {values numbered : List (Nat × α)}
    (hperm : values.Perm numbered) (hincreasing : numbered.Pairwise fun a b => a.1 < b.1) :
    values.mergeSort (fun a b => a.1 ≤ b.1) = numbered := by
  have hsorted : (values.mergeSort fun a b => a.1 ≤ b.1).Pairwise
      fun a b => decide (a.1 ≤ b.1) = true := by
    refine List.pairwise_mergeSort (fun a b c hab hbc => ?_) (fun a b => ?_) values
    · simp only [decide_eq_true_eq] at hab hbc ⊢
      exact le_trans hab hbc
    · simp only [Bool.or_eq_true, decide_eq_true_eq]
      exact le_total a.1 b.1
  have hnumbered : numbered.Pairwise fun a b => decide (a.1 ≤ b.1) = true :=
    hincreasing.imp fun hlt => decide_eq_true (Nat.le_of_lt hlt)
  have hsame : (values.mergeSort fun a b => a.1 ≤ b.1).Perm numbered :=
    (List.mergeSort_perm _ _).trans hperm
  have hnodup : (numbered.map (·.1)).Nodup :=
    List.pairwise_map.2 (hincreasing.imp fun hlt => Nat.ne_of_lt hlt)
  refine List.Perm.eq_of_pairwise (fun a b ha hb hab hba => ?_) hsorted hnumbered hsame
  -- two values with the same number are the same, since no number is given twice
  simp only [decide_eq_true_eq] at hab hba
  exact List.inj_on_of_nodup_map hnodup (hsame.subset ha) hb (le_antisymm hab hba)

/-- Files with the numbers of their inputs. -/
def numbered (files : List CheckedFile) : List (Nat × CheckedFile) :=
  files.zipIdx.map Prod.swap

lemma numbered_increasing (files : List CheckedFile) :
    (numbered files).Pairwise fun a b => a.1 < b.1 := by
  have hnumbers : (files.zipIdx.map Prod.snd).Pairwise (· < ·) := by
    rw [List.zipIdx_map_snd]
    exact List.pairwise_lt_range'
  rw [numbered, List.pairwise_map]
  exact List.pairwise_map.1 hnumbers

lemma map_snd_numbered (files : List CheckedFile) : (numbered files).map (·.2) = files := by
  rw [numbered, List.map_map]
  exact List.zipIdx_map_fst 0 files

/-- Files that come in any order, each with its number, are put into order. -/
lemma gather_of_perm_numbered {arrived : List Delivery} {files : List CheckedFile}
    (h : arrived.Perm ((numbered files).map .ok)) : gather arrived = .ok files := by
  obtain ⟨values, rfl, hperm⟩ := exists_eq_map_ok_of_perm h
  have hsort := mergeSort_eq_of_perm hperm (numbered_increasing files)
  rw [gather, mapM_id_map_ok]
  show Except.ok ((values.mergeSort fun a b => a.1 ≤ b.1).map (·.2)) = _
  rw [hsort, map_snd_numbered]

/-! ### All inputs -/

lemma deliveries_map_ok (registry : Registry) (sources : List Source) :
    deliveries registry (sources.map .ok) =
      (numbered (sources.map fun source => .ofText registry source.path source.text)).map .ok := by
  rw [deliveries, numbered, List.zipIdx_map, List.zipIdx_map, List.map_map, List.map_map,
    List.map_map]
  rfl

lemma error_mem_deliveries_iff {registry : Registry} {sources : List (Except Failure Source)}
    {failure : Failure} :
    .error failure ∈ deliveries registry sources ↔ .error failure ∈ sources := by
  rw [deliveries, List.mem_map]
  constructor
  · rintro ⟨⟨source, index⟩, hmem, heq⟩
    cases source with
    | error failure' =>
      obtain rfl : failure' = failure := Except.error.inj heq
      exact List.fst_mem_of_mem_zipIdx hmem
    | ok source => exact absurd heq (by simp [Except.map])
  · intro hmem
    obtain ⟨index, hindex⟩ := List.mem_iff_getElem?.1 hmem
    exact ⟨(.error failure, index), List.mk_mem_zipIdx_iff_getElem?.2 hindex, rfl⟩

/-- The file is what checking an input gives: the path and the decoded text of the input, with the
diagnostics of the text. -/
def IsCheckOf {ι : Type} (registry : Registry) (read : ι → Except Failure Source) (input : ι)
    (file : CheckedFile) : Prop :=
  ∃ source, read input = .ok source ∧
    file = ⟨source.path, source.text, registry.validate (Document.parse source.text.toList)⟩

/-- The outcome is that of checking inputs, each of which is read on its own. -/
structure IsOutcome {ι : Type} (registry : Registry) (read : ι → Except Failure Source)
    (inputs : List ι) (outcome : Except Failure (List CheckedFile)) : Prop where
  /-- If every input can be read, these are the checked files in the order of the inputs. -/
  files : (∀ input ∈ inputs, ∃ source, read input = .ok source) →
    ∃ files, outcome = .ok files ∧ List.Forall₂ (IsCheckOf registry read) inputs files
  /-- If some input cannot be read, this is the failure of such an input. -/
  failure : (∃ input ∈ inputs, ∃ failure, read input = .error failure) →
    ∃ input ∈ inputs, ∃ failure, read input = .error failure ∧ outcome = .error failure

/-- Results that come in any order lead to the outcome, whatever the inputs are read as. -/
lemma isOutcome_gather_of_perm {ι : Type} {registry : Registry} {read : ι → Except Failure Source}
    {inputs : List ι} {arrived : List Delivery}
    (harrived : arrived.Perm (deliveries registry (inputs.map read))) :
    IsOutcome registry read inputs (gather arrived) where
  files hread := by
    obtain ⟨sources, hsources⟩ := exists_eq_map_ok (List.forall_mem_map.2 hread)
    rw [hsources, deliveries_map_ok] at harrived
    refine ⟨_, gather_of_perm_numbered harrived, ?_⟩
    -- input by input, the source that was read makes the checked file
    rw [← List.forall₂_eq_eq_eq, List.forall₂_map_left_iff, List.forall₂_map_right_iff] at hsources
    rw [List.forall₂_map_right_iff]
    exact hsources.imp fun input source hsource => ⟨source, hsource, rfl⟩
  failure := by
    rintro ⟨input, hinput, failure, hfailure⟩
    have hmem : .error failure ∈ arrived := by
      rw [harrived.mem_iff, error_mem_deliveries_iff, ← hfailure]
      exact List.mem_map_of_mem hinput
    obtain ⟨failure', hmem', hgather⟩ := exists_gather_eq_error ⟨failure, hmem⟩
    rw [harrived.mem_iff, error_mem_deliveries_iff, List.mem_map] at hmem'
    obtain ⟨input', hinput', hfailure'⟩ := hmem'
    exact ⟨input', hinput', failure', hfailure', hgather⟩

end Check

/-- **The order in which inputs are finished makes no difference.**  Let the results of all inputs
come in any order.  If every input can be read, the outcome is the list of the checked files in the
order of the inputs.  If some input cannot be read, the outcome is the failure of such an input.
This holds whatever each input is read as, and so of inputs that are files of any tree and of a
standard input that may fail. -/
theorem gather_deliveries_of_perm (registry : Registry) (arrived : List Check.Delivery) :
    (∀ (ι : Type) (read : ι → Except Failure Source) (inputs : List ι),
      arrived.Perm (Check.deliveries registry (inputs.map read)) →
      Check.IsOutcome registry read inputs (Check.gather arrived)) ∧
    ∀ (tree : FileTree) (workingDirectory : Place) (contents : StandardInput)
      (inputs : List UnitInput), inputs.count .standardInput ≤ 1 →
      arrived.Perm (Check.deliveries registry
        (UnitInput.readAll tree workingDirectory contents inputs)) →
      Check.IsOutcome registry (UnitInput.read tree workingDirectory contents) inputs
        (Check.gather arrived) := by
  refine ⟨fun ι read inputs harrived => Check.isOutcome_gather_of_perm harrived, ?_⟩
  intro tree workingDirectory contents inputs hinputs harrived
  rw [UnitInput.readAll_eq_map_read hinputs] at harrived
  exact Check.isOutcome_gather_of_perm harrived

/-- The standard input and a file that is finished before it, the same with a file that is missing,
the same with a directory for the standard input, and the same with a file that may not be read. -/
theorem gather_deliveries_of_perm_reversed :
    let tree := ({} : FileTree).insert [['a']] (.file [91])
    let outcome (contents : StandardInput) (inputs : List UnitInput) := Check.gather
      (Check.deliveries .empty (UnitInput.readAll tree [] contents inputs)).reverse
    (∃ files, outcome (.ok [35]) [.standardInput, .file ['a']] = .ok files ∧
      List.Forall₂ (Check.IsCheckOf .empty (UnitInput.read tree [] (.ok [35])))
        [.standardInput, .file ['a']] files) ∧
    (∃ input ∈ [UnitInput.standardInput, .file ['b']], ∃ failure,
      input.read tree [] (.ok [35]) = .error failure ∧
      outcome (.ok [35]) [.standardInput, .file ['b']] = .error failure) ∧
    outcome (.error (.system "Is a directory" 21)) [.standardInput, .file ['a']] =
      .error (.read "<stdin>" (.system "Is a directory" 21)) ∧
    Check.gather (Check.deliveries .empty
      [.ok (.ofBytes "<stdin>" [35]), .error (.read "a" (.system "Permission denied" 13))]).reverse =
      .error (.read "a" (.system "Permission denied" 13)) := by
  intro tree outcome
  have hfollowPresent : FileTree.follow tree FileTree.linkLimit (FileTree.start [] ['a'])
      (Path.pieces ['a']) = .ok ([['a']], .file [91]) := by
    rw [FileTree.follow.eq_def]
    rfl
  have hfollowMissing : FileTree.follow tree FileTree.linkLimit (FileTree.start [] ['b'])
      (Path.pieces ['b']) = .error .missing := by
    rw [FileTree.follow.eq_def]
    rfl
  have hpresent (contents : StandardInput) :
      (UnitInput.file ['a']).read tree [] contents = .ok (.ofBytes "a" [91]) := by
    rw [UnitInput.read, UnitInput.bytes, FileTree.read, FileTree.resolve, hfollowPresent]
    rfl
  have hmissing : (UnitInput.file ['b']).read tree [] (.ok [35])
      = .error (.read "b" (.access .missing)) := by
    rw [UnitInput.read, UnitInput.bytes, FileTree.read, FileTree.resolve, hfollowMissing]
    rfl
  have houtcome (contents : StandardInput) (inputs : List UnitInput)
      (h : inputs.count .standardInput ≤ 1) :
      Check.IsOutcome .empty (UnitInput.read tree [] contents) inputs (outcome contents inputs) :=
    (gather_deliveries_of_perm _ _).2 _ _ _ _ h (List.reverse_perm _)
  refine ⟨(houtcome _ _ (by decide)).files ?_, (houtcome _ _ (by decide)).failure ?_, ?_, ?_⟩
  · intro input hinput
    rcases List.mem_pair.1 hinput with rfl | rfl
    · exact ⟨.ofBytes "<stdin>" [35], rfl⟩
    · exact ⟨.ofBytes "a" [91], hpresent _⟩
  · exact ⟨.file ['b'], by simp, _, hmissing⟩
  · obtain ⟨input, hinput, failure, hread, hfailure⟩ :=
      (houtcome (.error (.system "Is a directory" 21)) [.standardInput, .file ['a']]
        (by decide)).failure ⟨.standardInput, by simp, _, rfl⟩
    rcases List.mem_pair.1 hinput with rfl | rfl
    · obtain rfl : Failure.read "<stdin>" (.system "Is a directory" 21) = failure :=
        Except.error.inj hread
      exact hfailure
    · exact absurd (hread.symm.trans (hpresent _)) (by simp)
  · have hdenied := (gather_deliveries_of_perm .empty _).1 _ id
      [.ok (.ofBytes "<stdin>" [35]), .error (.read "a" (.system "Permission denied" 13))]
      (List.reverse_perm _)
    obtain ⟨result, hresult, failure, rfl, hfailure⟩ :=
      hdenied.failure ⟨_, List.mem_cons_of_mem _ List.mem_cons_self, _, rfl⟩
    rcases List.mem_pair.1 hresult with heq | heq
    · exact absurd heq (by simp)
    · obtain rfl := Except.error.inj heq
      exact hfailure

end UnitCheck
