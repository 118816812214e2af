import BuildAtlas.Proofs.Path.Canonical
import BuildAtlas.Proofs.Project.FileSet

/-!
# BuildAtlas.Proofs.Project.Spelling

Which spellings of a file a project takes for one file.

A document may list a file by a path that is relative to its own directory and another one by the
path from the top. A relative path is joined to the directory and brought to its one spelling, but
an absolute path is kept as it is written. So two spellings of a file come to one path when those
among them that begin at the top are canonical, and otherwise only if they are the same text
(`resolve_eq_iff_settled`). Otherwise a project lists the file twice and does not find it under its
other spelling (`two_paths_for_main`).
-/

namespace BuildAtlas

namespace Path

/-- A path from the top is settled when it is canonical. Other paths are settled when they are
resolved. -/
def IsSettled (path : String) : Prop :=
  isAnchored path = true → IsCanonical path

/-- A path with a drive in front is absolute, but it does not begin at the top. -/
def HasDrive (path : String) : Prop :=
  isAbsolute path = true ∧ isAnchored path = false

instance (path : String) : Decidable (IsSettled path) :=
  inferInstanceAs (Decidable (isAnchored path = true → IsCanonical path))

instance (path : String) : Decidable (HasDrive path) :=
  inferInstanceAs (Decidable (isAbsolute path = true ∧ isAnchored path = false))

theorem isAbsolute_of_isAnchored {path : String} (h : isAnchored path = true) :
    isAbsolute path = true := by
  rw [isAnchored, beq_iff_eq] at h
  obtain ⟨rest, hrest⟩ := List.head?_eq_some_iff.1 h
  rw [isAbsolute, hrest]
  rfl

theorem resolve_of_isAnchored {base path : String} (h : isAnchored path = true) :
    resolve base path = path := by
  rw [resolve, isAbsolute_of_isAnchored h, if_pos rfl]

theorem resolve_of_relative {base path : String} (hdrive : ¬ HasDrive path)
    (h : isAnchored path = false) : resolve base path = normalize (join base path) := by
  have habsolute : isAbsolute path = false := by
    rw [← Bool.not_eq_true]
    exact fun habsolute => hdrive ⟨habsolute, h⟩
  rw [resolve, habsolute, if_neg Bool.false_ne_true]

theorem isSettled_of_relative {path : String} (h : isAnchored path = false) : IsSettled path :=
  fun hanchored => absurd (h.symm.trans hanchored) Bool.false_ne_true

/-- A settled path comes to the one spelling of what it leads to. -/
theorem resolve_of_isSettled {base path : String} (hdrive : ¬ HasDrive path)
    (h : IsSettled path) : resolve base path = normalize (join base path) := by
  cases hanchored : isAnchored path with
  | true => rw [resolve_of_isAnchored hanchored, join_of_isAnchored hanchored,
      (h hanchored).normalize_eq]
  | false => exact resolve_of_relative hdrive hanchored

/-- A path from the top that comes to what a relative path comes to is canonical. -/
theorem isCanonical_of_resolve_eq {base path other : String} (hdrive : ¬ HasDrive other)
    (hpath : isAnchored path = true) (hother : isAnchored other = false)
    (h : resolve base path = resolve base other) : IsCanonical path := by
  rw [resolve_of_isAnchored hpath, resolve_of_relative hdrive hother] at h
  exact h ▸ isCanonical_normalize (join base other)

/-- Two paths without a drive that lead to one file come to one path just when they are the same
text or both settled. -/
theorem resolve_eq_iff {base path other : String} (hpath : ¬ HasDrive path)
    (hother : ¬ HasDrive other)
    (hsame : normalize (join base path) = normalize (join base other)) :
    resolve base path = resolve base other ↔ path = other ∨ IsSettled path ∧ IsSettled other := by
  constructor
  · intro h
    cases hanchored : isAnchored path with
    | true =>
        cases hanchored' : isAnchored other with
        | true =>
            rw [resolve_of_isAnchored hanchored, resolve_of_isAnchored hanchored'] at h
            exact .inl h
        | false =>
            have hcanonical := isCanonical_of_resolve_eq hother hanchored hanchored' h
            exact .inr ⟨fun _ => hcanonical, isSettled_of_relative hanchored'⟩
    | false =>
        refine .inr ⟨isSettled_of_relative hanchored, fun hanchored' => ?_⟩
        exact isCanonical_of_resolve_eq hpath hanchored' hanchored h.symm
  · rintro (rfl | ⟨hsettled, hsettled'⟩)
    · rfl
    · rw [resolve_of_isSettled hpath hsettled, resolve_of_isSettled hother hsettled', hsame]

end Path

namespace Project

open BuildAtlas.Path (HasDrive IsSettled isAnchored join normalize resolve)

/-- Paths without a drive that lead from a directory to the same file come to one path just when
they are the same text or both settled. Then a project that has the file under one of them does not
add it under the other, and deletes it there. If not, a project that has only this file takes the
other for a file that it does not have. -/
theorem resolve_eq_iff_settled {base path other : String} (hpath : ¬ HasDrive path)
    (hother : ¬ HasDrive other)
    (hsame : normalize (join base path) = normalize (join base other)) :
    (resolve base path = resolve base other ↔ path = other ∨ IsSettled path ∧ IsSettled other) ∧
      ∀ project : Project, resolve base path ∈ project.files →
        (path = other ∨ IsSettled path ∧ IsSettled other →
          project.accepts (.add (resolve base other)) = false ∧
            project.accepts (.delete (resolve base other)) = true) ∧
        (¬ (path = other ∨ IsSettled path ∧ IsSettled other) →
          (∀ file ∈ project.files, file = resolve base path) →
          project.accepts (.add (resolve base other)) = true ∧
            project.accepts (.delete (resolve base other)) = false) := by
  have hone := Path.resolve_eq_iff hpath hother hsame
  refine ⟨hone, fun project hmem => ⟨fun h => ?_, fun h honly => ?_⟩⟩
  · rw [hone.2 h] at hmem
    refine ⟨?_, accepts_delete_iff.2 hmem⟩
    rw [Bool.eq_false_iff]
    exact fun hadd => accepts_add_iff.1 hadd hmem
  · have hnone : resolve base other ∉ project.files :=
      fun hmem' => h (hone.1 (honly _ hmem').symm)
    refine ⟨accepts_add_iff.2 hnone, ?_⟩
    rw [Bool.eq_false_iff]
    exact fun hdelete => hnone (accepts_delete_iff.1 hdelete)

/-- A project that has one file, listed by a path that is relative to its document. -/
def sampleWithMain : Project :=
  ofTarget "hello" "hello.cbp:hello" [resolve "/p/BuildFiles" "../src/main.cpp"] ∅ true

theorem resolve_eq_iff_settled_main :
    resolve "/p/BuildFiles" "../src/main.cpp" = resolve "/p/BuildFiles" "/p/src/main.cpp" ∧
      sampleWithMain.accepts (.add (resolve "/p/BuildFiles" "/p/src/main.cpp")) = false ∧
      sampleWithMain.accepts (.delete (resolve "/p/BuildFiles" "/p/src/main.cpp")) = true := by
  have hsettled : IsSettled "../src/main.cpp" ∧ IsSettled "/p/src/main.cpp" := by
    decide +kernel
  obtain ⟨hone, hproject⟩ := @resolve_eq_iff_settled "/p/BuildFiles" "../src/main.cpp"
    "/p/src/main.cpp" (by decide) (by decide) (by decide +kernel)
  exact ⟨hone.2 (.inr hsettled), (hproject sampleWithMain (by decide +kernel)).1 (.inr hsettled)⟩

/-- Two spellings from one directory that come to two paths, though they lead to one file. -/
theorem two_paths_for_main :
    isAnchored "/p/BuildFiles" = true ∧ ¬ HasDrive "../src/main.cpp" ∧
      ¬ HasDrive "/p/BuildFiles/../src/main.cpp" ∧
      normalize (join "/p/BuildFiles" "../src/main.cpp") =
        normalize (join "/p/BuildFiles" "/p/BuildFiles/../src/main.cpp") ∧
      resolve "/p/BuildFiles" "../src/main.cpp" ≠
        resolve "/p/BuildFiles" "/p/BuildFiles/../src/main.cpp" ∧
      sampleWithMain.accepts
        (.add (resolve "/p/BuildFiles" "/p/BuildFiles/../src/main.cpp")) = true ∧
      sampleWithMain.accepts
        (.delete (resolve "/p/BuildFiles" "/p/BuildFiles/../src/main.cpp")) = false := by
  decide +kernel

end Project

end BuildAtlas
