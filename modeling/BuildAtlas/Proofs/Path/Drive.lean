import BuildAtlas.Proofs.Path.Exit
import BuildAtlas.Proofs.Project.Spelling

/-!
# BuildAtlas.Proofs.Path.Drive

Whether the one spelling of an absolute path begins as the path does.

A path is absolute when it begins with a slash, which always stays, or with a letter and a colon.
But nothing protects these two from a `..` unless they are a piece of their own: `isAbsolute` looks
at the beginning of the path and `isDrive` at a whole piece. So a drive stays in front of what
follows (`suffix_foldl_walk`), while a longer first piece such as `C:x` is taken back like any name,
and then nothing is left of the drive (`keepsStart_or_taken_back`).
-/

namespace BuildAtlas.Path

/-- The one spelling of the path is absolute, and it begins with the same letter and colon if the
path does not begin with a slash. Both characters are ASCII, so they are its first two bytes. -/
structure KeepsStart (path : String) : Prop where
  isAbsolute : isAbsolute (normalize path) = true
  take_two : isAnchored path = false → (normalize path).toList.take 2 = path.toList.take 2

instance (path : String) : Decidable (KeepsStart path) :=
  decidable_of_iff (isAbsolute (normalize path) = true ∧
    (isAnchored path = false → (normalize path).toList.take 2 = path.toList.take 2))
    ⟨fun h => ⟨h.1, h.2⟩, fun h => ⟨h.isAbsolute, h.take_two⟩⟩

/-! ### A drive at the beginning of a walk -/

section Walks

variable {anchored : Bool} {walked : List String} {drive : String}

/-- What has been reached from a drive is reached from it after one more piece. -/
theorem suffix_walk (hdrive : isDrive drive = true) (h : [drive] <:+ walked) (next : String) :
    [drive] <:+ walk anchored walked next := by
  have hstep := step_walk anchored walked next
  generalize walk anchored walked next = reached at hstep ⊢
  cases hstep with
  | idle _ => exact h
  | name _ => exact h.trans (List.suffix_cons _ _)
  | top _ => exact h
  | out _ => exact absurd (List.suffix_nil.1 h) (List.cons_ne_nil _ _)
  | further => exact h.trans (List.suffix_cons _ _)
  | drive _ => exact h
  | back _ hback =>
      rcases List.suffix_cons_iff.1 h with heq | h
      · obtain rfl := (List.cons.inj heq).1
        exact absurd hdrive (ne_true_of_eq_false hback)
      · exact h

theorem suffix_foldl_walk (hdrive : isDrive drive = true) (h : [drive] <:+ walked)
    (pieces : List String) : [drive] <:+ pieces.foldl (walk anchored) walked := by
  induction pieces generalizing walked with
  | nil => exact h
  | cons next rest ih => exact ih (suffix_walk hdrive h next)

end Walks

/-! ### The letter and the colon -/

section HasDrive

variable {path first : String} {more : List String}

theorem isAbsolute_of_take_two {letter : Char} (hletter : letter.toNat < 128)
    (h : path.toList.take 2 = [letter, ':']) : isAbsolute path = true := by
  obtain ⟨c, d, rest, hpath⟩ : ∃ c d rest, path.toList = c :: d :: rest := by
    cases hpath : path.toList with
    | nil => simp [hpath] at h
    | cons c cs =>
        cases cs with
        | nil => simp [hpath] at h
        | cons d rest => exact ⟨c, d, rest, rfl⟩
  simp only [hpath, List.take_succ_cons, List.take_zero, List.cons.injEq, and_true] at h
  obtain ⟨rfl, rfl⟩ := h
  rw [isAbsolute, hpath]
  split
  · rfl
  · simp_all
  · simp_all

/-- A path with a drive in front begins with a letter and a colon, and so does its first piece. -/
theorem HasDrive.exists_letter (h : HasDrive path) (hpath : pieces path = first :: more) :
    ∃ letter stem, letter.toNat < 128 ∧ path.toList.take 2 = [letter, ':'] ∧
      first.toList = letter :: ':' :: stem := by
  obtain ⟨habsolute, hanchored⟩ := h
  rw [isAbsolute] at habsolute
  split at habsolute
  · rename_i hslash
    rw [isAnchored, hslash] at hanchored
    simp at hanchored
  · rename_i letter rest hslash hletter
    obtain ⟨stem, others, hrest⟩ := List.exists_cons_of_ne_nil (pieces_ne_nil (.ofList rest))
    have hwhole : path = .ofList [letter, ':'] ++ .ofList rest := by
      rw [← String.toList_inj, hletter]
      simp
    have hfront : '/' ∉ (String.ofList [letter, ':']).toList := by
      simpa using Ne.symm hslash
    have hpieces := pieces_append_of_not_mem hfront hrest
    rw [← hwhole, hpath] at hpieces
    obtain ⟨rfl, -⟩ := List.cons.inj hpieces
    refine ⟨letter, stem.toList, by simpa using habsolute, ?_, ?_⟩
    · rw [hletter]
      rfl
    · simp
  · exact absurd habsolute Bool.false_ne_true

/-- The first piece of such a path is a name. -/
theorem HasDrive.isName (h : HasDrive path) (hpath : pieces path = first :: more) :
    IsName first := by
  obtain ⟨letter, stem, -, -, hfirst⟩ := h.exists_letter hpath
  have hne (other : String) (hother : other.toList[1]? ≠ some ':') : first ≠ other := by
    rintro rfl
    exact hother (by rw [hfirst]; rfl)
  exact ⟨isIdle_eq_false_iff.2 ⟨hne "" (by decide), hne "." (by decide)⟩, hne ".." (by decide),
    (slash_not_mem_of_pieces hpath).1⟩

/-- With the letter and the colon a path is absolute. -/
theorem HasDrive.keepsStart_iff (h : HasDrive path) (hpath : pieces path = first :: more) :
    KeepsStart path ↔ (normalize path).toList.take 2 = path.toList.take 2 := by
  obtain ⟨letter, stem, hletter, htwo, -⟩ := h.exists_letter hpath
  refine ⟨fun hkeeps => hkeeps.take_two h.2, fun hnormal => ⟨?_, fun _ => hnormal⟩⟩
  exact isAbsolute_of_take_two hletter (hnormal.trans htwo)

/-- What begins with the first piece of such a path begins as the path does. -/
theorem HasDrive.keepsStart (h : HasDrive path) (hpath : pieces path = first :: more)
    (hnormal : ∃ back, normalize path = first ++ back) : KeepsStart path := by
  obtain ⟨letter, stem, -, htwo, hfirst⟩ := h.exists_letter hpath
  obtain ⟨back, hback⟩ := hnormal
  rw [h.keepsStart_iff hpath, htwo, hback, String.toList_append, hfirst]
  rfl

end HasDrive

/-! ### The beginning of the one spelling -/

theorem keepsStart_of_isAnchored {path : String} (h : isAnchored path = true) :
    KeepsStart path := by
  refine ⟨isAbsolute_of_isAnchored ((isAnchored_normalize path).trans h), fun hrelative => ?_⟩
  exact absurd (h.symm.trans hrelative) (by decide)

/-- The one spelling of an absolute path begins as the path does, unless it begins with a letter and
a colon in a longer piece and what follows this piece leads out. At the `..` where it leads out all
that stands in front is taken back, so the one spelling is that of what is behind, and it begins as
the path does only if this has the same letter and colon in front. -/
theorem keepsStart_or_taken_back {path first : String} {more : List String}
    (h : isAbsolute path = true) (hpath : pieces path = first :: more) :
    (isAnchored path = true ∨ isDrive first = true ∨ ¬ LeadsOut more → KeepsStart path) ∧
      ∀ front back, isAnchored path = false → isDrive first = false →
        more = front ++ ".." :: back → ComesBack front →
          normalize path = normalize (ofPieces ("." :: back)) ∧
            (KeepsStart path ↔
              (normalize (ofPieces ("." :: back))).toList.take 2 = path.toList.take 2) := by
  constructor
  · intro hkept
    cases hanchored : isAnchored path with
    | true => exact keepsStart_of_isAnchored hanchored
    | false =>
        have hdrive : HasDrive path := ⟨h, hanchored⟩
        have hname := hdrive.isName hpath
        refine hdrive.keepsStart hpath ?_
        rcases hkept with hkept | hkept | hkept
        · exact absurd (hanchored.symm.trans hkept) (by decide)
        · refine exists_normalize_of_suffix hpath hname.ne_empty ?_
          rw [walkedTo, hanchored, hpath, List.foldl_cons, walk_name hname.not_idle hname.ne_up]
          exact suffix_foldl_walk hkept List.suffix_rfl more
        · exact exists_normalize_eq_append hpath hname hkept
  · rintro front back hanchored hfirst rfl hfront
    have hdrive : HasDrive path := ⟨h, hanchored⟩
    have hnormal := normalize_of_comesBack hpath (hdrive.isName hpath) hfirst hfront
    exact ⟨hnormal, by rw [hdrive.keepsStart_iff hpath, hnormal]⟩

/-- A drive that is a piece of its own stays, however far the path leads up, and `C:x` goes. -/
theorem keepsStart_or_taken_back_climbing :
    KeepsStart "C:/a/../../../b" ∧ normalize "C:x/a/../../y" = normalize (ofPieces [".", "y"]) ∧
      ¬ KeepsStart "C:x/a/../../y" := by
  have hdrive : pieces "C:/a/../../../b" = ["C:", "a", "..", "..", "..", "b"] := by decide +kernel
  have hlong : pieces "C:x/a/../../y" = ["C:x", "a", "..", "..", "y"] := by decide +kernel
  obtain ⟨hnormal, hkeeps⟩ := (keepsStart_or_taken_back (by decide) hlong).2 ["a", ".."] ["y"]
    (by decide) (by decide) rfl (comesBack_of_foldl_walk (by decide) rfl)
  refine ⟨(keepsStart_or_taken_back (by decide) hdrive).1 (.inr (.inl (by decide))), hnormal, ?_⟩
  rw [hkeeps]
  decide +kernel

/-- Absolute paths of which no more than a relative one is left. -/
theorem not_keepsStart_of_longer_piece :
    isAbsolute "C:x/.." = true ∧ isAnchored "C:x/.." = false ∧ normalize "C:x/.." = "." ∧
      ¬ KeepsStart "C:x/.." ∧
      isAbsolute "C:\\x/../y" = true ∧ normalize "C:\\x/../y" = "y" ∧
        isAbsolute (normalize "C:\\x/../y") = false := by
  decide +kernel

end BuildAtlas.Path
