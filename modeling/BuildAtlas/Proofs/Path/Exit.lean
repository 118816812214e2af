import BuildAtlas.Proofs.Path.Canonical
import Mathlib.Data.List.Count

/-!
# BuildAtlas.Proofs.Path.Exit

Where a path leads out of the directory in which it begins.

A path leads out at a `..` behind a part of it that comes back: each name in this part is taken back
by a `..` behind it, and no drive, which nothing takes back, is among them (`ComesBack`). This is
told by counting. In terms of walks, a part comes back when its walk has reached nothing new
(`comesBack_iff`), and a path leads out when a `..` is left of its walk (`leadsOut_iff`). So the
first name of a path stays when what follows it does not lead out, and when it does, nothing is left
of all that stands up to this `..` (`exists_normalize_eq_append`, `normalize_of_comesBack`).
-/

namespace BuildAtlas.Path

/-- Is the piece a name, which leads on? -/
def leadsOn (piece : String) : Bool :=
  !isIdle piece && piece != ".."

/-- A part of a path that comes back to where it begins, and does not go further back before. -/
structure ComesBack (part : List String) : Prop where
  /-- A drive is not taken back. -/
  no_drive : ∀ piece ∈ part, isDrive piece = false
  /-- Each name is taken back, -/
  count_eq : part.count ".." = part.countP leadsOn
  /-- and no `..` stands in front of the name that it takes back. -/
  count_le : ∀ front, front <+: part → front.count ".." ≤ front.countP leadsOn

/-- A path that leads out of where it begins, at a `..` behind a part that comes back. -/
def LeadsOut (pieces : List String) : Prop :=
  ∃ front back, pieces = front ++ ".." :: back ∧ ComesBack front

/-! ### What a step can do -/

/-- What one piece makes of what has been reached, by the piece and by what has been reached
last. -/
inductive Step (anchored : Bool) : List String → String → List String → Prop
  | idle {walked : List String} {piece : String} (h : isIdle piece = true) :
      Step anchored walked piece walked
  | name {walked : List String} {piece : String} (h : leadsOn piece = true) :
      Step anchored walked piece (piece :: walked)
  | top (h : anchored = true) : Step anchored [] ".." []
  | out (h : anchored = false) : Step anchored [] ".." [".."]
  | further {outer : List String} : Step anchored (".." :: outer) ".." (".." :: ".." :: outer)
  | drive {last : String} {outer : List String} (h : isDrive last = true) :
      Step anchored (last :: outer) ".." (last :: outer)
  | back {last : String} {outer : List String} (hup : last ≠ "..") (hdrive : isDrive last = false) :
      Step anchored (last :: outer) ".." outer

section Walks

variable {anchored : Bool} {walked pieces : List String} {piece : String}

theorem leadsOn_eq_true_iff : leadsOn piece = true ↔ isIdle piece = false ∧ piece ≠ ".." := by
  simp [leadsOn]

theorem step_walk (anchored : Bool) (walked : List String) (piece : String) :
    Step anchored walked piece (walk anchored walked piece) := by
  cases hidle : isIdle piece with
  | true => exact walk_idle hidle ▸ .idle hidle
  | false =>
      by_cases hup : piece = ".."
      · subst hup
        cases walked with
        | nil =>
            cases anchored with
            | true => exact .top rfl
            | false => exact .out rfl
        | cons last outer =>
            by_cases hlast : last = ".."
            · subst hlast
              exact .further
            · rw [walk_up_name hlast]
              cases hdrive : isDrive last with
              | true => exact .drive hdrive
              | false => exact .back hlast hdrive
      · rw [walk_name hidle hup]
        exact .name (leadsOn_eq_true_iff.2 ⟨hidle, hup⟩)

theorem leadsOn_of_isDrive (h : isDrive piece = true) : leadsOn piece = true := by
  rw [leadsOn_eq_true_iff, isIdle_eq_false_iff]
  refine ⟨⟨?_, ?_⟩, ?_⟩
  · rintro rfl
    exact absurd h (by decide)
  · rintro rfl
    exact absurd h (by decide)
  · rintro rfl
    exact absurd h (by decide)

/-! ### What is never taken back -/

/-- A step adds its piece at most. -/
theorem eq_or_mem_of_mem_walk {next : String} (h : piece ∈ walk anchored walked next) :
    piece = next ∨ piece ∈ walked := by
  have hstep := step_walk anchored walked next
  generalize walk anchored walked next = reached at hstep h
  cases hstep with
  | idle _ => exact .inr h
  | name _ => exact List.mem_cons.1 h
  | top _ => exact .inr h
  | out _ => exact .inl (List.mem_singleton.1 h)
  | further => exact List.mem_cons.1 h
  | drive _ => exact .inr h
  | back _ _ => exact .inr (List.mem_cons_of_mem _ h)

theorem mem_of_mem_foldl_walk (h : piece ∈ pieces.foldl (walk anchored) []) : piece ∈ pieces := by
  induction pieces using List.reverseRecOn with
  | nil => exact h
  | append_singleton pieces last ih =>
      rw [List.foldl_append] at h
      rcases eq_or_mem_of_mem_walk h with rfl | h
      · exact List.mem_append_right _ List.mem_cons_self
      · exact List.mem_append_left _ (ih h)

/-- Steps up and drives stay where they are. -/
theorem mem_walk_of_mem (hpiece : piece = ".." ∨ isDrive piece = true) (h : piece ∈ walked)
    (next : String) : piece ∈ walk anchored walked next := by
  have hstep := step_walk anchored walked next
  generalize walk anchored walked next = reached at hstep ⊢
  cases hstep with
  | idle _ => exact h
  | name _ => exact List.mem_cons_of_mem _ h
  | top _ => exact h
  | out _ => exact absurd h List.not_mem_nil
  | further => exact List.mem_cons_of_mem _ h
  | drive _ => exact h
  | back hup hdrive =>
      refine List.mem_of_ne_of_mem ?_ h
      rintro rfl
      exact hpiece.elim hup (Bool.eq_false_iff.1 hdrive)

theorem mem_foldl_walk_of_mem (hpiece : piece = ".." ∨ isDrive piece = true) (h : piece ∈ walked)
    (pieces : List String) : piece ∈ pieces.foldl (walk anchored) walked := by
  induction pieces generalizing walked with
  | nil => exact h
  | cons next rest ih => exact ih (mem_walk_of_mem hpiece h next)

theorem mem_foldl_walk_of_isDrive (hdrive : isDrive piece = true) (h : piece ∈ pieces) :
    piece ∈ pieces.foldl (walk anchored) walked := by
  obtain ⟨front, back, rfl⟩ := List.append_of_mem h
  obtain ⟨hidle, hup⟩ := leadsOn_eq_true_iff.1 (leadsOn_of_isDrive hdrive)
  rw [List.foldl_append, List.foldl_cons, walk_name hidle hup]
  exact mem_foldl_walk_of_mem (.inr hdrive) List.mem_cons_self back

/-! ### Counting names and steps up -/

theorem Walked.leadsOn_of_mem (h : Walked anchored walked) (hpiece : piece ∈ walked)
    (hup : piece ≠ "..") : leadsOn piece = true := by
  induction h with
  | ups n hn => exact absurd (List.eq_of_mem_replicate hpiece) hup
  | name hname h ih =>
      rcases List.mem_cons.1 hpiece with rfl | hpiece
      · exact leadsOn_eq_true_iff.2 ⟨hname.not_idle, hname.ne_up⟩
      · exact ih hpiece

theorem counts_of_isIdle (h : isIdle piece = true) :
    [piece].countP leadsOn = 0 ∧ [piece].count ".." = 0 := by
  have hon : ¬ leadsOn piece = true := by simp [leadsOn, h]
  have hup : piece ≠ ".." := by
    rintro rfl
    exact absurd h (by decide)
  exact ⟨List.countP_cons_of_neg hon, List.count_cons_of_ne hup⟩

theorem counts_of_leadsOn (h : leadsOn piece = true) :
    [piece].countP leadsOn = 1 ∧ [piece].count ".." = 0 :=
  ⟨List.countP_cons_of_pos h, List.count_cons_of_ne (leadsOn_eq_true_iff.1 h).2⟩

theorem counts_up : [".."].countP leadsOn = 0 ∧ [".."].count ".." = 1 :=
  ⟨rfl, rfl⟩

/-- A step of a relative walk without drives keeps the difference of names and steps up. -/
theorem Walked.count_walk (h : Walked false walked) (hdrive : ∀ last ∈ walked, isDrive last = false)
    (piece : String) :
    walked.countP leadsOn + [piece].countP leadsOn + (Path.walk false walked piece).count ".." =
      walked.count ".." + [piece].count ".." + (Path.walk false walked piece).countP leadsOn := by
  have hcons (last : String) (outer : List String) :
      (last :: outer).countP leadsOn = [last].countP leadsOn + outer.countP leadsOn ∧
        (last :: outer).count ".." = [last].count ".." + outer.count ".." := by
    rw [← List.singleton_append, List.countP_append, List.count_append]
    exact ⟨rfl, rfl⟩
  have hstep := step_walk false walked piece
  generalize Path.walk false walked piece = reached at hstep ⊢
  cases hstep with
  | idle hidle =>
      obtain ⟨hon, hup⟩ := counts_of_isIdle hidle
      omega
  | name hon =>
      obtain ⟨hon, hup⟩ := counts_of_leadsOn hon
      obtain ⟨hon', hup'⟩ := hcons piece walked
      omega
  | top htop => exact absurd htop Bool.false_ne_true
  | out _ => rfl
  | @further outer =>
      obtain ⟨hon, hup⟩ := counts_up
      obtain ⟨hon', hup'⟩ := hcons ".." (".." :: outer)
      omega
  | drive hlast => exact absurd hlast (by simp [hdrive _ List.mem_cons_self])
  | @back last _ hup _ =>
      -- the name that is taken back was counted, and so is the step up
      obtain ⟨hon, hup⟩ := counts_of_leadsOn (h.leadsOn_of_mem List.mem_cons_self hup)
      obtain ⟨hon', hup'⟩ := hcons last reached
      obtain ⟨hoff, hone⟩ := counts_up
      omega

/-- The walk along a path without drives has as many more names than steps up as the path. -/
theorem count_foldl_walk (hpieces : ∀ piece ∈ pieces, '/' ∉ piece.toList)
    (hdrive : ∀ piece ∈ pieces, isDrive piece = false) :
    pieces.countP leadsOn + (pieces.foldl (walk false) []).count ".." =
      pieces.count ".." + (pieces.foldl (walk false) []).countP leadsOn := by
  induction pieces using List.reverseRecOn with
  | nil => rfl
  | append_singleton pieces piece ih =>
      rw [List.forall_mem_append] at hpieces hdrive
      have hwalked : Walked false (pieces.foldl (walk false) []) :=
        Walked.foldl (.ups 0 nofun) hpieces.1
      have hstep := hwalked.count_walk
        (fun last hlast => hdrive.1 last (mem_of_mem_foldl_walk hlast)) piece
      have hbefore := ih hpieces.1 hdrive.1
      rw [List.foldl_append, List.foldl_cons, List.foldl_nil, List.countP_append, List.count_append]
      omega

end Walks

/-! ### Leading out -/

/-- A walk that leads out has passed a `..` where it had reached nothing. -/
theorem exists_of_up_mem_foldl_walk {pieces : List String}
    (h : ".." ∈ pieces.foldl (walk false) []) :
    ∃ front back, pieces = front ++ ".." :: back ∧ front.foldl (walk false) [] = [] := by
  induction pieces using List.reverseRecOn with
  | nil => exact absurd h List.not_mem_nil
  | append_singleton pieces piece ih =>
      by_cases hbefore : ".." ∈ pieces.foldl (walk false) []
      · obtain ⟨front, back, rfl, hfront⟩ := ih hbefore
        exact ⟨front, back ++ [piece], by simp, hfront⟩
      · -- the last piece leads out, which only a `..` does that has nothing to take back
        rw [List.foldl_append, List.foldl_cons, List.foldl_nil] at h
        have hstep := step_walk false (pieces.foldl (walk false) []) piece
        generalize walk false (pieces.foldl (walk false) []) piece = reached at hstep h
        generalize hwalked : pieces.foldl (walk false) [] = walked at hstep hbefore
        cases hstep with
        | idle _ => exact absurd h hbefore
        | name hon =>
            rcases List.mem_cons.1 h with rfl | h
            · exact absurd rfl (leadsOn_eq_true_iff.1 hon).2
            · exact absurd h hbefore
        | top htop => exact absurd htop Bool.false_ne_true
        | out _ => exact ⟨pieces, [], rfl, hwalked⟩
        | further => exact absurd List.mem_cons_self hbefore
        | drive _ => exact absurd h hbefore
        | back _ _ => exact absurd (List.mem_cons_of_mem _ h) hbefore

section Leading

variable {anchored : Bool} {pieces part : List String}

theorem forall_mem_of_eq_append {front back : List String} {piece : String}
    (hpieces : ∀ piece ∈ pieces, '/' ∉ piece.toList) (h : pieces = front ++ piece :: back) :
    (∀ piece ∈ front, '/' ∉ piece.toList) ∧ ∀ piece ∈ back, '/' ∉ piece.toList := by
  rw [h, List.forall_mem_append, List.forall_mem_cons] at hpieces
  exact ⟨hpieces.1, hpieces.2.2⟩

theorem comesBack_of_foldl_walk (hpart : ∀ piece ∈ part, '/' ∉ piece.toList)
    (h : part.foldl (walk false) [] = []) : ComesBack part := by
  have hdrive : ∀ piece ∈ part, isDrive piece = false := by
    intro piece hpiece
    rw [Bool.eq_false_iff]
    intro hdrive
    have hmem := @mem_foldl_walk_of_isDrive false [] part piece hdrive hpiece
    exact absurd (h ▸ hmem) List.not_mem_nil
  refine ⟨hdrive, ?_, ?_⟩
  · have hcount := count_foldl_walk hpart hdrive
    rw [h] at hcount
    exact hcount.symm
  · rintro front ⟨back, rfl⟩
    rw [List.forall_mem_append] at hpart hdrive
    have hcount := count_foldl_walk hpart.1 hdrive.1
    -- a step up that is left of the walk along the front would be left of the whole walk
    have hinside : ".." ∉ front.foldl (walk false) [] := by
      intro hmem
      rw [List.foldl_append] at h
      exact absurd (h ▸ mem_foldl_walk_of_mem (.inl rfl) hmem back) List.not_mem_nil
    rw [List.count_eq_zero_of_not_mem hinside] at hcount
    omega

/-- A part comes back when its walk has reached nothing new. -/
theorem comesBack_iff (hpart : ∀ piece ∈ part, '/' ∉ piece.toList) :
    ComesBack part ↔ part.foldl (walk false) [] = [] := by
  refine ⟨fun h => ?_, comesBack_of_foldl_walk hpart⟩
  have hinside : ".." ∉ part.foldl (walk false) [] := by
    intro hmem
    obtain ⟨front, back, heq, hfront⟩ := exists_of_up_mem_foldl_walk hmem
    have hback := comesBack_of_foldl_walk (forall_mem_of_eq_append hpart heq).1 hfront
    -- with the next `..` there are more of them than names
    have hle := h.count_le (front ++ [".."]) ⟨back, by rw [heq]; simp⟩
    rw [List.count_append, List.countP_append, hback.count_eq, counts_up.1, counts_up.2] at hle
    exact absurd hle (Nat.not_succ_le_self _)
  have hcount := count_foldl_walk hpart h.no_drive
  rw [List.count_eq_zero_of_not_mem hinside, h.count_eq] at hcount
  have hnone : (part.foldl (walk false) []).countP leadsOn = 0 := by omega
  have hwalked : Walked false (part.foldl (walk false) []) := Walked.foldl (.ups 0 nofun) hpart
  rw [List.eq_nil_iff_forall_not_mem]
  intro piece hpiece
  have hup : piece ≠ ".." := fun h => hinside (h ▸ hpiece)
  exact List.countP_eq_zero.1 hnone piece hpiece (hwalked.leadsOn_of_mem hpiece hup)

/-- A path leads out when a step up is left of its walk. -/
theorem leadsOut_iff (hpieces : ∀ piece ∈ pieces, '/' ∉ piece.toList) :
    LeadsOut pieces ↔ ".." ∈ pieces.foldl (walk false) [] := by
  constructor
  · rintro ⟨front, back, heq, hfront⟩
    rw [comesBack_iff (forall_mem_of_eq_append hpieces heq).1] at hfront
    rw [heq, List.foldl_append, hfront]
    exact mem_foldl_walk_of_mem (.inl rfl) List.mem_cons_self back
  · intro h
    obtain ⟨front, back, heq, hfront⟩ := exists_of_up_mem_foldl_walk h
    exact ⟨front, back, heq,
      comesBack_of_foldl_walk (forall_mem_of_eq_append hpieces heq).1 hfront⟩

/-! ### The first name of a path -/

/-- A part that comes back does so from wherever it begins. -/
theorem ComesBack.foldl_walk (h : ComesBack part) (hpart : ∀ piece ∈ part, '/' ∉ piece.toList)
    (before : List String) : part.foldl (walk anchored) before = before := by
  rw [← foldl_walk_reverse hpart, (comesBack_iff hpart).1 h]
  rfl

theorem foldl_walk_names {names : List String} (h : ∀ name ∈ names, leadsOn name = true)
    (before : List String) : names.foldl (walk anchored) before = names.reverse ++ before := by
  induction names generalizing before with
  | nil => rfl
  | cons name rest ih =>
      rw [List.forall_mem_cons] at h
      obtain ⟨hidle, hup⟩ := leadsOn_eq_true_iff.1 h.1
      rw [List.foldl_cons, walk_name hidle hup, ih h.2, List.reverse_cons, List.append_assoc]
      rfl

/-- A path that does not lead out leaves what has been reached before. -/
theorem foldl_walk_of_not_leadsOut (hpieces : ∀ piece ∈ pieces, '/' ∉ piece.toList)
    (h : ¬ LeadsOut pieces) (before : List String) :
    pieces.foldl (walk anchored) before = pieces.foldl (walk false) [] ++ before := by
  rw [leadsOut_iff hpieces] at h
  have hwalked : Walked false (pieces.foldl (walk false) []) := Walked.foldl (.ups 0 nofun) hpieces
  rw [← foldl_walk_reverse hpieces, foldl_walk_names, List.reverse_reverse]
  intro name hname
  rw [List.mem_reverse] at hname
  exact hwalked.leadsOn_of_mem hname fun hup => h (hup ▸ hname)

end Leading

section FirstName

variable {path first : String} {more : List String}

theorem isAnchored_of_pieces (hpath : pieces path = first :: more) (hfirst : first ≠ "") :
    isAnchored path = false := by
  rw [← Bool.not_eq_true]
  intro h
  rw [isAnchored, beq_iff_eq] at h
  obtain ⟨rest, hrest⟩ := List.head?_eq_some_iff.1 h
  have hslash : path = "" ++ "/" ++ .ofList rest := by
    rw [← String.toList_inj, hrest]
    simp
  rw [hslash, pieces_append_slash] at hpath
  exact hfirst (List.cons.inj hpath).1.symm

/-- What is reached from a first name is spelled with this name in front. -/
theorem exists_normalize_of_suffix (hpath : pieces path = first :: more) (hfirst : first ≠ "")
    (h : [first] <:+ walkedTo path) : ∃ back, normalize path = first ++ back := by
  obtain ⟨inner, hwalked⟩ := h
  have hspelled : normalize path = ofPieces (first :: inner.reverse) := by
    rw [normalize_eq, isAnchored_of_pieces hpath hfirst, ← hwalked]
    simp [spelled]
  rw [hspelled]
  cases inner.reverse with
  | nil => exact ⟨"", by simp [ofPieces]⟩
  | cons second rest =>
      rw [ofPieces, String.intercalate_cons_cons, String.append_assoc]
      exact ⟨_, rfl⟩

/-- What follows a first name and does not lead out leaves this name in front. -/
theorem exists_normalize_eq_append (hpath : pieces path = first :: more) (hfirst : IsName first)
    (h : ¬ LeadsOut more) : ∃ back, normalize path = first ++ back := by
  refine exists_normalize_of_suffix hpath hfirst.ne_empty ⟨more.foldl (walk false) [], ?_⟩
  rw [walkedTo, isAnchored_of_pieces hpath hfirst.ne_empty, hpath, List.foldl_cons,
    walk_name hfirst.not_idle hfirst.ne_up,
    foldl_walk_of_not_leadsOut (slash_not_mem_of_pieces hpath).2 h [first]]

/-- A `..` that leads out takes back a first name, and what stands behind it is left. -/
theorem normalize_of_comesBack {front back : List String}
    (hpath : pieces path = first :: (front ++ ".." :: back)) (hfirst : IsName first)
    (hdrive : isDrive first = false) (hfront : ComesBack front) :
    normalize path = normalize (ofPieces ("." :: back)) := by
  obtain ⟨hslash, hslash'⟩ := forall_mem_of_eq_append (slash_not_mem_of_pieces hpath).2 rfl
  have hpieces : pieces (ofPieces ("." :: back)) = "." :: back :=
    pieces_ofPieces (List.forall_mem_cons.2 ⟨by decide, hslash'⟩) (List.cons_ne_nil _ _)
  have hanchored : isAnchored path = false := isAnchored_of_pieces hpath hfirst.ne_empty
  have hanchored' : isAnchored (ofPieces ("." :: back)) = false :=
    isAnchored_of_pieces hpieces (by decide)
  refine normalize_congr (hanchored.trans hanchored'.symm) ?_
  rw [walkedTo, walkedTo, hanchored, hanchored', hpath, hpieces, List.foldl_cons, List.foldl_append,
    walk_name hfirst.not_idle hfirst.ne_up, hfront.foldl_walk hslash, List.foldl_cons,
    walk_up_name hfirst.ne_up, hdrive, List.foldl_cons, walk_idle rfl]
  rfl

end FirstName

end BuildAtlas.Path
