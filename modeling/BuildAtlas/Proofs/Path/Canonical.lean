import BuildAtlas.Proofs.Path
import Mathlib.Data.List.Induction

/-!
# BuildAtlas.Proofs.Path.Canonical

The one spelling of a path: its form, and what becomes of paths that are put together.

`IsCanonical` is the form of a path that has been brought to its one spelling: names behind steps up
from where a relative path begins. A walk along pieces keeps this order (`Walked.walk`), so what it
has reached is told by names and steps up alone, and `normalize` spells just that
(`normalize_eq_self_iff`). What a relative walk has reached leads from any place to where its pieces
lead (`foldl_walk_reverse`). Each part of a path may therefore be brought to its one spelling before
the parts are put together (`normalize_piecewise`).
-/

namespace BuildAtlas.Path

/-- A path in its one spelling: names, behind steps up when it is relative. -/
inductive IsCanonical : String → Prop
  | top : IsCanonical "/"
  | here : IsCanonical "."
  | anchored {names : List String} (hnames : ∀ name ∈ names, IsName name) (hne : names ≠ []) :
      IsCanonical ("/" ++ ofPieces names)
  | relative {ups : Nat} {names : List String} (hnames : ∀ name ∈ names, IsName name)
      (hne : List.replicate ups ".." ++ names ≠ []) :
      IsCanonical (ofPieces (List.replicate ups ".." ++ names))

/-! ### One step of a walk -/

section Step

variable {anchored : Bool} {walked outer : List String} {piece last : String}

theorem walk_idle (h : isIdle piece = true) : walk anchored walked piece = walked := by
  simp [walk, h]

theorem walk_name (hidle : isIdle piece = false) (hup : piece ≠ "..") :
    walk anchored walked piece = piece :: walked := by
  simp [walk, hidle, hup]

theorem walk_up_up : walk anchored (".." :: outer) ".." = ".." :: ".." :: outer := rfl

theorem walk_up_replicate (n : Nat) :
    walk false (List.replicate n "..") ".." = List.replicate (n + 1) ".." := by
  cases n with
  | zero => rfl
  | succ n => exact walk_up_up

/-- A step up takes back a name, but not a drive. -/
theorem walk_up_name (hup : last ≠ "..") :
    walk anchored (last :: outer) ".." = if isDrive last then last :: outer else outer := by
  have hidle : isIdle ".." = false := rfl
  simp [walk, hidle, hup]

end Step

/-! ### What a walk reaches -/

/-- What a walk can have reached, innermost first: names inside of steps up, and no steps up from
the top. -/
inductive Walked (anchored : Bool) : List String → Prop
  | ups (n : Nat) (h : anchored = true → n = 0) : Walked anchored (List.replicate n "..")
  | name {name : String} {walked : List String} (hname : IsName name)
      (h : Walked anchored walked) : Walked anchored (name :: walked)

section Walks

variable {anchored : Bool} {walked : List String}

theorem Walked.walk {piece : String} (h : Walked anchored walked) (hpiece : '/' ∉ piece.toList) :
    Walked anchored (walk anchored walked piece) := by
  cases hidle : isIdle piece with
  | true => rwa [walk_idle hidle]
  | false =>
      by_cases hup : piece = ".."
      · subst hup
        cases h with
        | ups n hn =>
            cases anchored with
            | true => rw [hn rfl]; exact .ups 0 fun _ => rfl
            | false => rw [walk_up_replicate]; exact .ups (n + 1) nofun
        | name hname h =>
            rw [walk_up_name hname.ne_up]
            split
            · exact .name hname h
            · exact h
      · rw [walk_name hidle hup]
        exact .name ⟨hidle, hup, hpiece⟩ h

theorem Walked.foldl {pieces : List String} (h : Walked anchored walked)
    (hpieces : ∀ piece ∈ pieces, '/' ∉ piece.toList) :
    Walked anchored (pieces.foldl (Path.walk anchored) walked) := by
  induction pieces generalizing walked with
  | nil => exact h
  | cons piece rest ih =>
      rw [List.forall_mem_cons] at hpieces
      exact ih (h.walk hpieces.1) hpieces.2

/-- Walking along what has been reached leads there again. -/
theorem Walked.foldl_reverse (h : Walked anchored walked) :
    walked.reverse.foldl (Path.walk anchored) [] = walked := by
  induction h with
  | ups n hn =>
      cases anchored with
      | true => rw [hn rfl]; rfl
      | false =>
          rw [List.reverse_replicate]
          clear hn
          induction n with
          | zero => rfl
          | succ n ih =>
              rw [List.replicate_succ', List.foldl_append, ih, ← List.replicate_succ']
              exact walk_up_replicate n
  | name hname h ih =>
      rw [List.reverse_cons, List.foldl_append, ih]
      exact walk_name hname.not_idle hname.ne_up

/-- One more piece behind a relative walk takes what the walk leads to on by this piece. -/
theorem Walked.foldl_reverse_walk (h : Walked false walked) (before : List String)
    (piece : String) : (Path.walk false walked piece).reverse.foldl (Path.walk anchored) before =
      Path.walk anchored (walked.reverse.foldl (Path.walk anchored) before) piece := by
  have hcons (piece : String) : (piece :: walked).reverse.foldl (Path.walk anchored) before =
      Path.walk anchored (walked.reverse.foldl (Path.walk anchored) before) piece := by
    rw [List.reverse_cons, List.foldl_append]
    rfl
  cases hidle : isIdle piece with
  | true => rw [walk_idle hidle, walk_idle hidle]
  | false =>
      by_cases hup : piece = ".."
      · subst hup
        cases h with
        | ups n hn =>
            cases n with
            | zero => rfl
            | succ n => exact hcons ".."
        | @name name outer hname h =>
            -- the name is walked last, so the step up takes back this name on both sides
            rw [walk_up_name hname.ne_up, List.reverse_cons, List.foldl_append, List.foldl_cons,
              List.foldl_nil, walk_name hname.not_idle hname.ne_up, walk_up_name hname.ne_up]
            split
            · rw [List.reverse_cons, List.foldl_append, List.foldl_cons, List.foldl_nil,
                walk_name hname.not_idle hname.ne_up]
            · rfl
      · rw [walk_name hidle hup, hcons]

/-- What a relative walk has reached leads from any place to where the pieces lead. -/
theorem foldl_walk_reverse {pieces : List String}
    (hpieces : ∀ piece ∈ pieces, '/' ∉ piece.toList) (before : List String) :
    (pieces.foldl (Path.walk false) []).reverse.foldl (Path.walk anchored) before =
      pieces.foldl (Path.walk anchored) before := by
  induction pieces using List.reverseRecOn with
  | nil => rfl
  | append_singleton pieces piece ih =>
      rw [List.forall_mem_append] at hpieces
      have hwalked : Walked false (pieces.foldl (Path.walk false) []) :=
        Walked.foldl (.ups 0 nofun) hpieces.1
      rw [List.foldl_append, List.foldl_append, ← ih hpieces.1]
      exact hwalked.foldl_reverse_walk before piece

end Walks

/-! ### Spelling what has been reached -/

/-- The path to what a walk has reached. -/
def spelled (anchored : Bool) (walked : List String) : String :=
  if anchored then "/" ++ ofPieces walked.reverse
  else if walked.isEmpty then "."
  else ofPieces walked.reverse

/-- What the walk along a path reaches. -/
def walkedTo (path : String) : List String :=
  (pieces path).foldl (walk (isAnchored path)) []

theorem normalize_eq (path : String) : normalize path = spelled (isAnchored path) (walkedTo path) :=
  rfl

theorem walked_walkedTo (path : String) : Walked (isAnchored path) (walkedTo path) :=
  Walked.foldl (.ups 0 fun _ => rfl) fun _ => slash_not_mem_of_mem_pieces

section Spelled

variable {anchored : Bool} {walked : List String}

/-- Steps up and names have no slashes in them, and something to begin with. -/
theorem Walked.of_mem {piece : String} (h : Walked anchored walked) (hpiece : piece ∈ walked) :
    '/' ∉ piece.toList ∧ piece ≠ "" := by
  induction h with
  | ups n hn =>
      rw [List.eq_of_mem_replicate hpiece]
      decide
  | name hname h ih =>
      rcases List.mem_cons.1 hpiece with rfl | hpiece
      · exact ⟨hname.slash_not_mem, hname.ne_empty⟩
      · exact ih hpiece

theorem Walked.pieces_ofPieces (h : Walked anchored walked) (hne : walked ≠ []) :
    pieces (ofPieces walked.reverse) = walked.reverse :=
  Path.pieces_ofPieces (fun _ hname => (h.of_mem (List.mem_reverse.1 hname)).1)
    (List.reverse_eq_nil_iff.not.2 hne)

theorem isAnchored_spelled (h : Walked anchored walked) :
    isAnchored (spelled anchored walked) = anchored := by
  cases anchored with
  | true => exact isAnchored_append (by decide) _
  | false =>
      cases hreverse : walked.reverse with
      | nil =>
          rw [List.reverse_eq_nil_iff.1 hreverse]
          rfl
      | cons first rest =>
          have hmem : first ∈ walked := List.mem_reverse.1 (hreverse ▸ List.mem_cons_self)
          obtain ⟨hslash, hfirst⟩ := h.of_mem hmem
          have hwalked : walked.isEmpty = false := by
            rw [List.isEmpty_eq_false_iff]
            exact List.ne_nil_of_mem hmem
          have hspelled : spelled false walked = ofPieces (first :: rest) := by
            simp [spelled, hwalked, hreverse]
          rw [hspelled]
          cases rest with
          | nil =>
              rw [ofPieces, String.intercalate_singleton]
              exact isAnchored_eq_false_of_not_mem hslash
          | cons second rest =>
              rw [ofPieces, String.intercalate_cons_cons, String.append_assoc,
                isAnchored_append hfirst]
              exact isAnchored_eq_false_of_not_mem hslash

/-- A spelled path has the pieces that have been reached, behind an empty one when it is
anchored. -/
theorem pieces_spelled (h : Walked anchored walked) (hne : walked ≠ []) :
    pieces (spelled anchored walked) = (if anchored then [""] else []) ++ walked.reverse := by
  have hpieces := h.pieces_ofPieces hne
  cases anchored with
  | true =>
      have hempty : "/" ++ ofPieces walked.reverse = "" ++ "/" ++ ofPieces walked.reverse := by
        rw [String.empty_append]
      rw [spelled, if_pos rfl, hempty, pieces_append_slash, hpieces]
      rfl
  | false =>
      have hspelled : spelled false walked = ofPieces walked.reverse := by
        simp [spelled, hne]
      rw [hspelled, hpieces]
      rfl

/-- The path to what has been reached leads to where its parts lead. -/
theorem foldl_pieces_spelled (h : Walked anchored walked) (flag : Bool) (before : List String) :
    (pieces (spelled anchored walked)).foldl (walk flag) before =
      walked.reverse.foldl (walk flag) before := by
  have hidle : walk flag before "" = before := walk_idle rfl
  by_cases hne : walked = []
  · subst hne
    cases anchored with
    | true => exact (congrArg (walk flag · "") hidle).trans hidle
    | false => exact @walk_idle flag before "." rfl
  · rw [pieces_spelled h hne, List.foldl_append]
    cases anchored with
    | true => exact congrArg (List.foldl _ · _) hidle
    | false => rfl

theorem walkedTo_spelled (h : Walked anchored walked) :
    walkedTo (spelled anchored walked) = walked := by
  rw [walkedTo, isAnchored_spelled h, foldl_pieces_spelled h]
  exact h.foldl_reverse

theorem normalize_spelled (h : Walked anchored walked) :
    normalize (spelled anchored walked) = spelled anchored walked := by
  rw [normalize_eq, isAnchored_spelled h, walkedTo_spelled h]

end Spelled

/-! ### The form of what is spelled -/

theorem Walked.exists_reverse_eq {anchored : Bool} {walked : List String}
    (h : Walked anchored walked) : ∃ ups names, (anchored = true → ups = 0) ∧
      (∀ name ∈ names, IsName name) ∧ walked.reverse = List.replicate ups ".." ++ names := by
  induction h with
  | ups n hn => exact ⟨n, [], hn, by simp, by simp⟩
  | @name name walked hname h ih =>
      obtain ⟨ups, names, hups, hnames, hwalked⟩ := ih
      refine ⟨ups, names ++ [name], hups, ?_, ?_⟩
      · rw [List.forall_mem_append]
        exact ⟨hnames, List.forall_mem_singleton.2 hname⟩
      · rw [List.reverse_cons, hwalked, List.append_assoc]

theorem walked_reverse {anchored : Bool} {ups : Nat} {names : List String}
    (hups : anchored = true → ups = 0) (hnames : ∀ name ∈ names, IsName name) :
    Walked anchored (List.replicate ups ".." ++ names).reverse := by
  induction names using List.reverseRecOn with
  | nil => simpa using Walked.ups ups hups
  | append_singleton names name ih =>
      rw [List.forall_mem_append, List.forall_mem_singleton] at hnames
      rw [← List.append_assoc, List.reverse_concat]
      exact .name hnames.2 (ih hnames.1)

/-- The canonical paths are those to what walks reach. -/
theorem isCanonical_iff {path : String} :
    IsCanonical path ↔
      ∃ anchored walked, Walked anchored walked ∧ path = spelled anchored walked := by
  constructor
  · intro h
    cases h with
    | top => exact ⟨true, [], .ups 0 fun _ => rfl, by decide⟩
    | here => exact ⟨false, [], .ups 0 nofun, rfl⟩
    | @anchored names hnames hne =>
        refine ⟨true, _, @walked_reverse true 0 names (fun _ => rfl) hnames, ?_⟩
        simp [spelled]
    | @relative ups names hnames hne =>
        refine ⟨false, _, @walked_reverse false ups names nofun hnames, ?_⟩
        have hwalked : (List.replicate ups ".." ++ names).reverse.isEmpty = false := by
          rw [List.isEmpty_reverse, List.isEmpty_eq_false_iff]
          exact hne
        rw [spelled, hwalked, List.reverse_reverse]
        rfl
  · rintro ⟨anchored, walked, h, rfl⟩
    obtain ⟨ups, names, hups, hnames, hwalked⟩ := h.exists_reverse_eq
    cases anchored with
    | true =>
        rw [spelled, if_pos rfl, hwalked, hups rfl, List.replicate_zero, List.nil_append]
        cases names with
        | nil => exact .top
        | cons name names => exact .anchored hnames (List.cons_ne_nil name names)
    | false =>
        cases walked with
        | nil => exact .here
        | cons last outer =>
            have hne : (last :: outer).reverse ≠ [] := by simp
            have hspelled : spelled false (last :: outer) = ofPieces (last :: outer).reverse := rfl
            rw [hspelled, hwalked]
            exact .relative hnames (hwalked ▸ hne)

theorem isCanonical_normalize (path : String) : IsCanonical (normalize path) :=
  isCanonical_iff.2 ⟨_, _, walked_walkedTo path, rfl⟩

theorem IsCanonical.normalize_eq {path : String} (h : IsCanonical path) :
    normalize path = path := by
  obtain ⟨anchored, walked, hwalked, rfl⟩ := isCanonical_iff.1 h
  exact normalize_spelled hwalked

theorem normalize_eq_self_iff {path : String} : normalize path = path ↔ IsCanonical path :=
  ⟨fun h => h ▸ isCanonical_normalize path, IsCanonical.normalize_eq⟩

instance (path : String) : Decidable (IsCanonical path) :=
  decidable_of_iff (normalize path = path) normalize_eq_self_iff

@[simp] theorem normalize_normalize (path : String) : normalize (normalize path) = normalize path :=
  (isCanonical_normalize path).normalize_eq

@[simp] theorem isAnchored_normalize (path : String) :
    isAnchored (normalize path) = isAnchored path :=
  isAnchored_spelled (walked_walkedTo path)

theorem walkedTo_normalize (path : String) : walkedTo (normalize path) = walkedTo path :=
  walkedTo_spelled (walked_walkedTo path)

theorem normalize_ne_empty (path : String) : normalize path ≠ "" := by
  intro h
  have hempty : normalize "" = "" := h ▸ normalize_normalize path
  exact absurd hempty (by decide)

theorem exists_getLast?_ofPieces {parts : List String} (hne : parts ≠ [])
    (h : ∀ part ∈ parts, IsName part ∨ part = "..") :
    ∃ c, c ≠ '/' ∧ (ofPieces parts).toList.getLast? = some c := by
  obtain ⟨front, last, rfl⟩ := (List.eq_nil_or_concat' parts).resolve_left hne
  rcases h last (by simp) with hname | rfl
  · obtain ⟨c, hc, hlast⟩ := hname.exists_getLast?
    exact ⟨c, hc, getLast?_ofPieces hlast⟩
  · exact ⟨'.', by decide, getLast?_ofPieces rfl⟩

/-- No canonical path but the top ends in a slash. -/
theorem IsCanonical.getLast?_ne {path : String} (h : IsCanonical path) (htop : path ≠ "/") :
    path.toList.getLast? ≠ some '/' := by
  cases h with
  | top => exact absurd rfl htop
  | here => decide
  | anchored hnames hne =>
      obtain ⟨c, hc, hlast⟩ :=
        exists_getLast?_ofPieces hne fun name hname => .inl (hnames name hname)
      rw [getLast?_append_of_getLast? hlast]
      exact fun h => hc (Option.some.inj h)
  | @relative ups names hnames hne =>
      obtain ⟨c, hc, hlast⟩ := exists_getLast?_ofPieces hne fun part hpart => by
        rcases List.mem_append.1 hpart with hpart | hpart
        · exact .inr (List.eq_of_mem_replicate hpart)
        · exact .inl (hnames part hpart)
      rw [hlast]
      exact fun h => hc (Option.some.inj h)

/-- Every path is brought to a canonical one, which begins in a slash if it does. The canonical
paths are those that stay as they are. -/
theorem normalize_canonical (path : String) :
    isAnchored (normalize path) = isAnchored path ∧ IsCanonical (normalize path) ∧
      (normalize path = "/" ∨ (normalize path).toList.getLast? ≠ some '/') ∧
      (∀ other, normalize other = other ↔ IsCanonical other) ∧
      normalize (normalize path) = normalize path := by
  refine ⟨isAnchored_normalize path, isCanonical_normalize path, ?_,
    fun other => normalize_eq_self_iff, normalize_normalize path⟩
  by_cases htop : normalize path = "/"
  · exact .inl htop
  · exact .inr ((isCanonical_normalize path).getLast?_ne htop)

/-! ### Paths put together -/

/-- Where a path leads is told by whether it is anchored and by what its walk reaches. -/
theorem normalize_congr {path other : String} (hanchored : isAnchored path = isAnchored other)
    (hwalked : walkedTo path = walkedTo other) : normalize path = normalize other := by
  rw [normalize_eq, normalize_eq, hanchored, hwalked]

theorem walkedTo_append_slash {front : String} (h : front ≠ "") (back : String) :
    walkedTo (front ++ "/" ++ back) =
      (pieces back).foldl (walk (isAnchored front)) (walkedTo front) := by
  rw [walkedTo, pieces_append_slash, String.append_assoc, isAnchored_append h, List.foldl_append]
  rfl

theorem isAnchored_append_slash {front : String} (h : front ≠ "") (back : String) :
    isAnchored (front ++ "/" ++ back) = isAnchored front := by
  rw [String.append_assoc]
  exact isAnchored_append h _

/-- A relative path in its one spelling leads from any place to where the path leads. -/
theorem foldl_pieces_normalize {path : String} (h : isAnchored path = false) (anchored : Bool)
    (before : List String) : (pieces (normalize path)).foldl (walk anchored) before =
      (pieces path).foldl (walk anchored) before := by
  rw [normalize_eq, foldl_pieces_spelled (walked_walkedTo path), walkedTo, h]
  exact foldl_walk_reverse (fun _ => slash_not_mem_of_mem_pieces) before

theorem normalize_front {front : String} (h : front ≠ "") (back : String) :
    normalize (normalize front ++ "/" ++ back) = normalize (front ++ "/" ++ back) := by
  refine normalize_congr ?_ ?_
  · rw [isAnchored_append_slash (normalize_ne_empty front), isAnchored_append_slash h,
      isAnchored_normalize]
  · rw [walkedTo_append_slash (normalize_ne_empty front), walkedTo_append_slash h,
      isAnchored_normalize, walkedTo_normalize]

theorem normalize_back {front back : String} (h : front ≠ "") (hback : isAnchored back = false) :
    normalize (front ++ "/" ++ normalize back) = normalize (front ++ "/" ++ back) := by
  refine normalize_congr ?_ ?_
  · rw [isAnchored_append_slash h, isAnchored_append_slash h]
  · rw [walkedTo_append_slash h, walkedTo_append_slash h, foldl_pieces_normalize hback]

/-- A relative path that is joined goes on from where the base leads. -/
theorem walkedTo_join {base path : String} (h : isAnchored path = false) :
    walkedTo (join base path) = (pieces path).foldl (walk (isAnchored base)) (walkedTo base) := by
  by_cases hbase : base = ""
  · subst hbase
    rw [empty_join, walkedTo, h]
    rfl
  · have hidle (before : List String) : walk (isAnchored base) before "" = before := walk_idle rfl
    have hwalked : walkedTo base = (directoryPieces base).foldl (walk (isAnchored base)) [] := by
      rw [walkedTo]
      rcases directoryPieces_cases base with hpieces | hpieces
      · rw [hpieces]
      · rw [hpieces, List.foldl_append, List.foldl_cons, hidle, List.foldl_nil]
    rw [walkedTo, pieces_join_of_relative hbase h, isAnchored_join h,
      List.foldl_append, hwalked]

/-- A path and its base may be brought to their one spelling before they are joined. -/
theorem normalize_join (base path : String) :
    normalize (join (normalize base) (normalize path)) = normalize (join base path) := by
  cases h : isAnchored path with
  | true =>
      rw [join_of_isAnchored h, join_of_isAnchored ((isAnchored_normalize path).trans h),
        normalize_normalize]
  | false =>
      have hnormal : isAnchored (normalize path) = false := (isAnchored_normalize path).trans h
      refine normalize_congr ?_ ?_
      · rw [isAnchored_join hnormal, isAnchored_join h, isAnchored_normalize]
      · rw [walkedTo_join hnormal, walkedTo_join h, isAnchored_normalize, walkedTo_normalize,
          foldl_pieces_normalize h]

/-- The base may be brought to its one spelling before a path is resolved against it. -/
theorem normalize_resolve_base (base path : String) :
    normalize (resolve (normalize base) path) = normalize (resolve base path) := by
  have hjoin : normalize (join (normalize base) path) = normalize (join base path) := by
    rw [← normalize_join (normalize base) path, normalize_normalize, normalize_join]
  rw [resolve, resolve]
  split
  · rfl
  · rw [hjoin]

/-- Resolving asks the spelling of a path whether it is absolute. So its one spelling is resolved
alike only if it is absolute alike, or if joining the path to the base leads nowhere else. -/
theorem normalize_resolve_eq_iff {base path : String} :
    normalize (resolve base path) = resolve (normalize base) (normalize path) ↔
      isAbsolute (normalize path) = isAbsolute path ∨
        normalize (join base path) = normalize path := by
  rw [resolve, resolve]
  cases isAbsolute path <;> cases isAbsolute (normalize path)
  · simp [normalize_join]
  · simp
  · simp [normalize_join, eq_comm]
  · simp

/-- The parts of a path may be brought to their one spelling before they are put together, all or
some of them, and so may a base before a path is resolved against it. The path that is resolved may
as well, where this does not change whether it is absolute, and else only where joining it to the
base leads nowhere else. -/
theorem normalize_piecewise {front back : String} (hfront : front ≠ "")
    (hback : isAnchored back = false) :
    normalize (front ++ "/" ++ back) = normalize (normalize front ++ "/" ++ normalize back) ∧
      normalize (front ++ "/" ++ back) = normalize (normalize front ++ "/" ++ back) ∧
      normalize (front ++ "/" ++ back) = normalize (front ++ "/" ++ normalize back) ∧
      ∀ base path, normalize (join base path) = normalize (join (normalize base) (normalize path)) ∧
        normalize (resolve base path) = normalize (resolve (normalize base) path) ∧
        (normalize (resolve base path) = resolve (normalize base) (normalize path) ↔
          isAbsolute (normalize path) = isAbsolute path ∨
            normalize (join base path) = normalize path) := by
  refine ⟨?_, (normalize_front hfront back).symm, (normalize_back hfront hback).symm,
    fun base path => ⟨(normalize_join base path).symm, (normalize_resolve_base base path).symm,
      normalize_resolve_eq_iff⟩⟩
  rw [normalize_front hfront, normalize_back hfront hback]

theorem normalize_piecewise_climbing :
    normalize ("/a/x/.." ++ "/" ++ "b/../../../C:/../c") =
        normalize ("/a" ++ "/" ++ "../../C:/c") ∧
      normalize (resolve "/p/./q" "x/../../y") = resolve "/p/q" "../y" := by
  have hfront : normalize "/a/x/.." = "/a" := by decide +kernel
  have hback : normalize "b/../../../C:/../c" = "../../C:/c" := by decide +kernel
  have hbase : normalize "/p/./q" = "/p/q" := by decide +kernel
  have hpath : normalize "x/../../y" = "../y" := by decide +kernel
  have habsolute : isAbsolute (normalize "x/../../y") = isAbsolute "x/../../y" := by decide +kernel
  obtain ⟨hpieces, -, -, hresolve⟩ :=
    @normalize_piecewise "/a/x/.." "b/../../../C:/../c" (by decide) (by decide)
  rw [hfront, hback] at hpieces
  refine ⟨hpieces, ?_⟩
  rw [← hbase, ← hpath]
  exact (hresolve "/p/./q" "x/../../y").2.2.2 (.inl habsolute)

/-- A path that is absolute in its one spelling only, and one that is absolute in all but this one:
bringing them to it before they are resolved leads elsewhere. -/
theorem not_resolve_piecewise :
    (normalize (resolve "/p" "./C:/x") = "/p/C:/x" ∧
      resolve (normalize "/p") (normalize "./C:/x") = "C:/x") ∧
    (normalize (resolve "/p" "C:x/..") = "." ∧
      resolve (normalize "/p") (normalize "C:x/..") = "/p") ∧
    ¬ ∀ base path, normalize (resolve base path) = resolve (normalize base) (normalize path) := by
  have hlate : normalize (resolve "/p" "./C:/x") = "/p/C:/x" ∧
      resolve (normalize "/p") (normalize "./C:/x") = "C:/x" := by decide +kernel
  have hearly : normalize (resolve "/p" "C:x/..") = "." ∧
      resolve (normalize "/p") (normalize "C:x/..") = "/p" := by decide +kernel
  refine ⟨hlate, hearly, fun h => ?_⟩
  have hsame : "/p/C:/x" = "C:/x" := hlate.1.symm.trans ((h "/p" "./C:/x").trans hlate.2)
  exact absurd hsame (by decide)

end BuildAtlas.Path
