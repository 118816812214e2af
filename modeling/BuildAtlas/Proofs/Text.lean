import BuildAtlas.Text.Blank
import BuildAtlas.Text.Split
import Mathlib.Data.List.DropRight
import Mathlib.Data.List.Infix

/-!
# BuildAtlas.Proofs.Text

What trimming leaves of a text, and where a text is cut.

Trimming takes elements off both ends and nothing else: what stands in front and behind and is
dropped makes no difference (`trimWhere_append`), and a beginning whose own ends are kept is kept
(`prefix_trimWhere`). A text is cut at the first place of a pattern (`breakOn?_eq_some_iff`); before
that of a character, the character does not stand (`breakOn?_singleton_eq_some_iff`). What stands in
front of the first place of a pattern is not touched by a replacement
(`replaceFirstIn_append_of_not_mem`). The lines of a text are the texts that line feeds part
(`splitOn_ofList`).
-/

namespace BuildAtlas.Text

/-! ### Trimming -/

section Trimming

variable {α : Type} {p : α → Bool}

theorem dropEndWhile_of_forall {xs : List α} (h : ∀ a ∈ xs, p a = true) :
    dropEndWhile p xs = [] := by
  rw [dropEndWhile, List.dropWhile_eq_nil_iff.2 (by simpa using h), List.reverse_nil]

theorem dropEndWhile_append {xs back : List α} (hback : ∀ a ∈ back, p a = true) :
    dropEndWhile p (xs ++ back) = dropEndWhile p xs := by
  rw [dropEndWhile, dropEndWhile, List.reverse_append,
    List.dropWhile_append_of_pos (by simpa using hback)]

/-- Elements that are dropped do not matter at the ends. -/
theorem trimWhere_append {front xs back : List α} (hfront : ∀ a ∈ front, p a = true)
    (hback : ∀ a ∈ back, p a = true) : trimWhere p (front ++ xs ++ back) = trimWhere p xs := by
  rw [trimWhere, trimWhere, List.append_assoc, List.dropWhile_append_of_pos hfront,
    List.dropWhile_append]
  by_cases hnone : (xs.dropWhile p).isEmpty = true
  · rw [if_pos hnone, List.isEmpty_iff.1 hnone, List.dropWhile_eq_nil_iff.2 hback]
  · rw [if_neg hnone, dropEndWhile_append hback]

theorem isPrefix_dropEndWhile (xs : List α) : dropEndWhile p xs <+: xs :=
  List.rdropWhile_prefix p xs

/-- Only the beginning and the end are dropped, and what is dropped in front ends where the first
element is kept. -/
theorem isPrefix_trimWhere {xs : List α} (hhead : ∀ a, xs.head? = some a → p a = false) :
    trimWhere p xs <+: xs := by
  have hkept : xs.dropWhile p = xs := by
    cases xs with
    | nil => rfl
    | cons a rest => exact List.dropWhile_cons_of_neg (by simp [hhead a rfl])
  rw [trimWhere, hkept]
  exact isPrefix_dropEndWhile xs

/-- Trimming ends in front at the first element that is kept. -/
theorem eq_false_of_head?_trimWhere {xs : List α} {a : α} (h : (trimWhere p xs).head? = some a) :
    p a = false := by
  obtain ⟨back, hback⟩ := isPrefix_dropEndWhile (p := p) (xs.dropWhile p)
  have hhead : (xs.dropWhile p).head? = some a := by
    rw [← hback, List.head?_append]
    exact Option.or_eq_some_iff.2 (.inl h)
  have hfirst := List.head?_dropWhile_not p xs
  rw [hhead] at hfirst
  exact hfirst

/-- Dropping from the end stops at the last element that is kept. -/
theorem eq_false_of_getLast?_dropEndWhile {xs : List α} {a : α}
    (h : (dropEndWhile p xs).getLast? = some a) : p a = false := by
  rw [dropEndWhile, List.getLast?_reverse] at h
  have hlast := List.head?_dropWhile_not p xs.reverse
  rw [h] at hlast
  exact hlast

theorem mem_of_mem_trimWhere {xs : List α} {a : α} (h : a ∈ trimWhere p xs) : a ∈ xs :=
  (List.dropWhile_suffix p).subset ((isPrefix_dropEndWhile _).subset h)

theorem trimWhere_of_forall {xs : List α} (h : ∀ a ∈ xs, p a = false) : trimWhere p xs = xs := by
  have hfront : xs.dropWhile p = xs := List.dropWhile_eq_self_iff.2 fun hl => by
    simp [h _ (List.getElem_mem hl)]
  have hback : xs.reverse.dropWhile p = xs.reverse := List.dropWhile_eq_self_iff.2 fun hl => by
    simp only [h _ (List.mem_reverse.1 (List.getElem_mem hl)), Bool.false_eq_true,
      not_false_eq_true]
  rw [trimWhere, hfront, dropEndWhile, hback, List.reverse_reverse]

/-- What is trimmed is not trimmed further. -/
theorem trimWhere_trimWhere (xs : List α) : trimWhere p (trimWhere p xs) = trimWhere p xs := by
  have hfront : (trimWhere p xs).dropWhile p = trimWhere p xs := by
    cases h : trimWhere p xs with
    | nil => rfl
    | cons a rest =>
        have ha : p a = false := by
          refine @eq_false_of_head?_trimWhere _ _ xs _ ?_
          rw [h]
          rfl
        exact List.dropWhile_cons_of_neg (ne_true_of_eq_false ha)
  rw [trimWhere, hfront]
  exact List.rdropWhile_idempotent p (xs.dropWhile p)

theorem trimWhere_map {β : Type} (f : β → α) (xs : List β) :
    trimWhere p (xs.map f) = (trimWhere (p ∘ f) xs).map f := by
  rw [trimWhere, trimWhere, dropEndWhile, dropEndWhile, List.dropWhile_map, ← List.map_reverse,
    List.dropWhile_map, List.map_reverse]

/-- A beginning with ends that are kept stays where it is. -/
theorem prefix_trimWhere {start xs : List α} (hhead : ∀ a, start.head? = some a → p a = false)
    (hlast : ∀ a, start.getLast? = some a → p a = false) (h : start <+: xs) :
    start <+: trimWhere p xs := by
  obtain ⟨rest, rfl⟩ := h
  cases start with
  | nil => exact List.nil_prefix
  | cons a more =>
      have hfront : (a :: more ++ rest).dropWhile p = a :: more ++ rest :=
        List.dropWhile_cons_of_neg (by simp [hhead a rfl])
      have hend : (a :: more).reverse.dropWhile p = (a :: more).reverse := by
        cases hreverse : (a :: more).reverse with
        | nil => rfl
        | cons b before =>
            refine List.dropWhile_cons_of_neg ?_
            rw [hlast b (by rw [List.getLast?_eq_head?_reverse, hreverse]; rfl)]
            exact Bool.false_ne_true
      rw [trimWhere, hfront, dropEndWhile, List.reverse_append, List.dropWhile_append, hend]
      split
      · rw [List.reverse_reverse]
      · rw [List.reverse_append, List.reverse_reverse]
        exact List.prefix_append _ _

end Trimming

/-! ### Cuts -/

section Cuts

variable {α : Type} [DecidableEq α]

/-- The first place of an element parts a list in one way. -/
theorem append_cons_eq_append_cons_iff {α : Type} {a : α} {front other back more : List α}
    (hfront : a ∉ front) (hother : a ∉ other) :
    front ++ a :: back = other ++ a :: more ↔ front = other ∧ back = more := by
  induction front generalizing other with
  | nil =>
      cases other with
      | nil => simp
      | cons b other => simpa using fun h => absurd h (List.ne_of_not_mem_cons hother)
  | cons b front ih =>
      cases other with
      | nil => simpa using fun h => absurd h.symm (List.ne_of_not_mem_cons hfront)
      | cons c other =>
          rw [List.cons_append, List.cons_append, List.cons.injEq, List.cons.injEq,
            ih (List.not_mem_of_not_mem_cons hfront) (List.not_mem_of_not_mem_cons hother),
            and_assoc]

theorem after?_eq_none_iff {start xs : List α} : after? start xs = none ↔ ¬ start <+: xs := by
  rw [Option.eq_none_iff_forall_ne_some]
  constructor
  · rintro h ⟨rest, hrest⟩
    exact h rest (after?_eq_some_iff.2 hrest.symm)
  · intro h rest hrest
    exact h ⟨rest, (after?_eq_some_iff.1 hrest).symm⟩

/-- A text is cut at the first place of a pattern. -/
theorem breakOn?_eq_some_iff {pattern xs before rest : List α} :
    breakOn? pattern xs = some (before, rest) ↔ xs = before ++ pattern ++ rest ∧
      ∀ before' rest', xs = before' ++ pattern ++ rest' → before.length ≤ before'.length := by
  induction xs generalizing before with
  | nil =>
      rw [breakOn?]
      by_cases hpattern : pattern = []
      · simp +contextual [hpattern, eq_comm]
      · simp [hpattern]
  | cons x xs ih =>
      rw [breakOn?]
      cases hfound : after? pattern (x :: xs) with
      | some found =>
          -- the pattern stands in front, so a first place is the one in front
          have hfront := after?_eq_some_iff.1 hfound
          simp only [Option.some.injEq, Prod.mk.injEq]
          constructor
          · rintro ⟨rfl, rfl⟩
            exact ⟨hfront, fun _ _ _ => Nat.zero_le _⟩
          · rintro ⟨hplace, hfirst⟩
            obtain rfl := List.length_eq_zero_iff.1 (Nat.le_zero.1 (hfirst [] found hfront))
            exact ⟨rfl, List.append_cancel_left (hfront.symm.trans hplace)⟩
      | none =>
          have hnone (rest' : List α) : x :: xs ≠ pattern ++ rest' :=
            fun h => after?_eq_none_iff.1 hfound ⟨rest', h.symm⟩
          simp only [Option.map_eq_some_iff, Prod.exists, Prod.mk.injEq]
          constructor
          · rintro ⟨front, back, hcut, rfl, rfl⟩
            obtain ⟨hplace, hfirst⟩ := ih.1 hcut
            refine ⟨by rw [hplace]; rfl, fun before' rest' h => ?_⟩
            cases before' with
            | nil => exact absurd h (hnone rest')
            | cons y before' => exact Nat.succ_le_succ (hfirst before' rest' (List.cons.inj h).2)
          · rintro ⟨hplace, hfirst⟩
            cases before with
            | nil => exact absurd hplace (hnone rest)
            | cons y before =>
                obtain ⟨rfl, hxs⟩ := List.cons.inj hplace
                refine ⟨before, rest, ih.2 ⟨hxs, fun before' rest' h => ?_⟩, rfl, rfl⟩
                exact Nat.le_of_succ_le_succ (hfirst (x :: before') rest' (by rw [h]; rfl))

end Cuts

theorem breakOn?_singleton_eq_some_iff {c : Char} {cs before rest : List Char} :
    breakOn? [c] cs = some (before, rest) ↔ cs = before ++ c :: rest ∧ c ∉ before := by
  induction cs generalizing before with
  | nil => simp [breakOn?]
  | cons d cs ih =>
      rw [breakOn?]
      by_cases h : c = d
      · -- the first character is the one that is looked for, so nothing stands before it
        subst h
        cases before with
        | nil => simp [after?, eq_comm]
        | cons b before =>
            simp only [after?, ↓reduceIte, Option.some.injEq, Prod.mk.injEq, List.cons_append,
              List.cons.injEq, List.mem_cons, not_or, reduceCtorEq, false_and, false_iff]
            exact fun h => h.2.1 h.1.1
      · cases before with
        | nil => simp [after?, h, Ne.symm h]
        | cons b before =>
            simp only [after?, h, ↓reduceIte, Option.map_eq_some_iff, Prod.exists,
              Prod.mk.injEq, List.cons.injEq, List.cons_append, List.mem_cons, not_or]
            constructor
            · rintro ⟨front, back, hcut, ⟨rfl, rfl⟩, rfl⟩
              obtain ⟨rfl, hfront⟩ := ih.1 hcut
              exact ⟨⟨rfl, rfl⟩, h, hfront⟩
            · rintro ⟨⟨rfl, rfl⟩, -, hbefore⟩
              exact ⟨before, rest, ih.2 ⟨rfl, hbefore⟩, ⟨rfl, rfl⟩, rfl⟩

theorem splitOnce?_eq_some_iff {pattern s before rest : String} {c : Char}
    (h : pattern.toList = [c]) : splitOnce? pattern s = some (before, rest) ↔
      s = before ++ pattern ++ rest ∧ c ∉ before.toList := by
  have hcut : splitOnce? pattern s = some (before, rest) ↔
      breakOn? [c] s.toList = some (before.toList, rest.toList) := by
    simp only [splitOnce?, h, Option.map_eq_some_iff, Prod.exists, Prod.mk.injEq,
      ← String.toList_inj, String.toList_ofList]
    simp
  rw [hcut, breakOn?_singleton_eq_some_iff, ← String.toList_inj, String.toList_append,
    String.toList_append, h, List.append_assoc]
  rfl

/-! ### Replacements -/

section Replacements

variable {α : Type} [DecidableEq α] {pattern replacement xs : List α}

/-- Puts a replacement where a pattern stands first; a list without the pattern is unchanged. -/
def replaceFirstIn (pattern replacement xs : List α) : List α :=
  match breakOn? pattern xs with
  | some (before, rest) => before ++ replacement ++ rest
  | none => xs

theorem replaceFirstIn_nil (h : pattern ≠ []) : replaceFirstIn pattern replacement [] = [] := by
  have hnone : breakOn? pattern [] = none := by simp [breakOn?, h]
  rw [replaceFirstIn, hnone]

theorem replaceFirstIn_append (rest : List α) :
    replaceFirstIn pattern replacement (pattern ++ rest) = replacement ++ rest := by
  have hfront : breakOn? pattern (pattern ++ rest) = some ([], rest) :=
    breakOn?_eq_some_iff.2 ⟨rfl, fun _ _ _ => Nat.zero_le _⟩
  rw [replaceFirstIn, hfront]
  rfl

/-- An element at which the pattern does not begin stays. -/
theorem replaceFirstIn_cons {x : α} (h : ¬ pattern <+: x :: xs) :
    replaceFirstIn pattern replacement (x :: xs) =
      x :: replaceFirstIn pattern replacement xs := by
  rw [replaceFirstIn, replaceFirstIn, breakOn?, after?_eq_none_iff.2 h]
  cases breakOn? pattern xs with
  | none => rfl
  | some parts => rfl

/-- A part without the element with which the pattern begins stays. -/
theorem replaceFirstIn_append_of_not_mem {a : α} {front : List α} (h : a ∉ front) :
    replaceFirstIn (a :: pattern) replacement (front ++ xs) =
      front ++ replaceFirstIn (a :: pattern) replacement xs := by
  induction front with
  | nil => rfl
  | cons x front ih =>
      rw [List.mem_cons, not_or] at h
      rw [List.cons_append, replaceFirstIn_cons (fun hprefix => h.1 (List.cons_prefix_cons.1
        hprefix).1), ih h.2, List.cons_append]

end Replacements

theorem toList_replaceFirst (pattern replacement s : String) :
    (replaceFirst pattern replacement s).toList =
      replaceFirstIn pattern.toList replacement.toList s.toList := by
  rw [replaceFirst, splitOnce?, replaceFirstIn]
  cases breakOn? pattern.toList s.toList with
  | none => rfl
  | some parts => simp

/-! ### Beginnings and ends -/

theorem dropStart?_eq_some_iff {start s rest : String} :
    dropStart? start s = some rest ↔ s = start ++ rest := by
  simp only [dropStart?, Option.map_eq_some_iff, after?_eq_some_iff, ← String.toList_inj,
    String.toList_ofList, String.toList_append]
  constructor
  · rintro ⟨back, hback, rfl⟩
    exact hback
  · exact fun h => ⟨rest.toList, h, rfl⟩

theorem dropStart?_append (start rest : String) : dropStart? start (start ++ rest) = some rest :=
  dropStart?_eq_some_iff.2 rfl

theorem dropStart?_eq_none_iff {start s : String} :
    dropStart? start s = none ↔ ¬start.toList <+: s.toList := by
  rw [dropStart?, Option.map_eq_none_iff, after?_eq_none_iff]

theorem dropEnd?_eq_some_iff {stop s rest : String} :
    dropEnd? stop s = some rest ↔ s = rest ++ stop := by
  simp only [dropEnd?, Option.map_eq_some_iff, after?_eq_some_iff, ← String.toList_inj,
    String.toList_ofList, String.toList_append]
  constructor
  · rintro ⟨back, hback, hrest⟩
    rw [← List.reverse_reverse s.toList, hback, List.reverse_append, List.reverse_reverse, hrest]
  · intro h
    exact ⟨rest.toList.reverse, by rw [h, List.reverse_append], List.reverse_reverse _⟩

/-! ### Lines -/

/-- The pieces of a text are the lists that are joined in it. -/
theorem splitOn_ofList {c : Char} {lines : List (List Char)} (h : ∀ line ∈ lines, c ∉ line)
    (hne : lines ≠ []) : splitOn c (.ofList ([c].intercalate lines)) = lines.map .ofList := by
  rw [splitOn, String.toList_ofList, List.splitOn_intercalate c h hne]

/-- Texts that are joined by a character which they do not hold are its pieces. -/
theorem splitOn_intercalate {c : Char} {between : String} {texts : List String}
    (hbetween : between.toList = [c]) (h : ∀ text ∈ texts, c ∉ text.toList) (hne : texts ≠ []) :
    splitOn c (between.intercalate texts) = texts := by
  have hlists : ∀ cs ∈ texts.map String.toList, c ∉ cs := by
    simpa using h
  rw [splitOn, String.toList_intercalate, hbetween,
    List.splitOn_intercalate c hlists (by simpa using hne), List.map_map]
  exact List.map_id'' (fun _ => String.ofList_toList) texts

/-- What holds of the elements between pieces and of those in them holds of all together. -/
theorem forall_mem_intercalate {α : Type} {p : α → Prop} {between : List α}
    (hbetween : ∀ a ∈ between, p a) {pieces : List (List α)}
    (hpieces : ∀ piece ∈ pieces, ∀ a ∈ piece, p a) : ∀ a ∈ between.intercalate pieces, p a := by
  induction pieces with
  | nil => simp
  | cons piece more ih =>
      rw [List.forall_mem_cons] at hpieces
      cases more with
      | nil => simpa using hpieces.1
      | cons next more =>
          rw [List.intercalate_cons_cons, List.forall_mem_append, List.forall_mem_append]
          exact ⟨⟨hpieces.1, hbetween⟩, ih hpieces.2⟩

/-- No piece holds the element at which the list is cut. -/
theorem not_mem_of_mem_splitOn {α : Type} [BEq α] [LawfulBEq α] {c : α} {cs piece : List α}
    (h : piece ∈ cs.splitOn c) : c ∉ piece := by
  induction cs generalizing piece with
  | nil =>
      obtain rfl : piece = [] := by simpa using h
      exact List.not_mem_nil
  | cons d rest ih =>
      rw [List.splitOn_cons_eq_if_modifyHead] at h
      by_cases hd : (d == c) = true
      · rw [if_pos hd] at h
        rcases List.mem_cons.1 h with rfl | h
        · exact List.not_mem_nil
        · exact ih h
      · -- the element joins the first piece of the rest
        rw [if_neg hd] at h
        obtain ⟨first, more, hrest⟩ := List.exists_cons_of_ne_nil (rest.splitOn_ne_nil c)
        rw [hrest] at h ih
        rcases List.mem_cons.1 h with rfl | h
        · have hne : c ≠ d := fun e => hd (beq_iff_eq.2 e.symm)
          rw [List.mem_cons, not_or]
          exact ⟨hne, ih List.mem_cons_self⟩
        · exact ih (List.mem_cons_of_mem _ h)

/-- Any number of marks in front of a text that does not begin with one does not count. -/
theorem withoutMarks_ofList {n : Nat} {cs : List Char} (h : cs.head? ≠ some '\uFEFF') :
    withoutMarks (.ofList (List.replicate n '\uFEFF' ++ cs)) = .ofList cs := by
  rw [withoutMarks, String.toList_ofList, List.dropWhile_append_of_pos (by simp)]
  cases cs with
  | nil => rfl
  | cons c rest =>
      rw [List.dropWhile_cons_of_neg]
      simpa using h

/-- The marks that do not count are the ones in front of the text. -/
theorem exists_marks (s : String) : ∃ n, s = .ofList (List.replicate n '\uFEFF' ++
    (withoutMarks s).toList) ∧ (withoutMarks s).toList.head? ≠ some '\uFEFF' := by
  rw [withoutMarks, String.toList_ofList]
  refine ⟨(s.toList.takeWhile (· == '\uFEFF')).length, ?_, fun hhead => ?_⟩
  · have hmarks : s.toList.takeWhile (· == '\uFEFF') =
        List.replicate (s.toList.takeWhile (· == '\uFEFF')).length '\uFEFF' := by
      refine List.eq_replicate_of_mem fun c hc => ?_
      exact beq_iff_eq.1 (List.mem_takeWhile_imp (p := (· == '\uFEFF')) hc)
    rw [← hmarks, List.takeWhile_append_dropWhile, String.ofList_toList]
  · have hkept := List.head?_dropWhile_not (· == '\uFEFF') s.toList
    rw [hhead] at hkept
    exact Bool.noConfusion hkept

/-! ### Bytes -/

theorem fromUTF8?_toUTF8 (s : String) : String.fromUTF8? s.toUTF8 = some s := by
  unfold String.fromUTF8?
  split
  · rfl
  · rename_i h
    exact absurd s.isValidUTF8 (by simpa using h)

end BuildAtlas.Text
