import BuildAtlas.Proofs.Text
import BuildAtlas.VisualStudio.Macros
import Mathlib.Data.List.Perm.Basic

/-!
# BuildAtlas.Proofs.VisualStudio.Macros

Expanding the macros of a value one after the other is the same as expanding them all at once.

A well-formed value is written by pieces: characters and references (`exists_writes`). One expansion
replaces the first reference to its macro and leaves the other pieces as they are, since no
reference begins inside of another piece (`replaceFirst_written`). `substituted` says in one pass
what becomes of the pieces; each expansion gives one more macro its text there
(`expandFirst_substituted`), so that in the end all have theirs, in whichever order they come
(`expand_simultaneously`). All this needs that no text holds a dollar sign: the macros that follow
would expand a reference that has come in with a text.
-/

namespace BuildAtlas.VisualStudio

/-! ### Pieces of a value -/

/-- A piece of a value. -/
inductive Piece
  | char (c : Char)
  | reference (name : String)
  deriving Repr, DecidableEq

/-- A name holds none of the characters that delimit a reference. -/
def IsMacroName (name : String) : Prop :=
  ∀ c ∈ name.toList, c ∉ ['$', '(', ')']

instance (name : String) : Decidable (IsMacroName name) :=
  List.decidableBAll (fun c => c ∉ ['$', '(', ')']) name.toList

namespace Piece

/-- The text of a piece. -/
def text : Piece → List Char
  | char c => [c]
  | reference name => (macroReference name).toList

/-- A dollar sign is no piece by itself, and references have names of macros. -/
def IsProper : Piece → Prop
  | char c => c ≠ '$'
  | reference name => IsMacroName name

instance : (piece : Piece) → Decidable piece.IsProper
  | char c => inferInstanceAs (Decidable (c ≠ '$'))
  | reference name => inferInstanceAs (Decidable (IsMacroName name))

/-- The characters of a text, each a piece by itself. -/
def literal (text : String) : List Piece :=
  text.toList.map char

end Piece

/-- The only dollar signs in front of a parenthesis are those of references. -/
def Readable : List Piece → Prop
  | [] => True
  | .char c :: rest => (c = '$' → (rest.flatMap Piece.text).head? ≠ some '(') ∧ Readable rest
  | .reference name :: rest => IsMacroName name ∧ Readable rest

/-- The value that pieces make up. -/
def written (pieces : List Piece) : String :=
  .ofList (pieces.flatMap Piece.text)

/-- A value is made up by these pieces. -/
def MakesUp (pieces : List Piece) (value : String) : Prop :=
  (∀ piece ∈ pieces, piece.IsProper) ∧ written pieces = value

/-- Each dollar sign begins a reference. -/
def IsWellFormed (cs : List Char) : Prop :=
  ∀ before rest, cs = before ++ '$' :: rest → ∃ name after,
    rest = '(' :: (name ++ ')' :: after) ∧ ∀ c ∈ name, c ∉ ['$', '(', ')']

theorem toList_macroReference (name : String) :
    (macroReference name).toList = '$' :: '(' :: (name.toList ++ [')']) := by
  rw [macroReference, String.toList_append, String.toList_append]
  rfl

theorem toList_written (pieces : List Piece) :
    (written pieces).toList = pieces.flatMap Piece.text :=
  String.toList_ofList

theorem written_append (front back : List Piece) :
    written (front ++ back) = written front ++ written back := by
  rw [← String.toList_inj, String.toList_append, toList_written, toList_written, toList_written,
    List.flatMap_append]

theorem written_reference (name : String) : written [.reference name] = macroReference name := by
  rw [← String.toList_inj, toList_written, List.flatMap_cons, List.flatMap_nil, List.append_nil]
  rfl

theorem flatMap_text_literal (text : String) :
    (Piece.literal text).flatMap Piece.text = text.toList := by
  rw [Piece.literal, List.flatMap_map]
  exact List.flatMap_singleton' _

theorem isProper_of_mem_literal {text : String} (h : '$' ∉ text.toList) :
    ∀ piece ∈ Piece.literal text, piece.IsProper := by
  intro piece hpiece
  obtain ⟨c, hc, rfl⟩ := List.mem_map.1 hpiece
  exact ne_of_mem_of_not_mem hc h

/-- Proper pieces have no dollar signs but those of references. -/
theorem readable_of_isProper {pieces : List Piece} (h : ∀ piece ∈ pieces, piece.IsProper) :
    Readable pieces := by
  induction pieces with
  | nil => exact trivial
  | cons piece rest ih =>
      rw [List.forall_mem_cons] at h
      cases piece with
      | char c => exact ⟨fun hc => absurd hc h.1, ih h.2⟩
      | reference name => exact ⟨h.1, ih h.2⟩

theorem IsWellFormed.of_append {front rest : List Char} (h : IsWellFormed (front ++ rest)) :
    IsWellFormed rest := by
  intro before back hback
  exact h (front ++ before) back (by rw [hback, List.append_assoc])

/-- A well-formed value is made up by pieces. -/
theorem IsWellFormed.exists_pieces {cs : List Char} (h : IsWellFormed cs) :
    ∃ pieces : List Piece, (∀ piece ∈ pieces, piece.IsProper) ∧ pieces.flatMap Piece.text = cs := by
  induction hlength : cs.length using Nat.strong_induction_on generalizing cs with
  | _ n ih =>
    cases cs with
    | nil => exact ⟨[], by simp, rfl⟩
    | cons c rest =>
        by_cases hc : c = '$'
        · -- a reference stands here, and what follows it is shorter
          subst hc
          obtain ⟨name, after, rfl, hname⟩ := h [] rest rfl
          have hcs : '$' :: '(' :: (name ++ ')' :: after) =
              '$' :: '(' :: (name ++ [')']) ++ after := by
            simp
          rw [hcs] at h hlength
          have hshorter : after.length < n := by
            rw [← hlength, List.length_append, List.length_cons]
            omega
          obtain ⟨pieces, hproper, hpieces⟩ := ih after.length hshorter h.of_append rfl
          refine ⟨.reference (.ofList name) :: pieces, List.forall_mem_cons.2 ⟨?_, hproper⟩, ?_⟩
          · rwa [Piece.IsProper, IsMacroName, String.toList_ofList]
          · rw [List.flatMap_cons, hpieces, Piece.text, toList_macroReference,
              String.toList_ofList, hcs]
        · obtain ⟨pieces, hproper, hpieces⟩ := ih rest.length
            (by rw [← hlength]; simp) (@IsWellFormed.of_append [c] rest h) rfl
          refine ⟨.char c :: pieces, List.forall_mem_cons.2 ⟨hc, hproper⟩, ?_⟩
          rw [List.flatMap_cons, hpieces]
          rfl

/-- An element that a list begins without stands behind this beginning. -/
theorem exists_append_of_not_mem {α : Type} {a : α} {front xs before rest : List α} (h : a ∉ front)
    (heq : front ++ xs = before ++ a :: rest) : ∃ more, xs = more ++ a :: rest := by
  rcases List.append_eq_append_iff.1 heq with ⟨more, -, hxs⟩ | ⟨more, hfront, hrest⟩
  · exact ⟨more, hxs⟩
  · cases more with
    | nil => exact ⟨[], hrest.symm⟩
    | cons b more =>
        obtain ⟨rfl, -⟩ := List.cons.inj hrest
        exact absurd (hfront ▸ List.mem_append_right _ List.mem_cons_self) h

/-- What pieces make up is well-formed. -/
theorem isWellFormed_flatMap_text {pieces : List Piece} (h : ∀ piece ∈ pieces, piece.IsProper) :
    IsWellFormed (pieces.flatMap Piece.text) := by
  induction pieces with
  | nil =>
      intro before rest hcs
      simp at hcs
  | cons piece pieces ih =>
      rw [List.forall_mem_cons] at h
      intro before rest hcs
      rw [List.flatMap_cons] at hcs
      cases piece with
      | char c =>
          have hc : '$' ∉ [c] := by simpa using h.1.symm
          obtain ⟨more, hmore⟩ := exists_append_of_not_mem hc hcs
          exact ih h.2 more rest hmore
      | reference name =>
          rw [Piece.text, toList_macroReference] at hcs
          cases before with
          | nil =>
              refine ⟨name.toList, pieces.flatMap Piece.text, ?_, h.1⟩
              rw [← (List.cons.inj hcs).2]
              simp
          | cons c before =>
              -- no second dollar sign stands in a reference
              have hname : '$' ∉ name.toList := fun hmem => h.1 '$' hmem (by decide)
              have hdollar : '$' ∉ '(' :: (name.toList ++ [')']) := by simpa using hname
              obtain ⟨more, hmore⟩ := exists_append_of_not_mem hdollar (List.cons.inj hcs).2
              exact ih h.2 more rest hmore

/-! ### One expansion -/

/-- Replaces the first reference to a macro by characters. -/
def expandFirst (name text : String) : List Piece → List Piece
  | [] => []
  | piece :: rest =>
    if piece = .reference name then Piece.literal text ++ rest
    else piece :: expandFirst name text rest

section OneExpansion

variable {name text : String} {pieces : List Piece}

/-- A reference does not begin like one to another macro. -/
theorem not_macroReference_prefix {other : String} (hname : IsMacroName name)
    (hother : IsMacroName other) (hne : other ≠ name) (rest : List Char) :
    ¬ (macroReference name).toList <+: (macroReference other).toList ++ rest := by
  rintro ⟨more, hmore⟩
  have hend {name : String} (h : IsMacroName name) : ')' ∉ name.toList :=
    fun hmem => h ')' hmem (by decide)
  rw [toList_macroReference, toList_macroReference] at hmore
  have htail : name.toList ++ ')' :: more = other.toList ++ ')' :: rest := by
    simpa using hmore
  -- both names reach up to the first closing parenthesis
  have hcut := Text.breakOn?_singleton_eq_some_iff.2 ⟨htail, hend hother⟩
  rw [Text.breakOn?_singleton_eq_some_iff.2 ⟨rfl, hend hname⟩, Option.some.injEq,
    Prod.mk.injEq] at hcut
  exact hne (String.toList_injective hcut.1.symm)

/-- A reference to another macro stays, and the first reference is looked for behind it. -/
theorem replaceFirstIn_reference_append {other : String} (hname : IsMacroName name)
    (hother : IsMacroName other) (hne : other ≠ name) (rest : List Char) :
    Text.replaceFirstIn (macroReference name).toList text.toList
        ((macroReference other).toList ++ rest) =
      (macroReference other).toList ++
        Text.replaceFirstIn (macroReference name).toList text.toList rest := by
  -- the search fails at the dollar sign, and finds none in the rest of the reference
  have hnot := not_macroReference_prefix hname hother hne rest
  have hdollar : '$' ∉ '(' :: (other.toList ++ [')']) := by
    have hmem : '$' ∉ other.toList := fun hmem => hother '$' hmem (by decide)
    simpa using hmem
  rw [toList_macroReference other, List.cons_append] at hnot ⊢
  rw [Text.replaceFirstIn_cons hnot, toList_macroReference name,
    Text.replaceFirstIn_append_of_not_mem hdollar]
  rfl

/-- An expansion replaces the first reference to its macro. -/
theorem replaceFirstIn_flatMap_text (hname : IsMacroName name) (hpieces : Readable pieces) :
    Text.replaceFirstIn (macroReference name).toList text.toList (pieces.flatMap Piece.text) =
      (expandFirst name text pieces).flatMap Piece.text := by
  induction pieces with
  | nil => exact Text.replaceFirstIn_nil (by rw [toList_macroReference]; exact List.cons_ne_nil _ _)
  | cons piece rest ih =>
      rw [List.flatMap_cons, expandFirst]
      cases piece with
      | char c =>
          rw [if_neg (fun h => nomatch h), List.flatMap_cons, ← ih hpieces.2, Piece.text,
            List.singleton_append, toList_macroReference]
          refine Text.replaceFirstIn_cons fun hprefix => ?_
          -- a reference would begin here, with a parenthesis behind the dollar sign
          obtain ⟨hc, more, hmore⟩ := List.cons_prefix_cons.1 hprefix
          refine hpieces.1 hc.symm ?_
          rw [← hmore]
          rfl
      | reference other =>
          by_cases hne : other = name
          · rw [if_pos (by rw [hne]), hne, List.flatMap_append, flatMap_text_literal]
            exact Text.replaceFirstIn_append _
          · rw [if_neg (fun h => hne (Piece.reference.inj h)), List.flatMap_cons, ← ih hpieces.2]
            exact replaceFirstIn_reference_append hname hpieces.1 hne _

theorem replaceFirst_written (hname : IsMacroName name) (hpieces : Readable pieces) :
    Text.replaceFirst (macroReference name) text (written pieces) =
      written (expandFirst name text pieces) := by
  rw [← String.toList_inj, Text.toList_replaceFirst, toList_written, toList_written,
    replaceFirstIn_flatMap_text hname hpieces]

theorem isProper_of_mem_expandFirst (htext : '$' ∉ text.toList)
    (hpieces : ∀ piece ∈ pieces, piece.IsProper) :
    ∀ piece ∈ expandFirst name text pieces, piece.IsProper := by
  induction pieces with
  | nil => simp [expandFirst]
  | cons piece rest ih =>
      rw [List.forall_mem_cons] at hpieces
      rw [expandFirst]
      by_cases hpiece : piece = .reference name
      · rw [if_pos hpiece, List.forall_mem_append]
        exact ⟨isProper_of_mem_literal htext, hpieces.2⟩
      · rw [if_neg hpiece, List.forall_mem_cons]
        exact ⟨hpieces.1, ih hpieces.2⟩

/-- Pieces without a reference to the macro stay. -/
theorem expandFirst_append {front : List Piece} (h : .reference name ∉ front)
    (rest : List Piece) : expandFirst name text (front ++ rest) =
      front ++ expandFirst name text rest := by
  induction front with
  | nil => rfl
  | cons piece front ih =>
      rw [List.mem_cons, not_or] at h
      rw [List.cons_append, expandFirst, if_neg (Ne.symm h.1), ih h.2, List.cons_append]

end OneExpansion

/-! ### All expansions at once -/

/-- What becomes of a piece behind others: the first reference to a macro becomes the text of the
macro, if it has one. Everything else stays. -/
def Piece.expansion (text? : String → Option String) (before : List Piece) : Piece → List Piece
  | .char c => [.char c]
  | .reference name =>
    if .reference name ∈ before then [.reference name]
    else ((text? name).map literal).getD [.reference name]

/-- What becomes of the pieces that stand behind others. -/
def substituted (text? : String → Option String) : (before pieces : List Piece) → List Piece
  | _, [] => []
  | before, piece :: rest =>
    piece.expansion text? before ++ substituted text? (before ++ [piece]) rest

section Substituted

variable {name text : String} {text? more? : String → Option String} {before : List Piece}

theorem expansion_congr (h : ∀ name, .reference name ∉ before → text? name = more? name)
    (piece : Piece) : piece.expansion text? before = piece.expansion more? before := by
  cases piece with
  | char c => rfl
  | reference name =>
      rw [Piece.expansion, Piece.expansion]
      by_cases hname : .reference name ∈ before
      · rw [if_pos hname, if_pos hname]
      · rw [if_neg hname, if_neg hname, h name hname]

/-- The texts of macros that have been referred to before do not matter. -/
theorem substituted_congr (h : ∀ name, .reference name ∉ before → text? name = more? name)
    (pieces : List Piece) : substituted text? before pieces = substituted more? before pieces := by
  induction pieces generalizing before with
  | nil => rfl
  | cons piece rest ih =>
      rw [substituted, substituted, expansion_congr h, ih fun name hname =>
        h name fun hmem => hname (List.mem_append_left _ hmem)]

theorem substituted_append (before front back : List Piece) :
    substituted text? before (front ++ back) =
      substituted text? before front ++ substituted text? (before ++ front) back := by
  induction front generalizing before with
  | nil => rw [List.append_nil, substituted, List.nil_append, List.nil_append]
  | cons piece front ih =>
      rw [List.cons_append, substituted, substituted, ih, List.append_assoc, List.append_assoc,
        List.singleton_append]

/-- Without texts all pieces stay. -/
theorem substituted_none (before pieces : List Piece) :
    substituted (fun _ => none) before pieces = pieces := by
  induction pieces generalizing before with
  | nil => rfl
  | cons piece rest ih =>
      rw [substituted, ih]
      cases piece with
      | char c => rfl
      | reference name => simp [Piece.expansion]

theorem reference_not_mem_expansion {piece : Piece} (h : piece ≠ .reference name) :
    .reference name ∉ piece.expansion text? before := by
  cases piece with
  | char c => simp [Piece.expansion]
  | reference other =>
      have hne : Piece.reference name ∉ [Piece.reference other] := by
        simpa using fun hname : name = other => h (by rw [hname])
      rw [Piece.expansion]
      split
      · exact hne
      · cases text? other with
        | none => exact hne
        | some text => simp [Piece.literal]

/-- One more expansion gives its macro a text. -/
theorem expandFirst_substituted (hnone : text? name = none) (hsome : more? name = some text)
    (hother : ∀ other, other ≠ name → more? other = text? other)
    (hbefore : .reference name ∉ before) (pieces : List Piece) :
    expandFirst name text (substituted text? before pieces) = substituted more? before pieces := by
  induction pieces generalizing before with
  | nil => rfl
  | cons piece rest ih =>
      rw [substituted, substituted]
      by_cases hpiece : piece = .reference name
      · -- this is the first reference; behind it the new text does not matter
        subst hpiece
        have hrest : substituted text? (before ++ [.reference name]) rest =
            substituted more? (before ++ [.reference name]) rest := by
          refine substituted_congr (fun other hmem => (hother other ?_).symm) rest
          rintro rfl
          exact hmem (List.mem_append_right _ List.mem_cons_self)
        rw [Piece.expansion, Piece.expansion, if_neg hbefore, if_neg hbefore, hnone, hsome, hrest]
        exact if_pos rfl
      · have hexpansion : piece.expansion text? before = piece.expansion more? before := by
          cases piece with
          | char c => rfl
          | reference other =>
              rw [Piece.expansion, Piece.expansion, hother other fun h => hpiece (by rw [h])]
        have hnext : .reference name ∉ before ++ [piece] := by
          rw [List.mem_append, List.mem_singleton, not_or]
          exact ⟨hbefore, Ne.symm hpiece⟩
        rw [expandFirst_append (reference_not_mem_expansion hpiece), ih hnext, hexpansion]

end Substituted

/-! ### Tables -/

namespace MacroTable

/-- The text of a macro. -/
def text? (table : MacroTable) (name : String) : Option String :=
  table.entries.lookup name

/-- The macros of a table have different names, and no text could hold a reference. -/
structure IsPlain (table : MacroTable) : Prop where
  nodup : (table.entries.map Prod.fst).Nodup
  names : ∀ name ∈ table.entries.map Prod.fst, IsMacroName name
  texts : ∀ entry ∈ table.entries, '$' ∉ entry.2.toList

theorem bne_of_mem_left {done entries : List (String × String)} {name text : String}
    (h : ((done ++ (name, text) :: entries).map Prod.fst).Nodup) :
    ∀ entry ∈ done, (name != entry.1) = true := by
  intro entry hentry
  rw [List.map_append, List.map_cons] at h
  have hne := (List.nodup_append.1 h).2.2 entry.1 (List.mem_map_of_mem hentry) name
    List.mem_cons_self
  simpa using hne.symm

theorem lookup_eq_some_iff_mem {entries : List (String × String)}
    (h : (entries.map Prod.fst).Nodup) {name text : String} :
    entries.lookup name = some text ↔ (name, text) ∈ entries := by
  rw [List.lookup_eq_some_iff]
  constructor
  · rintro ⟨front, back, rfl, -⟩
    exact List.mem_append_right _ List.mem_cons_self
  · intro hmem
    obtain ⟨front, back, rfl⟩ := List.append_of_mem hmem
    exact ⟨front, back, rfl, bne_of_mem_left h⟩

theorem IsPlain.perm {table other : MacroTable} (h : table.IsPlain)
    (hperm : other.entries.Perm table.entries) : other.IsPlain where
  nodup := (hperm.map Prod.fst).nodup_iff.2 h.nodup
  names := fun name hname => h.names name ((hperm.map Prod.fst).mem_iff.1 hname)
  texts := fun entry hentry => h.texts entry (hperm.mem_iff.1 hentry)

theorem IsPlain.text?_eq {table other : MacroTable} (h : table.IsPlain)
    (hperm : other.entries.Perm table.entries) : other.text? = table.text? := by
  funext name
  refine Option.ext fun text => ?_
  rw [text?, text?, lookup_eq_some_iff_mem (h.perm hperm).nodup, lookup_eq_some_iff_mem h.nodup,
    hperm.mem_iff]

/-- The macros that have been expanded have their texts, and the others get theirs one by one. -/
theorem foldl_replaceFirst_written {done entries : List (String × String)} {pieces : List Piece}
    (hnodup : ((done ++ entries).map Prod.fst).Nodup)
    (hnames : ∀ name ∈ entries.map Prod.fst, IsMacroName name)
    (htexts : ∀ entry ∈ entries, '$' ∉ entry.2.toList)
    (hpieces : ∀ piece ∈ substituted (done.lookup ·) [] pieces, piece.IsProper) :
    entries.foldl (fun value (name, text) => Text.replaceFirst (macroReference name) text value)
        (written (substituted (done.lookup ·) [] pieces)) =
      written (substituted ((done ++ entries).lookup ·) [] pieces) := by
  induction entries generalizing done with
  | nil => rw [List.foldl_nil, List.append_nil]
  | cons entry entries ih =>
      obtain ⟨name, text⟩ := entry
      rw [List.map_cons, List.forall_mem_cons] at hnames
      rw [List.forall_mem_cons] at htexts
      have hnone : done.lookup name = none := List.lookup_eq_none_iff.2 (bne_of_mem_left hnodup)
      have hstep : expandFirst name text (substituted (done.lookup ·) [] pieces) =
          substituted ((done ++ [(name, text)]).lookup ·) [] pieces := by
        refine expandFirst_substituted hnone ?_ (fun other hother => ?_) List.not_mem_nil pieces
        · rw [List.lookup_append, hnone, Option.none_or, List.lookup_cons_self]
        · rw [List.lookup_append, List.lookup_cons, beq_eq_false_iff_ne.2 hother, List.lookup_nil,
            Option.or_none]
      have hreplaced : Text.replaceFirst (macroReference name) text
          (written (substituted (done.lookup ·) [] pieces)) =
            written (substituted ((done ++ [(name, text)]).lookup ·) [] pieces) := by
        rw [replaceFirst_written hnames.1 (readable_of_isProper hpieces), hstep]
      have hproper : ∀ piece ∈ expandFirst name text (substituted (done.lookup ·) [] pieces),
          piece.IsProper := isProper_of_mem_expandFirst htexts.1 hpieces
      rw [hstep] at hproper
      rw [List.append_cons] at hnodup ⊢
      rw [List.foldl_cons, ← ih hnodup hnames.2 htexts.2 hproper]
      exact congrArg (entries.foldl _) hreplaced

/-- Expanding one macro after the other is substituting all at once. -/
theorem IsPlain.expand_written {table : MacroTable} (h : table.IsPlain) {pieces : List Piece}
    (hpieces : ∀ piece ∈ pieces, piece.IsProper) :
    table.expand (written pieces) = written (substituted table.text? [] pieces) := by
  have hstart : substituted (([] : List (String × String)).lookup ·) [] pieces = pieces :=
    substituted_none [] pieces
  have hrun := @foldl_replaceFirst_written [] table.entries pieces h.nodup h.names h.texts
    (by rwa [hstart])
  rw [hstart] at hrun
  exact hrun

theorem names_within (solutionDir projectName projectPath configuration : String) :
    ((ofProject solutionDir projectName projectPath).within configuration).entries.map Prod.fst =
      ["SolutionDir", "ProjectName", "ProjectPath"] ++ if configuration = "" then [] else
        ["PlatformShortName", "Platform", "Configuration", "ConfigurationName"] := by
  rw [within]
  by_cases h : configuration = ""
  · rw [if_pos h, if_pos h]
    rfl
  · rw [if_neg h, if_neg h]
    rfl

theorem isMacroName_of_mem_within {solutionDir projectName projectPath configuration : String} :
    ∀ name ∈ ((ofProject solutionDir projectName projectPath).within
      configuration).entries.map Prod.fst, IsMacroName name := by
  rw [names_within]
  split <;> decide

theorem isPlain_within {solutionDir projectName projectPath configuration : String}
    (htexts : ∀ entry ∈ ((ofProject solutionDir projectName projectPath).within
      configuration).entries, '$' ∉ entry.2.toList) :
    ((ofProject solutionDir projectName projectPath).within configuration).IsPlain where
  nodup := by
    rw [names_within]
    split <;> decide
  names := isMacroName_of_mem_within
  texts := htexts

/-- A reference to a macro that is not in the table stays in front of what is expanded. -/
theorem expand_reference_append {table : MacroTable} {name : String}
    (htable : ∀ other ∈ table.entries.map Prod.fst, IsMacroName other) (hname : IsMacroName name)
    (hnone : table.text? name = none) (rest : String) :
    table.expand (macroReference name ++ rest) = macroReference name ++ table.expand rest := by
  rw [text?, List.lookup_eq_none_iff] at hnone
  simp only [expand]
  generalize table.entries = entries at htable hnone
  induction entries generalizing rest with
  | nil => rfl
  | cons entry entries ih =>
      rw [List.map_cons, List.forall_mem_cons] at htable
      rw [List.forall_mem_cons, bne_iff_ne] at hnone
      have hstep :
          Text.replaceFirst (macroReference entry.1) entry.2 (macroReference name ++ rest) =
            macroReference name ++ Text.replaceFirst (macroReference entry.1) entry.2 rest := by
        rw [← String.toList_inj, Text.toList_replaceFirst, String.toList_append,
          String.toList_append, Text.toList_replaceFirst,
          replaceFirstIn_reference_append htable.1 hname hnone.1]
      rw [List.foldl_cons, List.foldl_cons, hstep, ih _ htable.2 hnone.2]

theorem substituted_reference_of_none {text? : String → Option String} {name : String}
    (h : text? name = none) (before : List Piece) :
    substituted text? before [.reference name] = [.reference name] := by
  simp [substituted, Piece.expansion, h]

/-- Let the texts of the macros of a project, and of a configuration if there is one, hold no dollar
sign, and let each dollar sign of a value begin a reference. Then pieces make up the value, and
expanding one macro after the other is replacing, all at once, the first reference to each macro by
its text. Everything else stays, and the order of the macros makes no difference. Without a
configuration, references to its macros stand where they stood. -/
theorem expand_simultaneously {solutionDir projectName projectPath configuration value : String}
    {table : MacroTable}
    (htable : table = (ofProject solutionDir projectName projectPath).within configuration)
    (htexts : ∀ entry ∈ table.entries, '$' ∉ entry.2.toList) (hvalue : IsWellFormed value.toList) :
    (∃ pieces, MakesUp pieces value) ∧
    (∀ pieces, MakesUp pieces value →
      table.expand value = written (substituted table.text? [] pieces)) ∧
    (∀ other : MacroTable, other.entries.Perm table.entries →
      other.expand value = table.expand value) ∧
    (configuration = "" →
      ∀ name ∈ ["PlatformShortName", "Platform", "Configuration", "ConfigurationName"],
      ∀ front back, MakesUp (front ++ .reference name :: back) value →
        table.expand value = written (substituted table.text? [] front) ++ macroReference name ++
          written (substituted table.text? (front ++ [.reference name]) back)) := by
  subst htable
  have hplain := isPlain_within htexts
  obtain ⟨pieces, hproper, hpieces⟩ := hvalue.exists_pieces
  have hmakes : MakesUp pieces value := by
    refine ⟨hproper, ?_⟩
    rw [written, hpieces, String.ofList_toList]
  refine ⟨⟨pieces, hmakes⟩, ?_, ?_, ?_⟩
  · rintro pieces ⟨hproper, rfl⟩
    exact hplain.expand_written hproper
  · intro other hperm
    rw [← hmakes.2, (hplain.perm hperm).expand_written hproper, hplain.expand_written hproper,
      hplain.text?_eq hperm]
  · rintro rfl name hname front back ⟨hproper, rfl⟩
    have hunlisted : ∀ name ∈ ["PlatformShortName", "Platform", "Configuration",
        "ConfigurationName"], name ∉ ["SolutionDir", "ProjectName", "ProjectPath"] := by
      decide
    have hnone : ((ofProject solutionDir projectName projectPath).within "").text? name = none := by
      rw [text?, List.lookup_eq_none_iff]
      intro entry hentry
      have hmem := List.mem_map_of_mem (f := Prod.fst) hentry
      rw [names_within, if_pos rfl, List.append_nil] at hmem
      rw [bne_iff_ne]
      rintro rfl
      exact hunlisted _ hname hmem
    rw [hplain.expand_written hproper, ← List.singleton_append, substituted_append,
      substituted_append, substituted_reference_of_none hnone, written_append, written_append,
      written_reference, List.nil_append, String.append_assoc]

/-- A value with two references to one macro. -/
def samplePieces : List Piece :=
  [.reference "SolutionDir", .reference "Platform", .char '/', .reference "Platform"]

theorem expand_simultaneously_samplePieces :
    ((ofProject "/s" "app" "a.vcxproj").within "Debug|x64").expand (written samplePieces) =
        "/s/x64/$(Platform)" ∧
      ((ofProject "/s" "app" "a.vcxproj").within "").expand (written samplePieces) =
        "/s/$(Platform)/$(Platform)" := by
  have hproper : ∀ piece ∈ samplePieces, piece.IsProper := by decide
  have hvalue : IsWellFormed (written samplePieces).toList := by
    rw [toList_written]
    exact isWellFormed_flatMap_text hproper
  obtain ⟨-, hwith, -⟩ := expand_simultaneously rfl
    (by decide +kernel : ∀ entry ∈ ((ofProject "/s" "app" "a.vcxproj").within "Debug|x64").entries,
      '$' ∉ entry.2.toList) hvalue
  obtain ⟨-, -, -, hwithout⟩ := expand_simultaneously rfl
    (by decide +kernel : ∀ entry ∈ ((ofProject "/s" "app" "a.vcxproj").within "").entries,
      '$' ∉ entry.2.toList) hvalue
  constructor
  · rw [hwith samplePieces ⟨hproper, rfl⟩]
    decide +kernel
  · rw [hwithout rfl "Platform" (by decide) [_] [_, _] ⟨hproper, rfl⟩]
    decide +kernel

end MacroTable

end BuildAtlas.VisualStudio
