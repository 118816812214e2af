import BuildAtlas.Proofs.VisualStudio.Macros
import Mathlib.Data.List.Nodup

/-!
# BuildAtlas.Proofs.VisualStudio.References

Values of which no reference is left when they are expanded.

`references` reads the names between `$(` and `)` off a value. When each of them is the name of a
macro of the table and none comes twice, every expansion takes away the one reference that it looks
for, and no text brings in a new one (`not_holdsReference_expand`). A dollar sign that stands by
itself is the only danger: directly in front of a reference, it may begin another one together with
the text that takes the place of the reference (`JoinsDollar`).
-/

namespace BuildAtlas.VisualStudio

/-! ### References in a text -/

/-- The text holds `$(`, with which every reference begins. -/
def HoldsReference (text : String) : Prop :=
  ['$', '('] <:+: text.toList

instance (text : String) : Decidable (HoldsReference text) :=
  inferInstanceAs (Decidable (['$', '('] <:+: text.toList))

/-- What stands in front of the next closing parenthesis. -/
def nameIn? (cs : List Char) : Option String :=
  (Text.breakOn? [')'] cs).map fun (name, _) => .ofList name

/-- The names of the references in a text, each of what stands between a `$(` and the next `)`.
There is no name where the `)` is missing. -/
def references : List Char → List (Option String)
  | [] => []
  | c :: rest =>
    match Text.after? ['$', '('] (c :: rest) with
    | some inside => nameIn? inside :: references rest
    | none => references rest

/-- Each reference in a value is to a macro of the table, and no two are to one macro. -/
structure RefersOnce (table : MacroTable) (value : String) : Prop where
  known : ∀ reference ∈ references value.toList,
    ∃ name ∈ table.entries.map Prod.fst, reference = some name
  nodup : (references value.toList).Nodup

instance (table : MacroTable) (value : String) : Decidable (RefersOnce table value) :=
  decidable_of_iff
    ((∀ reference ∈ references value.toList,
      ∃ name ∈ table.entries.map Prod.fst, reference = some name) ∧
      (references value.toList).Nodup)
    ⟨fun h => ⟨h.1, h.2⟩, fun h => ⟨h.known, h.nodup⟩⟩

/-- A dollar sign stands directly in front of a reference to a macro of which the text is empty or
begins with a parenthesis. -/
def JoinsDollar (table : MacroTable) (value : String) : Prop :=
  ∃ front name back text, value.toList = front ++ '$' :: ((macroReference name).toList ++ back) ∧
    table.text? name = some text ∧ ∀ c, text.toList.head? = some c → c = '('

theorem references_cons_of_not_dollar {c : Char} (h : c ≠ '$') (rest : List Char) :
    references (c :: rest) = references rest := by
  rw [references, Text.after?, if_neg (Ne.symm h)]

theorem references_append_of_not_mem {front : List Char} (h : '$' ∉ front) (rest : List Char) :
    references (front ++ rest) = references rest := by
  induction front with
  | nil => rfl
  | cons c front ih =>
      rw [List.mem_cons, not_or] at h
      rw [List.cons_append, references_cons_of_not_dollar (Ne.symm h.1), ih h.2]

/-- A dollar sign without a parenthesis behind it begins no reference. -/
theorem references_dollar {rest : List Char} (h : rest.head? ≠ some '(') :
    references ('$' :: rest) = references rest := by
  have hnone : Text.after? ['$', '('] ('$' :: rest) = none := by
    rw [Option.eq_none_iff_forall_ne_some]
    intro inside hinside
    rw [Text.after?_eq_some_iff] at hinside
    refine h ?_
    rw [(List.cons.inj hinside).2]
    rfl
  rw [references, hnone]

theorem references_open (rest : List Char) :
    references ('$' :: '(' :: rest) = nameIn? rest :: references rest := by
  have hinside : Text.after? ['$', '('] ('$' :: '(' :: rest) = some rest :=
    Text.after?_eq_some_iff.2 rfl
  rw [references, hinside]
  exact congrArg (nameIn? rest :: ·) (references_cons_of_not_dollar (by decide) rest)

theorem nameIn?_eq_some_iff {cs : List Char} {name : String} : nameIn? cs = some name ↔
    ∃ back, cs = name.toList ++ ')' :: back ∧ ')' ∉ name.toList := by
  simp only [nameIn?, Option.map_eq_some_iff, Prod.exists, Text.breakOn?_singleton_eq_some_iff]
  constructor
  · rintro ⟨front, back, hcut, rfl⟩
    rw [String.toList_ofList]
    exact ⟨back, hcut⟩
  · rintro ⟨back, hcut⟩
    exact ⟨name.toList, back, hcut, String.ofList_toList⟩

/-! ### Places of references -/

theorem pair_infix_cons_iff {c : Char} {cs : List Char} : ['$', '('] <:+: c :: cs ↔
    (c = '$' ∧ cs.head? = some '(') ∨ ['$', '('] <:+: cs := by
  rw [List.infix_cons_iff, List.cons_prefix_cons]
  have hhead : ['('] <+: cs ↔ cs.head? = some '(' := by
    cases cs with
    | nil => simp
    | cons d cs => simp [List.cons_prefix_cons, eq_comm]
  rw [hhead, eq_comm]

/-- A `$(` stands in front, or behind, or where the two meet. -/
theorem pair_infix_append_iff {front back : List Char} : ['$', '('] <:+: front ++ back ↔
    ['$', '('] <:+: front ∨ ['$', '('] <:+: back ∨
      (front.getLast? = some '$' ∧ back.head? = some '(') := by
  induction front with
  | nil => simp
  | cons c front ih =>
      rw [List.cons_append, pair_infix_cons_iff, pair_infix_cons_iff, ih]
      cases front with
      | nil => simp; tauto
      | cons d front =>
          rw [List.getLast?_cons_cons]
          simp only [List.cons_append, List.head?_cons]
          tauto

theorem not_pair_infix_of_not_mem {cs : List Char} (h : '$' ∉ cs) : ¬ ['$', '('] <:+: cs :=
  fun hpair => h (hpair.subset List.mem_cons_self)

/-! ### Pieces of a value -/

/-- The names of the references among pieces. -/
def referenced : List Piece → List String
  | [] => []
  | .char _ :: rest => referenced rest
  | .reference name :: rest => name :: referenced rest

/-- The pieces with the texts of all macros that have one. -/
def replaced (text? : String → Option String) (pieces : List Piece) : List Piece :=
  pieces.flatMap (·.expansion text? [])

/-- No dollar sign that stands by itself comes to stand in front of a parenthesis. -/
def IsClear (text? : String → Option String) : List Piece → Prop
  | [] => True
  | .char c :: rest =>
    (c = '$' → ((replaced text? rest).flatMap Piece.text).head? ≠ some '(') ∧ IsClear text? rest
  | .reference name :: rest => IsMacroName name ∧ IsClear text? rest

/-- A value is read as pieces when the names of its references are names of macros. -/
theorem exists_readable {cs : List Char}
    (h : ∀ reference ∈ references cs, ∃ name, IsMacroName name ∧ reference = some name) :
    ∃ pieces, Readable pieces ∧ pieces.flatMap Piece.text = cs ∧
      (referenced pieces).map some = references cs := by
  induction hlength : cs.length using Nat.strong_induction_on generalizing cs with
  | _ n ih =>
    cases cs with
    | nil => exact ⟨[], trivial, rfl, rfl⟩
    | cons c rest =>
        by_cases hopen : c = '$' ∧ rest.head? = some '('
        · -- a reference stands here, and what follows it is shorter
          obtain ⟨rfl, hhead⟩ := hopen
          obtain ⟨inside, rfl⟩ := List.head?_eq_some_iff.1 hhead
          rw [references_open, List.forall_mem_cons] at h
          obtain ⟨⟨name, hname, hinside⟩, hrest⟩ := h
          obtain ⟨back, rfl, -⟩ := nameIn?_eq_some_iff.1 hinside
          have hdollar : '$' ∉ name.toList := fun hmem => hname '$' hmem (by decide)
          have hskip : references (name.toList ++ ')' :: back) = references back := by
            rw [references_append_of_not_mem hdollar, references_cons_of_not_dollar (by decide)]
          have hshorter : back.length < n := by
            rw [← hlength]
            simp only [List.length_cons, List.length_append]
            omega
          rw [hskip] at hrest
          obtain ⟨pieces, hreadable, htext, hnames⟩ := ih back.length hshorter hrest rfl
          refine ⟨.reference name :: pieces, ⟨hname, hreadable⟩, ?_, ?_⟩
          · rw [List.flatMap_cons, htext, Piece.text, toList_macroReference]
            simp
          · rw [referenced, List.map_cons, hnames, references_open, hinside, hskip]
        · have hsame : references (c :: rest) = references rest := by
            by_cases hc : c = '$'
            · subst hc
              exact references_dollar fun hhead => hopen ⟨rfl, hhead⟩
            · exact references_cons_of_not_dollar hc rest
          rw [hsame] at h ⊢
          obtain ⟨pieces, hreadable, htext, hnames⟩ := ih rest.length
            (by rw [← hlength]; exact Nat.lt_succ_self _) h rfl
          refine ⟨.char c :: pieces, ⟨fun hc hhead => ?_, hreadable⟩, ?_, hnames⟩
          · rw [htext] at hhead
            exact hopen ⟨hc, hhead⟩
          · rw [List.flatMap_cons, htext]
            rfl

section Replaced

variable {text? : String → Option String} {name text : String} {pieces : List Piece}

theorem replaced_char (c : Char) (rest : List Piece) :
    replaced text? (.char c :: rest) = .char c :: replaced text? rest := by
  rw [replaced, List.flatMap_cons]
  rfl

theorem replaced_reference (name : String) (rest : List Piece) :
    replaced text? (.reference name :: rest) =
      ((text? name).map Piece.literal).getD [.reference name] ++ replaced text? rest := by
  rw [replaced, List.flatMap_cons, Piece.expansion, if_neg List.not_mem_nil]
  rfl

theorem replaced_literal_append (text : String) (rest : List Piece) :
    replaced text? (Piece.literal text ++ rest) = Piece.literal text ++ replaced text? rest := by
  rw [Piece.literal]
  induction text.toList with
  | nil => rfl
  | cons c cs ih => rw [List.map_cons, List.cons_append, replaced_char, ih, List.cons_append]

theorem referenced_literal_append (text : String) (rest : List Piece) :
    referenced (Piece.literal text ++ rest) = referenced rest := by
  rw [Piece.literal]
  induction text.toList with
  | nil => rfl
  | cons c cs ih => rw [List.map_cons, List.cons_append, referenced, ih]

/-- Without references nothing is replaced. -/
theorem replaced_of_referenced_eq_nil (h : referenced pieces = []) :
    replaced text? pieces = pieces := by
  induction pieces with
  | nil => rfl
  | cons piece rest ih =>
      cases piece with
      | char c => rw [replaced_char, ih h]
      | reference name => exact nomatch h

/-! ### One expansion -/

theorem char_ne_reference (c : Char) (name : String) : Piece.char c ≠ Piece.reference name :=
  fun h => Piece.noConfusion h

/-- An expansion takes away the first reference to its macro. -/
theorem referenced_expandFirst (name text : String) (pieces : List Piece) :
    referenced (expandFirst name text pieces) = (referenced pieces).erase name := by
  induction pieces with
  | nil => rfl
  | cons piece rest ih =>
      rw [expandFirst]
      cases piece with
      | char c => rw [if_neg (char_ne_reference c name), referenced, referenced, ih]
      | reference other =>
          by_cases hother : other = name
          · rw [if_pos (by rw [hother]), referenced_literal_append, referenced, hother,
              List.erase_cons_head]
          · rw [if_neg (fun h => hother (Piece.reference.inj h)), referenced, referenced, ih,
              List.erase_cons_tail (by simpa using hother)]

/-- It does what replacing all references does there. -/
theorem replaced_expandFirst (h : text? name = some text) (pieces : List Piece) :
    replaced text? (expandFirst name text pieces) = replaced text? pieces := by
  induction pieces with
  | nil => rfl
  | cons piece rest ih =>
      rw [expandFirst]
      cases piece with
      | char c => rw [if_neg (char_ne_reference c name), replaced_char, replaced_char, ih]
      | reference other =>
          by_cases hother : other = name
          · rw [if_pos (by rw [hother]), replaced_literal_append, replaced_reference, hother, h]
            rfl
          · rw [if_neg (fun h => hother (Piece.reference.inj h)), replaced_reference,
              replaced_reference, ih]

theorem IsClear.literal_append {rest : List Piece} (htext : '$' ∉ text.toList)
    (h : IsClear text? rest) : IsClear text? (Piece.literal text ++ rest) := by
  rw [Piece.literal]
  generalize text.toList = cs at htext
  induction cs with
  | nil => exact h
  | cons c cs ih =>
      rw [List.mem_cons, not_or] at htext
      exact ⟨fun hc => absurd hc.symm htext.1, ih htext.2⟩

theorem IsClear.expandFirst (hname : text? name = some text) (htext : '$' ∉ text.toList)
    (h : IsClear text? pieces) : IsClear text? (expandFirst name text pieces) := by
  induction pieces with
  | nil => exact trivial
  | cons piece rest ih =>
      rw [VisualStudio.expandFirst]
      cases piece with
      | char c =>
          rw [if_neg (char_ne_reference c name), IsClear, replaced_expandFirst hname]
          exact ⟨h.1, ih h.2⟩
      | reference other =>
          by_cases hother : other = name
          · rw [if_pos (by rw [hother])]
            exact h.2.literal_append htext
          · rw [if_neg (fun h => hother (Piece.reference.inj h))]
            exact ⟨h.1, ih h.2⟩

/-- A parenthesis behind a dollar sign would still be there when all references are replaced. -/
theorem IsClear.readable (h : IsClear text? pieces) : Readable pieces := by
  induction pieces with
  | nil => exact trivial
  | cons piece rest ih =>
      cases piece with
      | reference name => exact ⟨h.1, ih h.2⟩
      | char c =>
          refine ⟨fun hc hhead => h.1 hc ?_, ih h.2⟩
          cases rest with
          | nil => exact nomatch hhead
          | cons next rest =>
              cases next with
              | char d =>
                  rw [replaced_char]
                  exact hhead
              | reference name =>
                  rw [List.flatMap_cons, Piece.text, toList_macroReference] at hhead
                  exact absurd (Option.some.inj hhead) (by decide)

/-- No reference is left when all are replaced. -/
theorem IsClear.not_infix (h : IsClear text? pieces)
    (htexts : ∀ name ∈ referenced pieces, ∃ text, text? name = some text ∧ '$' ∉ text.toList) :
    ¬ ['$', '('] <:+: (replaced text? pieces).flatMap Piece.text := by
  induction pieces with
  | nil => exact not_pair_infix_of_not_mem List.not_mem_nil
  | cons piece rest ih =>
      cases piece with
      | char c =>
          rw [replaced_char, List.flatMap_cons, Piece.text, List.singleton_append,
            pair_infix_cons_iff, not_or, not_and]
          exact ⟨h.1, ih h.2 htexts⟩
      | reference name =>
          rw [referenced, List.forall_mem_cons] at htexts
          obtain ⟨⟨text, hname, htext⟩, hrest⟩ := htexts
          rw [replaced_reference, hname, Option.map_some, Option.getD_some, List.flatMap_append,
            flatMap_text_literal, pair_infix_append_iff]
          rintro (hpair | hpair | ⟨hlast, -⟩)
          · exact not_pair_infix_of_not_mem htext hpair
          · exact ih h.2 hrest hpair
          · exact htext (List.mem_of_getLast? hlast)

end Replaced

/-! ### All expansions -/

/-- If each reference is to another macro, expanding one macro after the other replaces them all. -/
theorem foldl_replaceFirst_of_isClear {text? : String → Option String}
    {entries : List (String × String)} {pieces : List Piece}
    (hentries : ∀ name ∈ entries.map Prod.fst, IsMacroName name)
    (htexts : ∀ entry ∈ entries, text? entry.1 = some entry.2 ∧ '$' ∉ entry.2.toList)
    (hclear : IsClear text? pieces) (hnodup : (referenced pieces).Nodup)
    (hnames : ∀ name ∈ referenced pieces, name ∈ entries.map Prod.fst) :
    entries.foldl (fun value (name, text) => Text.replaceFirst (macroReference name) text value)
      (written pieces) = written (replaced text? pieces) := by
  induction entries generalizing pieces with
  | nil =>
      rw [List.foldl_nil, replaced_of_referenced_eq_nil]
      exact List.eq_nil_iff_forall_not_mem.2 fun name hname => List.not_mem_nil (hnames name hname)
  | cons entry entries ih =>
      obtain ⟨name, text⟩ := entry
      rw [List.map_cons, List.forall_mem_cons] at hentries
      rw [List.forall_mem_cons] at htexts
      have hstep : Text.replaceFirst (macroReference name) text (written pieces) =
          written (expandFirst name text pieces) :=
        replaceFirst_written hentries.1 hclear.readable
      have hleft : ∀ other ∈ referenced (expandFirst name text pieces),
          other ∈ entries.map Prod.fst := by
        rw [referenced_expandFirst]
        intro other hother
        obtain ⟨hne, hmem⟩ := hnodup.mem_erase_iff.1 hother
        exact (List.mem_cons.1 (hnames other hmem)).resolve_left hne
      have hrest := ih hentries.2 htexts.2 (hclear.expandFirst htexts.1.1 htexts.1.2)
        (by rw [referenced_expandFirst]; exact hnodup.erase name) hleft
      rw [replaced_expandFirst htexts.1.1] at hrest
      rw [List.foldl_cons, ← hrest]
      exact congrArg (entries.foldl _) hstep

/-- Pieces that are read off a value are clear if no dollar sign in it joins a text. -/
theorem Readable.isClear {table : MacroTable} {pieces : List Piece} (h : Readable pieces)
    (hjoins : ¬ JoinsDollar table (written pieces)) : IsClear table.text? pieces := by
  induction pieces with
  | nil => exact trivial
  | cons piece rest ih =>
      have hrest : ¬ JoinsDollar table (written rest) := by
        rintro ⟨front, name, back, text, hplace, hjoin⟩
        refine hjoins ⟨piece.text ++ front, name, back, text, ?_, hjoin⟩
        rw [toList_written] at hplace ⊢
        rw [List.flatMap_cons, hplace, List.append_assoc]
      cases piece with
      | reference name => exact ⟨h.1, ih h.2 hrest⟩
      | char c =>
          refine ⟨fun hc hhead => ?_, ih h.2 hrest⟩
          cases rest with
          | nil => exact nomatch hhead
          | cons next rest =>
              cases next with
              | char d =>
                  rw [replaced_char] at hhead
                  exact h.1 hc hhead
              | reference name =>
                  rw [replaced_reference] at hhead
                  cases htext : table.text? name with
                  | none =>
                      rw [htext, Option.map_none, Option.getD_none, List.flatMap_append,
                        List.flatMap_singleton, Piece.text, toList_macroReference] at hhead
                      exact absurd (Option.some.inj hhead) (by decide)
                  | some text =>
                      refine hjoins ⟨[], name, rest.flatMap Piece.text, text, ?_, htext, ?_⟩
                      · rw [toList_written, hc]
                        rfl
                      · intro d hd
                        rw [htext, Option.map_some, Option.getD_some, List.flatMap_append,
                          flatMap_text_literal, List.head?_append, hd] at hhead
                        exact Option.some.inj hhead

/-- Let a table hold no dollar signs in its texts, and let each reference in a value be to another
one of its macros. Then no reference is left when the value is expanded. -/
theorem MacroTable.IsPlain.not_holdsReference_expand {table : MacroTable} {value : String}
    (h : table.IsPlain) (hvalue : RefersOnce table value) (hjoins : ¬ JoinsDollar table value) :
    ¬ HoldsReference (table.expand value) := by
  have hentries : ∀ entry ∈ table.entries,
      table.text? entry.1 = some entry.2 ∧ '$' ∉ entry.2.toList := fun entry hentry =>
    ⟨(lookup_eq_some_iff_mem h.nodup).2 hentry, h.texts entry hentry⟩
  obtain ⟨pieces, hreadable, htext, hnames⟩ := exists_readable fun reference hreference => by
    obtain ⟨name, hname, hsome⟩ := hvalue.known reference hreference
    exact ⟨name, h.names name hname, hsome⟩
  have hwritten : written pieces = value := by rw [written, htext, String.ofList_toList]
  have hclear : IsClear table.text? pieces := hreadable.isClear (hwritten ▸ hjoins)
  have hknown : ∀ name ∈ referenced pieces, name ∈ table.entries.map Prod.fst := by
    intro name hname
    obtain ⟨other, hother, hsome⟩ :=
      hvalue.known (some name) (hnames ▸ List.mem_map_of_mem hname)
    exact Option.some.inj hsome ▸ hother
  have hnodup : (referenced pieces).Nodup := List.Nodup.of_map some (hnames ▸ hvalue.nodup)
  have hexpanded : table.expand value = written (replaced table.text? pieces) := by
    rw [← hwritten]
    exact foldl_replaceFirst_of_isClear h.names hentries hclear hnodup hknown
  rw [hexpanded, HoldsReference, toList_written]
  refine hclear.not_infix fun name hname => ?_
  obtain ⟨⟨other, text⟩, hentry, rfl⟩ := List.mem_map.1 (hknown name hname)
  exact ⟨text, hentries _ hentry⟩

end BuildAtlas.VisualStudio
